import Mathlib.Algebra.BigOperators.Group.Finset.Basic
import Mathlib.Algebra.Order.BigOperators.Group.Finset
import Tracefs.MsgQueue.Rings
import Tracefs.WaitQueue

/-!
# Sleeping receivers

Any number of tasks send to one queue, receive from it and set its exit flag.  `trfsMqSend` stores
the message and wakes the wait queue with `q_lock` held; `trfsMqRecv` waits without the lock, tests
again, and then takes it.  Every step between two of these points belongs to one task and may be
followed by a step of any other, so a message may be stored and the wake-up sent at any point of
a receiver's way to sleep.
-/

namespace Tracefs

open Bytes Transition WaitQueue

variable {Ptr : Type}

/-- How a call on the queue came back. -/
inductive QueueReturn (Ptr : Type) where
  | sent (ret : Int)
  | gaveUp (ret : Int)
  | received (ret : Int) (out : Queued Ptr)

/-- The next thing a task does.  A wait carries its `timeOut`, and `out` holds the `*msg_p` and
`*msgLen` of a receiver's caller. -/
inductive TaskPhase (Ptr : Type) where
  | idle
  | sending (msgP : Option Ptr) (msgLen : BitVec 64) (msgPriority : Int)
  | putting (msgP : Option Ptr) (msgLen : BitVec 64) (msgPriority : Int)
  | waking (ret : Int)
  | unlocking (ret : QueueReturn Ptr)
  | flagged
  | waiting (wait : Wait Int) (out : Queued Ptr)
  | checking (out : Queued Ptr)
  | locking (out : Queued Ptr)
  | taking (out : Queued Ptr)

namespace TaskPhase

def holdsLock : TaskPhase Ptr → Bool
  | putting .. | waking .. | unlocking .. | taking .. => true
  | _ => false

/-- The task has made a condition true and calls `wake_up_interruptible` next. -/
def isWaking : TaskPhase Ptr → Bool
  | waking .. | flagged => true
  | _ => false

def wait : TaskPhase Ptr → Wait Int
  | waiting wait _ => wait
  | _ => .done

def afterWait (wait : Wait Int) (out : Queued Ptr) : TaskPhase Ptr :=
  match wait with
  | .done => checking out
  | wait => waiting wait out

def wakeUp : TaskPhase Ptr → TaskPhase Ptr
  | waiting wait out => waiting wait.wake out
  | phase => phase

end TaskPhase

/-- What the two `wait_event` calls of `trfsMqRecv` wait for. -/
def TrfsMqInfo.waitCondition (node : TrfsMqInfo Ptr) (timeOut : Int) : Bool :=
  if timeOut > 0 then node.attr.counter ≠ 0
  else node.attr.exitFlag = 1 ∨ node.attr.counter ≠ 0

/-- One queue, the owner of `q_lock`, and the calls under way. -/
structure QueueTasks (Ptr : Type) where
  node : TrfsMqInfo Ptr
  lock : Option Nat
  phase : Nat → TaskPhase Ptr
  returned : List (Nat × QueueReturn Ptr)

inductive QueueAction (Ptr : Type) where
  | send (task : Nat) (msgP : Option Ptr) (msgLen : BitVec 64) (msgPriority : Int)
  | receive (task : Nat) (timeOut : Int) (out : Queued Ptr)
  | setExitFlag (task : Nat)
  | clearExitFlag
  | interrupt (task : Nat)
  | turn (task : Nat)

namespace QueueTasks

def start (node : TrfsMqInfo Ptr) : QueueTasks Ptr := ⟨node, none, fun _ => .idle, []⟩

def place (state : QueueTasks Ptr) (task : Nat) (phase : TaskPhase Ptr) : QueueTasks Ptr :=
  { state with phase := Function.update state.phase task phase }

def finish (state : QueueTasks Ptr) (task : Nat) (ret : QueueReturn Ptr) : QueueTasks Ptr :=
  { state.place task .idle with returned := state.returned ++ [(task, ret)] }

/-- `mutex_lock`: the task goes on in `phase` once nobody else holds the lock. -/
def acquire (state : QueueTasks Ptr) (task : Nat) (phase : TaskPhase Ptr) : QueueTasks Ptr :=
  if state.lock = none then { state.place task phase with lock := some task } else state

/-- `wake_up_interruptible`; no waiter of this queue is exclusive. -/
def wakeUp (state : QueueTasks Ptr) : QueueTasks Ptr :=
  { state with phase := fun task => (state.phase task).wakeUp }

def storeExitFlag (state : QueueTasks Ptr) (flag : UInt8) : QueueTasks Ptr :=
  { state with node := { state.node with attr := { state.node.attr with exitFlag := flag } } }

/-- The next step of a task.  Past its wait a receiver reads the exit flag and then the counter,
both without the lock; the two reads are one step here. -/
def turn (state : QueueTasks Ptr) (task : Nat) : QueueTasks Ptr :=
  match state.phase task with
  | .idle => state
  | .sending msgP msgLen msgPriority => state.acquire task (.putting msgP msgLen msgPriority)
  | .putting msgP msgLen msgPriority =>
      let put := trfsMqPutMsg state.node msgP (toInt64 msgLen.toNat) msgPriority
      let ret := if put.1 = -1 then -1 else toInt32 msgLen.toNat
      -- a full queue returns before the wake-up
      { state with node := put.2 }.place task
        (if put.1 = 0 ∧ put.2.attr.counter ≥ 1 then .waking ret else .unlocking (.sent ret))
  | .waking ret => state.wakeUp.place task (.unlocking (.sent ret))
  | .unlocking ret => { state with lock := none }.finish task ret
  | .flagged => state.wakeUp.place task .idle
  | .waiting wait out =>
      state.place task (.afterWait (wait.advance state.node.waitCondition) out)
  | .checking out =>
      match trfsMqRecvTest state.node with
      | some ret => state.finish task (.gaveUp ret)
      | none => state.place task (.locking out)
  | .locking out => state.acquire task (.taking out)
  | .taking out =>
      let take := trfsMqRecvTake state.node out
      { state with node := take.2.2 }.place task (.unlocking (.received take.1 take.2.1))

/-- A call starts only in an idle task.  A signal, or the end of a wait with a time limit, reaches
a task in its wait; what the wait returned is not looked at. -/
def step (state : QueueTasks Ptr) : QueueAction Ptr → QueueTasks Ptr
  | .send task msgP msgLen msgPriority =>
      match state.phase task with
      | .idle =>
          if msgP = none ∨ msgLen.toNat ≤ 0 then state.finish task (.sent (-1))
          else state.place task (.sending msgP msgLen msgPriority)
      | _ => state
  | .receive task timeOut out =>
      match state.phase task with
      | .idle =>
          if timeOut > 0 ∨ timeOut = -1 then state.place task (.waiting (.testing timeOut) out)
          else state.place task (.checking out)
      | _ => state
  | .setExitFlag task =>
      match state.phase task with
      | .idle => (state.storeExitFlag 1).place task .flagged
      | _ => state
  | .clearExitFlag => state.storeExitFlag 0
  | .interrupt task =>
      match state.phase task with
      | .waiting wait out => state.place task (.afterWait wait.interrupt out)
      | _ => state
  | .turn task => state.turn task

def WakePending (state : QueueTasks Ptr) : Prop :=
  ∃ waker, (state.phase waker).isWaking = true

/-- The lock is held exactly by the task between its `mutex_lock` and `mutex_unlock`, and no
receiver sleeps on a condition that holds unless a wake-up is on its way. -/
structure Sound (state : QueueTasks Ptr) : Prop where
  counter : 0 ≤ state.node.attr.counter
  owner : ∀ task, (state.phase task).holdsLock = true ↔ state.lock = some task
  covered : ∀ task,
    (state.phase task).wait.Covered state.node.waitCondition state.WakePending

end QueueTasks

theorem TaskPhase.wait_wakeUp (phase : TaskPhase Ptr) : phase.wakeUp.wait = phase.wait.wake := by
  cases phase <;> rfl

theorem TaskPhase.wait_afterWait (wait : Wait Int) (out : Queued Ptr) :
    (afterWait wait out).wait = wait := by
  cases wait <;> rfl

@[simp] theorem TaskPhase.holdsLock_wakeUp (phase : TaskPhase Ptr) :
    phase.wakeUp.holdsLock = phase.holdsLock := by
  cases phase <;> rfl

@[simp] theorem TaskPhase.holdsLock_afterWait (wait : Wait Int) (out : Queued Ptr) :
    (afterWait wait out).holdsLock = false := by
  cases wait <;> rfl

theorem TrfsMqInfo.waitCondition_eq_true {node : TrfsMqInfo Ptr} {timeOut : Int} :
    node.waitCondition timeOut = true ↔
      (timeOut ≤ 0 ∧ node.attr.exitFlag = 1) ∨ node.attr.counter ≠ 0 := by
  unfold waitCondition
  split
  · rename_i limited
    simp [not_le.mpr limited]
  · rename_i unlimited
    simp [not_lt.mp unlimited]

/-- A put stores a message and counts it, or leaves a full queue as it is. -/
theorem trfsMqPutMsg_counter {node : TrfsMqInfo Ptr} (counted : 0 ≤ node.attr.counter)
    (msgP : Option Ptr) (msgLen priority : Int) :
    ((trfsMqPutMsg node msgP msgLen priority).1 = 0 ∧
        1 ≤ (trfsMqPutMsg node msgP msgLen priority).2.attr.counter) ∨
      trfsMqPutMsg node msgP msgLen priority = (trfsErrMqFull, node) := by
  unfold trfsMqPutMsg
  split
  · exact .inr rfl
  · exact .inl ⟨rfl, show 1 ≤ node.attr.counter + 1 by omega⟩

/-- A get makes no condition true. -/
theorem trfsMqRecvTake_counter {node : TrfsMqInfo Ptr} (counted : 0 ≤ node.attr.counter)
    (out : Queued Ptr) :
    0 ≤ (trfsMqRecvTake node out).2.2.attr.counter ∧
      ∀ timeOut, (trfsMqRecvTake node out).2.2.waitCondition timeOut = true →
        node.waitCondition timeOut = true := by
  rw [trfsMqRecvTake_eq]
  unfold trfsMqGetMsg
  split
  · exact ⟨counted, fun _ => id⟩
  · rename_i nonempty
    refine ⟨show 0 ≤ node.attr.counter - 1 by omega, fun timeOut _ => ?_⟩
    exact TrfsMqInfo.waitCondition_eq_true.mpr (.inr nonempty)

namespace QueueTasks

@[simp] theorem phase_place_self (state : QueueTasks Ptr) (task : Nat) (phase : TaskPhase Ptr) :
    (state.place task phase).phase task = phase :=
  Function.update_self ..

@[simp] theorem lock_place (state : QueueTasks Ptr) (task : Nat) (phase : TaskPhase Ptr) :
    (state.place task phase).lock = state.lock := rfl

@[simp] theorem lock_finish (state : QueueTasks Ptr) (task : Nat) (ret : QueueReturn Ptr) :
    (state.finish task ret).lock = state.lock := rfl

@[simp] theorem phase_finish (state : QueueTasks Ptr) (task : Nat) (ret : QueueReturn Ptr) :
    (state.finish task ret).phase = (state.place task .idle).phase := rfl

theorem phase_place_of_ne (state : QueueTasks Ptr) {task other : Nat} (different : other ≠ task)
    (phase : TaskPhase Ptr) : (state.place task phase).phase other = state.phase other :=
  Function.update_of_ne different ..

namespace Sound

variable {state after : QueueTasks Ptr}

theorem start {node : TrfsMqInfo Ptr} (counted : 0 ≤ node.attr.counter) :
    (QueueTasks.start node).Sound := by
  refine ⟨counted, fun task => ?_, fun task condition sleeps => ?_⟩
  · simp [QueueTasks.start, TaskPhase.holdsLock]
  · cases sleeps

/-- One task moves on.  It may store to the queue, but what makes a condition true is followed by
a wake-up of the same task, and no task gives a wake-up up. -/
theorem move (sound : state.Sound) (task : Nat)
    (counter : 0 ≤ after.node.attr.counter)
    (others : ∀ other, other ≠ task → after.phase other = state.phase other)
    (locked : (after.phase task).holdsLock = true ↔ after.lock = some task)
    (sameOwner : ∀ other, other ≠ task → (after.lock = some other ↔ state.lock = some other))
    (stored : (after.phase task).isWaking = true ∨ ∀ timeOut,
      after.node.waitCondition timeOut = true → state.node.waitCondition timeOut = true)
    (kept : (state.phase task).isWaking = true → (after.phase task).isWaking = true)
    (own : (after.phase task).wait.Covered after.node.waitCondition state.WakePending) :
    after.Sound := by
  have stillPending : state.WakePending → after.WakePending := by
    rintro ⟨waker, wakes⟩
    by_cases same : waker = task
    · exact ⟨task, kept (same ▸ wakes)⟩
    · exact ⟨waker, by rw [others waker same]; exact wakes⟩
  refine ⟨counter, fun other => ?_, fun other => ?_⟩
  · by_cases same : other = task
    · exact same ▸ locked
    · rw [others other same, sameOwner other same]
      exact sound.owner other
  · by_cases same : other = task
    · exact same ▸ own.store (fun _ => id) stillPending
    · rw [others other same]
      rcases stored with wakes | unchanged
      · exact fun _ _ _ => ⟨task, wakes⟩
      · exact (sound.covered other).store unchanged stillPending

/-- A task moves on and touches neither the queue nor the lock. -/
theorem place (sound : state.Sound) (task : Nat) {phase : TaskPhase Ptr}
    (locked : phase.holdsLock = (state.phase task).holdsLock)
    (kept : (state.phase task).isWaking = true → phase.isWaking = true)
    (own : phase.wait.Covered state.node.waitCondition state.WakePending) :
    (state.place task phase).Sound := by
  refine sound.move task sound.counter (fun _ different => phase_place_of_ne _ different _)
    ?_ (fun _ _ => Iff.rfl) (.inr fun _ => id) ?_ ?_
  · rw [phase_place_self, locked]
    exact sound.owner task
  · rw [phase_place_self]
    exact kept
  · rw [phase_place_self]
    exact own

theorem returned (sound : state.Sound) (returned : List (Nat × QueueReturn Ptr)) :
    { state with returned := returned }.Sound :=
  ⟨sound.counter, sound.owner, sound.covered⟩

theorem acquire (sound : state.Sound) (task : Nat) {phase : TaskPhase Ptr}
    (locked : phase.holdsLock = true) (awake : phase.wait = .done)
    (silent : (state.phase task).isWaking = false) : (state.acquire task phase).Sound := by
  unfold QueueTasks.acquire
  split
  · rename_i unlocked
    refine sound.move task sound.counter (fun _ different => phase_place_of_ne _ different _)
      ?_ ?_ (.inr fun _ => id) ?_ ?_
    · simp [locked]
    · intro other different
      simp [unlocked, different.symm]
    · simp [silent]
    · rw [phase_place_self, awake]
      exact fun _ sleeps => by cases sleeps
  · exact sound

/-- The wake-up reaches every sleeper, so nothing is left for it to cover. -/
theorem wakeUp (sound : state.Sound) (task : Nat) {phase : TaskPhase Ptr}
    (locked : phase.holdsLock = (state.phase task).holdsLock) (awake : phase.wait = .done) :
    (state.wakeUp.place task phase).Sound := by
  refine ⟨sound.counter, fun other => ?_, fun other => ?_⟩
  · by_cases same : other = task
    · rw [same, phase_place_self, locked]
      exact sound.owner task
    · rw [phase_place_of_ne _ same]
      show (state.phase other).wakeUp.holdsLock = true ↔ _
      rw [TaskPhase.holdsLock_wakeUp]
      exact sound.owner other
  · by_cases same : other = task
    · rw [same, phase_place_self, awake]
      exact fun _ sleeps => by cases sleeps
    · rw [phase_place_of_ne _ same]
      show (state.phase other).wakeUp.wait.Covered _ _
      rw [TaskPhase.wait_wakeUp]
      exact Wait.covered_wake _ _ _

theorem putting (sound : state.Sound) {task : Nat} {msgP : Option Ptr} {msgLen : BitVec 64}
    {msgPriority : Int} (puts : state.phase task = .putting msgP msgLen msgPriority) :
    (state.turn task).Sound := by
  have owner : state.lock = some task := (sound.owner task).mp (by rw [puts]; rfl)
  simp only [turn, puts]
  rcases trfsMqPutMsg_counter sound.counter msgP (toInt64 msgLen.toNat) msgPriority with
    ⟨stored, counted⟩ | full
  · rw [if_pos ⟨stored, counted⟩]
    refine sound.move task (by show 0 ≤ (trfsMqPutMsg ..).2.attr.counter; omega)
      (fun _ different => phase_place_of_ne _ different _) ?_ (fun _ _ => Iff.rfl) (.inl ?_) ?_ ?_
    · simpa [TaskPhase.holdsLock] using owner
    · simp [TaskPhase.isWaking]
    · simp [puts, TaskPhase.isWaking]
    · simp only [phase_place_self]
      exact fun _ sleeps => by cases sleeps
  · rw [full, if_neg (by rintro ⟨stored, -⟩; cases stored)]
    apply sound.place task
    · rw [puts]
      rfl
    · simp [puts, TaskPhase.isWaking]
    · exact fun _ sleeps => by cases sleeps

theorem taking (sound : state.Sound) {task : Nat} {out : Queued Ptr}
    (takes : state.phase task = .taking out) : (state.turn task).Sound := by
  have owner : state.lock = some task := (sound.owner task).mp (by rw [takes]; rfl)
  obtain ⟨counted, makesNothingTrue⟩ := trfsMqRecvTake_counter sound.counter out
  simp only [turn, takes]
  refine sound.move task counted (fun _ different => phase_place_of_ne _ different _) ?_
    (fun _ _ => Iff.rfl) (.inr makesNothingTrue) ?_ ?_
  · simpa [TaskPhase.holdsLock] using owner
  · simp [takes, TaskPhase.isWaking]
  · simp only [phase_place_self]
    exact fun _ sleeps => by cases sleeps

theorem unlocking (sound : state.Sound) {task : Nat} {ret : QueueReturn Ptr}
    (unlocks : state.phase task = .unlocking ret) : (state.turn task).Sound := by
  have owner : state.lock = some task := (sound.owner task).mp (by rw [unlocks]; rfl)
  simp only [turn, unlocks]
  refine sound.move task sound.counter (fun _ different => phase_place_of_ne _ different _) ?_ ?_
    (.inr fun _ => id) ?_ ?_
  · simp [TaskPhase.holdsLock]
  · intro other different
    simp [owner, different.symm]
  · simp [unlocks, TaskPhase.isWaking]
  · simp [TaskPhase.wait, Wait.Covered]

theorem turn (sound : state.Sound) (task : Nat) : (state.turn task).Sound := by
  cases now : state.phase task with
  | putting => exact sound.putting now
  | taking => exact sound.taking now
  | unlocking => exact sound.unlocking now
  | idle =>
      simp only [QueueTasks.turn, now]
      exact sound
  | sending =>
      simp only [QueueTasks.turn, now]
      exact sound.acquire task rfl rfl (by rw [now]; rfl)
  | locking =>
      simp only [QueueTasks.turn, now]
      exact sound.acquire task rfl rfl (by rw [now]; rfl)
  | waking =>
      simp only [QueueTasks.turn, now]
      exact sound.wakeUp task (by rw [now]; rfl) rfl
  | flagged =>
      simp only [QueueTasks.turn, now]
      exact sound.wakeUp task (by rw [now]; rfl) rfl
  | waiting wait out =>
      have covered := sound.covered task
      rw [now] at covered
      simp only [QueueTasks.turn, now]
      apply sound.place task
      · rw [now, TaskPhase.holdsLock_afterWait]
        rfl
      · simp [now, TaskPhase.isWaking]
      · rw [TaskPhase.wait_afterWait]
        exact covered.advance
  | checking out =>
      simp only [QueueTasks.turn, now]
      split
      · exact (sound.place task (by rw [now]; rfl) (by simp [now, TaskPhase.isWaking])
          (fun _ sleeps => by cases sleeps)).returned _
      · exact sound.place task (by rw [now]; rfl) (by simp [now, TaskPhase.isWaking])
          (fun _ sleeps => by cases sleeps)

theorem setExitFlag (sound : state.Sound) {task : Nat} (idle : state.phase task = .idle) :
    ((state.storeExitFlag 1).place task .flagged).Sound := by
  have unlocked := (sound.owner task).not.mp (by rw [idle]; simp [TaskPhase.holdsLock])
  refine sound.move task sound.counter (fun _ different => phase_place_of_ne _ different _) ?_
    (fun _ _ => Iff.rfl) (.inl ?_) ?_ ?_
  · rw [phase_place_self]
    exact iff_of_false (by simp [TaskPhase.holdsLock]) unlocked
  · simp [TaskPhase.isWaking]
  · simp [idle, TaskPhase.isWaking]
  · simp only [phase_place_self]
    exact fun _ sleeps => by cases sleeps

theorem clearExitFlag (sound : state.Sound) : (state.storeExitFlag 0).Sound := by
  refine ⟨sound.counter, sound.owner, fun task => ?_⟩
  refine (sound.covered task).store (fun timeOut held => ?_) id
  rcases TrfsMqInfo.waitCondition_eq_true.mp held with ⟨-, raised⟩ | nonempty
  · exact absurd (show (0 : UInt8) = 1 from raised) (by decide)
  · exact TrfsMqInfo.waitCondition_eq_true.mpr (.inr nonempty)

theorem step (sound : state.Sound) (action : QueueAction Ptr) : (state.step action).Sound := by
  cases action with
  | turn task => exact sound.turn task
  | clearExitFlag => exact sound.clearExitFlag
  | setExitFlag task =>
      simp only [QueueTasks.step]
      split
      · rename_i idle
        exact sound.setExitFlag idle
      · exact sound
  | interrupt task =>
      simp only [QueueTasks.step]
      split
      · rename_i wait out now
        refine sound.place task ?_ ?_ ?_
        · rw [now, TaskPhase.holdsLock_afterWait]
          rfl
        · simp [now, TaskPhase.isWaking]
        · rw [TaskPhase.wait_afterWait]
          exact Wait.Covered.interrupt
      · exact sound
  | send task msgP msgLen msgPriority =>
      simp only [QueueTasks.step]
      split
      · rename_i idle
        split
        · exact (sound.place task (by rw [idle]) (by simp [idle])
            (fun _ sleeps => by cases sleeps)).returned _
        · exact sound.place task (by rw [idle]; rfl) (by simp [idle, TaskPhase.isWaking])
            (fun _ sleeps => by cases sleeps)
      · exact sound
  | receive task timeOut out =>
      simp only [QueueTasks.step]
      split
      · rename_i idle
        split
        · exact sound.place task (by rw [idle]; rfl) (by simp [idle, TaskPhase.isWaking])
            (fun _ sleeps => by cases sleeps)
        · exact sound.place task (by rw [idle]; rfl) (by simp [idle, TaskPhase.isWaking])
            (fun _ sleeps => by cases sleeps)
      · exact sound

/-- A task whose next step leaves it where it is waits for the lock, sleeps, or has nothing to
do. -/
theorem waits_of_blocked {task : Nat} (blocked : (state.turn task).phase task = state.phase task) :
    state.phase task = .idle ∨ state.lock ≠ none ∨
      ∃ timeOut out, state.phase task = .waiting (.asleep timeOut) out := by
  by_contra moves
  simp only [not_or, not_not, not_exists] at moves
  obtain ⟨busy, unlocked, awake⟩ := moves
  revert blocked
  cases now : state.phase task with
  | idle => exact absurd now busy
  | waiting wait out =>
      simp only [QueueTasks.turn, now, phase_place_self]
      intro blocked
      have same := congrArg TaskPhase.wait blocked
      rw [TaskPhase.wait_afterWait] at same
      rcases Wait.advance_eq_self_iff.mp same with rfl | ⟨timeOut, rfl⟩
      · cases blocked
      · exact awake timeOut out now
  | checking out =>
      simp only [QueueTasks.turn, now]
      split <;> simp
  | putting =>
      simp only [QueueTasks.turn, now, phase_place_self]
      split <;> simp
  | _ => simp [QueueTasks.turn, now, QueueTasks.acquire, unlocked]

/-- Whoever holds the lock can go on. -/
theorem owner_moves (sound : state.Sound) {owner : Nat} (held : state.lock = some owner) :
    (state.turn owner).phase owner ≠ state.phase owner := by
  have inside := (sound.owner owner).mpr held
  revert inside
  cases now : state.phase owner with
  | putting =>
      simp only [QueueTasks.turn, now, phase_place_self]
      split <;> simp
  | waking | unlocking | taking => simp [QueueTasks.turn, now]
  | _ => simp [TaskPhase.holdsLock]

theorem waker_moves {waker : Nat} (wakes : (state.phase waker).isWaking = true) :
    (state.turn waker).phase waker ≠ state.phase waker := by
  revert wakes
  cases now : state.phase waker with
  | waking | flagged => simp [QueueTasks.turn, now]
  | _ => simp [TaskPhase.isWaking]

/-- The step of a task about to wake the queue reaches every sleeper. -/
theorem turn_waker {waker task : Nat} (wakes : (state.phase waker).isWaking = true)
    {timeOut : Int} {out : Queued Ptr}
    (sleeps : state.phase task = .waiting (.asleep timeOut) out) :
    (state.turn waker).phase task = .waiting (.joining timeOut) out := by
  have different : task ≠ waker := by
    rintro rfl
    rw [sleeps] at wakes
    cases wakes
  revert wakes
  cases now : state.phase waker with
  | waking | flagged =>
      simp only [QueueTasks.turn, now, phase_place_of_ne _ different]
      simp [QueueTasks.wakeUp, sleeps, TaskPhase.wakeUp, Wait.wake]
  | _ => simp [TaskPhase.isWaking]

/-- When no task can go on, every call under way sleeps on a condition that is false. -/
theorem quiet (sound : state.Sound)
    (stuck : ∀ task, (state.turn task).phase task = state.phase task) (task : Nat) :
    state.phase task = .idle ∨ ∃ timeOut out,
      state.phase task = .waiting (.asleep timeOut) out ∧
        state.node.waitCondition timeOut = false := by
  rcases waits_of_blocked (stuck task) with idle | locked | ⟨timeOut, out, sleeps⟩
  · exact .inl idle
  · obtain ⟨owner, held⟩ := Option.ne_none_iff_exists'.mp locked
    exact absurd (stuck owner) (sound.owner_moves held)
  · refine .inr ⟨timeOut, out, sleeps, ?_⟩
    by_contra held
    obtain ⟨waker, wakes⟩ := sound.covered task timeOut (by rw [sleeps]; rfl)
      (Bool.not_eq_false _ ▸ held)
    exact waker_moves wakes (stuck waker)

end Sound

/-- The queue of a table used in any way before, and a run of calls on it. -/
def after (earlier : List (MqAction Ptr)) (index : Nat) (actions : List (QueueAction Ptr)) :
    QueueTasks Ptr :=
  run step (start ((MqTable.after earlier).nodes index)) actions

theorem sound_after (earlier : List (MqAction Ptr)) (index : Nat)
    (actions : List (QueueAction Ptr)) : (after earlier index actions).Sound :=
  run_invariant Sound (fun _ action sound => sound.step action)
    (Sound.start ((MqTable.rings_after earlier).counter_nonneg index)) actions

end QueueTasks

/-- No wake-up is lost: at any point of any interleaving of senders, receivers, signals and
changes of the exit flag, a receiver that sleeps although what it waits for is there is woken by
the next step of some task already on its way to `wake_up_interruptible`. -/
theorem sleeping_receiver_is_woken (earlier : List (MqAction Ptr)) (index : Nat)
    (actions : List (QueueAction Ptr)) {task : Nat} {timeOut : Int} {out : Queued Ptr}
    (sleeps : (QueueTasks.after earlier index actions).phase task =
      .waiting (.asleep timeOut) out)
    (holds : (QueueTasks.after earlier index actions).node.waitCondition timeOut = true) :
    ∃ waker, ((QueueTasks.after earlier index actions).turn waker).phase task =
      .waiting (.joining timeOut) out := by
  have sound := QueueTasks.sound_after earlier index actions
  obtain ⟨waker, wakes⟩ := sound.covered task timeOut (by rw [sleeps]; rfl) holds
  exact ⟨waker, QueueTasks.Sound.turn_waker wakes sleeps⟩

/-- One receiver of a queue opened for four messages falls asleep, and a sender has stored its
message but not yet woken the queue. -/
def storedWhileAsleep : List (QueueAction Nat) :=
  [.receive 1 (-1) (none, 0), .turn 1, .turn 1, .turn 1, .send 2 (some 7) 24 0, .turn 2, .turn 2]

theorem sleeping_receiver_is_woken_storedWhileAsleep :
    ∃ waker, ((QueueTasks.after [.openQueue (some ⟨1, 4, 100, 0, 0⟩) true] 0
      storedWhileAsleep).turn waker).phase 1 = .waiting (.joining (-1)) (none, 0) :=
  sleeping_receiver_is_woken _ 0 storedWhileAsleep rfl (by decide)

section Completion

variable {state : QueueTasks Ptr}

namespace TaskPhase

/-- Wake-ups that the task has yet to make. -/
def wakes : TaskPhase Ptr → Nat
  | sending .. | putting .. | waking .. | flagged => 1
  | _ => 0

def rank : TaskPhase Ptr → Nat
  | idle => 0
  | unlocking .. | flagged => 1
  | waking .. | taking .. => 2
  | putting .. | locking .. => 3
  | sending .. | checking .. => 4
  | waiting wait _ => 5 + wait.rank

/-- Steps that the task can still take.  A wake-up gives at most two more to each of the `count`
tasks. -/
def potential (count : Nat) (phase : TaskPhase Ptr) : Nat :=
  2 * count * phase.wakes + phase.rank

theorem potential_wakeUp_le (count : Nat) (phase : TaskPhase Ptr) :
    phase.wakeUp.potential count ≤ phase.potential count + 2 := by
  cases phase with
  | waiting wait out =>
      have woken := wait.rank_wake_le
      simp only [wakeUp, potential, wakes, rank]
      omega
  | _ => exact Nat.le_add_right _ 2

theorem rank_afterWait_lt {wait next : Wait Int} (out : Queued Ptr)
    (lower : next ≠ wait → next.rank < wait.rank)
    (moves : afterWait next out ≠ waiting wait out) :
    (afterWait next out).rank < (waiting wait out).rank ∧ (afterWait next out).wakes = 0 := by
  cases next with
  | done => exact ⟨by simp only [afterWait, rank]; omega, rfl⟩
  | _ =>
      have before := lower fun same => moves (by rw [← same]; rfl)
      exact ⟨Nat.add_lt_add_left before 5, rfl⟩

end TaskPhase

namespace QueueTasks

/-- All other tasks are idle. -/
def Confined (tasks : Finset Nat) (state : QueueTasks Ptr) : Prop :=
  ∀ task ∉ tasks, state.phase task = .idle

def measure (tasks : Finset Nat) (state : QueueTasks Ptr) : Nat :=
  ∑ task ∈ tasks, (state.phase task).potential tasks.card

def Moves (state : QueueTasks Ptr) (task : Nat) : Prop :=
  (state.turn task).phase task ≠ state.phase task

theorem turn_others (state : QueueTasks Ptr) {task other : Nat} (different : other ≠ task) :
    (state.turn task).phase other = state.phase other ∨
      (state.turn task).phase other = (state.phase other).wakeUp := by
  cases now : state.phase task with
  | waking | flagged =>
      simp only [turn, now, phase_place_of_ne _ different]
      exact .inr rfl
  | sending | locking =>
      simp only [turn, now, acquire]
      split
      · exact .inl (phase_place_of_ne _ different _)
      · exact .inl rfl
  | checking =>
      simp only [turn, now]
      split <;> exact .inl (phase_place_of_ne _ different _)
  | idle => exact .inl (by simp only [turn, now])
  | _ =>
      simp only [turn, now]
      exact .inl (phase_place_of_ne _ different _)

/-- A step lowers the potential of its task and leaves the others alone, or it is a wake-up. -/
theorem turn_cases (count : Nat) {task : Nat} (moves : state.Moves task) :
    ((∀ other, other ≠ task → (state.turn task).phase other = state.phase other) ∧
        ((state.turn task).phase task).potential count <
          (state.phase task).potential count) ∨
      ((∀ other, other ≠ task →
          (state.turn task).phase other = (state.phase other).wakeUp) ∧
        ((state.turn task).phase task).potential count + 2 * count <
          (state.phase task).potential count) := by
  revert moves
  simp only [Moves]
  cases now : state.phase task with
  | idle =>
      intro moves
      exact absurd (by simp only [turn, now]) moves
  | waking | flagged =>
      intro _
      refine .inr ⟨fun other different => ?_, ?_⟩
      · simp only [turn, now, phase_place_of_ne _ different]
        rfl
      · simp only [turn, now, phase_place_self, TaskPhase.potential, TaskPhase.wakes,
          TaskPhase.rank]
        omega
  | sending | locking =>
      intro moves
      refine .inl ?_
      simp only [turn, now, acquire] at moves ⊢
      split at moves
      · rename_i unlocked
        simp only [if_pos unlocked]
        refine ⟨fun other different => phase_place_of_ne _ different _, ?_⟩
        rw [phase_place_self]
        exact Nat.add_lt_add_left (Nat.lt_succ_self _) _
      · exact absurd now moves
  | putting =>
      intro _
      simp only [turn, now, phase_place_self]
      refine .inl ⟨fun other different => phase_place_of_ne _ different _, ?_⟩
      split <;> simp [TaskPhase.potential, TaskPhase.wakes, TaskPhase.rank]
  | unlocking | taking =>
      intro _
      simp only [turn, now, phase_place_self, phase_finish]
      refine .inl ⟨fun other different => phase_place_of_ne _ different _, ?_⟩
      simp [TaskPhase.potential, TaskPhase.wakes, TaskPhase.rank]
  | checking =>
      intro _
      simp only [turn, now]
      split
      · refine .inl ⟨fun other different => phase_place_of_ne _ different _, ?_⟩
        simp [TaskPhase.potential, TaskPhase.wakes, TaskPhase.rank]
      · refine .inl ⟨fun other different => phase_place_of_ne _ different _, ?_⟩
        simp [TaskPhase.potential, TaskPhase.wakes, TaskPhase.rank]
  | waiting wait out =>
      simp only [turn, now, phase_place_self]
      intro moves
      obtain ⟨lower, silent⟩ := TaskPhase.rank_afterWait_lt out Wait.rank_advance moves
      refine .inl ⟨fun other different => phase_place_of_ne _ different _, ?_⟩
      rw [TaskPhase.potential, silent]
      exact Nat.add_lt_add_left lower _

theorem mem_of_moves {tasks : Finset Nat} (confined : state.Confined tasks) {task : Nat}
    (moves : state.Moves task) : task ∈ tasks := by
  by_contra outside
  exact moves (by simp only [turn, confined task outside])

/-- No step makes an idle task busy except a call of its own. -/
theorem Confined.turn {tasks : Finset Nat} (confined : state.Confined tasks) (task : Nat) :
    (state.turn task).Confined tasks := by
  intro other outside
  have idle := confined other outside
  by_cases same : other = task
  · subst same
    simp only [QueueTasks.turn, idle]
  · rcases turn_others state same with unchanged | woken
    · rw [unchanged, idle]
    · rw [woken, idle]
      rfl

theorem Confined.place {tasks : Finset Nat} {before : QueueTasks Ptr}
    (confined : before.Confined tasks) (same : state.phase = before.phase) (task : Nat)
    (phase : TaskPhase Ptr) : (state.place task phase).Confined (insert task tasks) := by
  intro other outside
  rw [Finset.mem_insert, not_or] at outside
  rw [phase_place_of_ne _ outside.1, same]
  exact confined other outside.2

theorem Confined.step {tasks : Finset Nat} (confined : state.Confined tasks)
    (action : QueueAction Ptr) : ∃ tasks, (state.step action).Confined tasks := by
  cases action with
  | turn task => exact ⟨tasks, confined.turn task⟩
  | clearExitFlag => exact ⟨tasks, confined⟩
  | setExitFlag task =>
      simp only [QueueTasks.step]
      split
      · exact ⟨_, confined.place rfl task _⟩
      · exact ⟨tasks, confined⟩
  | interrupt task =>
      simp only [QueueTasks.step]
      split
      · exact ⟨_, confined.place rfl task _⟩
      · exact ⟨tasks, confined⟩
  | send task | receive task =>
      simp only [QueueTasks.step]
      split
      · split
        · exact ⟨_, confined.place rfl task _⟩
        · exact ⟨_, confined.place rfl task _⟩
      · exact ⟨tasks, confined⟩

theorem measure_turn_lt {tasks : Finset Nat} (confined : state.Confined tasks) {task : Nat}
    (moves : state.Moves task) : (state.turn task).measure tasks < state.measure tasks := by
  have inside := mem_of_moves confined moves
  simp only [measure]
  rw [← Finset.add_sum_erase _ _ inside, ← Finset.add_sum_erase _ _ inside]
  have others : ∀ other ∈ tasks.erase task, other ≠ task := fun _ => Finset.ne_of_mem_erase
  rcases turn_cases tasks.card moves with ⟨same, lower⟩ | ⟨woken, lower⟩
  · rw [Finset.sum_congr rfl fun other member => by rw [same other (others other member)]]
    exact Nat.add_lt_add_right lower _
  · have more : ∑ other ∈ tasks.erase task,
          ((state.turn task).phase other).potential tasks.card ≤
        ∑ other ∈ tasks.erase task, ((state.phase other).potential tasks.card + 2) :=
      Finset.sum_le_sum fun other member => by
        rw [woken other (others other member)]
        exact TaskPhase.potential_wakeUp_le _ _
    have fewer : (tasks.erase task).card ≤ tasks.card := Finset.card_erase_le
    rw [Finset.sum_add_distrib, Finset.sum_const, Nat.nsmul_eq_mul] at more
    omega

/-- A call names its task, so finitely many tasks are ever busy. -/
theorem exists_confined (earlier : List (MqAction Ptr)) (index : Nat)
    (actions : List (QueueAction Ptr)) :
    ∃ tasks, (after earlier index actions).Confined tasks := by
  refine run_invariant (fun state : QueueTasks Ptr => ∃ tasks, state.Confined tasks) ?_
    ⟨∅, fun _ _ => rfl⟩ actions
  rintro state action ⟨tasks, confined⟩
  exact confined.step action

end QueueTasks

/-- Every call on the queue completes or waits for what is not there.  From any point of any
interleaving, without new calls, only boundedly many steps move a task, in whatever order the
tasks are scheduled; and when none can move, each one is idle or sleeps on a condition that is
false. -/
theorem queue_calls_complete (earlier : List (MqAction Ptr)) (index : Nat)
    (actions : List (QueueAction Ptr)) :
    ∃ bound, ∀ schedule : List Nat,
      Along QueueTasks.turn QueueTasks.Moves (QueueTasks.after earlier index actions) schedule →
        schedule.length ≤ bound ∧
          ((∀ task, ¬ (run QueueTasks.turn (QueueTasks.after earlier index actions)
              schedule).Moves task) →
            ∀ task, (run QueueTasks.turn (QueueTasks.after earlier index actions)
                schedule).phase task = .idle ∨
              ∃ timeOut out, (run QueueTasks.turn (QueueTasks.after earlier index actions)
                  schedule).phase task = .waiting (.asleep timeOut) out ∧
                (run QueueTasks.turn (QueueTasks.after earlier index actions)
                  schedule).node.waitCondition timeOut = false) := by
  obtain ⟨tasks, confined⟩ := QueueTasks.exists_confined earlier index actions
  refine ⟨(QueueTasks.after earlier index actions).measure tasks, fun schedule moved => ⟨?_, ?_⟩⟩
  · exact length_le_of_along (QueueTasks.Confined tasks) (QueueTasks.measure tasks)
      (fun _ task confined _ => confined.turn task)
      (fun _ _ confined moves => QueueTasks.measure_turn_lt confined moves) confined moved
  · intro stuck
    have sound := run_invariant QueueTasks.Sound (fun _ task sound => sound.turn task)
      (QueueTasks.sound_after earlier index actions) schedule
    exact sound.quiet fun task => not_not.mp (stuck task)

end Completion

end Tracefs
