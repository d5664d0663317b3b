import Tracefs.MsgQueue.Waiting

/-!
# One receiver

The log thread is the only receiver of its queue and treats every answer without a message as the
end of its work.  As long as no signal reaches it, its wait has no time limit or ends before it, and
nobody takes the exit flag back, a receive that waits comes back empty-handed only because of the
exit flag, and otherwise with a message.
-/

namespace Tracefs

open Bytes Transition WaitQueue

variable {Ptr : Type} {state : QueueTasks Ptr}

/-- One task receives, and every receive waits.  No signal ends a wait, and neither does its time
limit, which is an `interrupt` as well; nobody clears the exit flag. -/
def QueueAction.LeavesReceiver (receiver : Nat) : QueueAction Ptr → Prop
  | .receive task timeOut _ => task = receiver ∧ (timeOut > 0 ∨ timeOut = -1)
  | .interrupt _ | .clearExitFlag => False
  | _ => True

def QueueReturn.Served : QueueReturn Ptr → Prop
  | .gaveUp ret => ret = trfsExitWaitingQueue
  | _ => True

/-- What a receiver has seen in its wait is still there when it looks again. -/
def TaskPhase.Served (node : TrfsMqInfo Ptr) : TaskPhase Ptr → Prop
  | .waiting wait _ => wait ≠ .done
  | .checking _ => node.attr.exitFlag = 1 ∨ node.attr.counter ≠ 0
  | .locking _ | .taking _ => node.attr.counter ≠ 0
  | .unlocking ret => ret.Served
  | _ => True

/-- The next step of the task takes a message out of the queue, which its call returns. -/
def QueueTasks.TakesMessage (state : QueueTasks Ptr) (task : Nat) : Prop :=
  ∃ message, trfsMqGetMsg state.node false = ⟨0, some message, (state.turn task).node⟩ ∧
    (state.turn task).phase task = .unlocking (.received message.2 message)

def TaskPhase.isReceiving : TaskPhase Ptr → Bool
  | .waiting .. | .checking .. | .locking .. | .taking .. => true
  | _ => false

structure QueueTasks.SoleReceiver (receiver : Nat) (state : QueueTasks Ptr) : Prop where
  sole : ∀ task, (state.phase task).isReceiving = true → task = receiver
  served : ∀ task, (state.phase task).Served state.node
  returned : ∀ entry ∈ state.returned, entry.2.Served

/-- A store that takes back nothing a receiver may have seen. -/
def TrfsMqInfo.Keeps (before after : TrfsMqInfo Ptr) : Prop :=
  (before.attr.exitFlag = 1 → after.attr.exitFlag = 1) ∧
    (before.attr.counter ≠ 0 → after.attr.counter ≠ 0)

theorem TaskPhase.Served.store {phase : TaskPhase Ptr} {before after : TrfsMqInfo Ptr}
    (served : phase.Served before) (keeps : before.Keeps after) : phase.Served after := by
  cases phase with
  | checking => exact served.imp keeps.1 keeps.2
  | locking | taking => exact keeps.2 served
  | _ => exact served

/-- Only a receiver depends on the queue. -/
theorem TaskPhase.Served.of_not_receiving {phase : TaskPhase Ptr} {before : TrfsMqInfo Ptr}
    (served : phase.Served before) (other : phase.isReceiving = false)
    (after : TrfsMqInfo Ptr) : phase.Served after := by
  cases phase with
  | waiting | checking | locking | taking => cases other
  | _ => exact served

@[simp] theorem TaskPhase.isReceiving_wakeUp (phase : TaskPhase Ptr) :
    phase.wakeUp.isReceiving = phase.isReceiving := by
  cases phase <;> rfl

theorem TaskPhase.Served.wakeUp {phase : TaskPhase Ptr} {node : TrfsMqInfo Ptr}
    (served : phase.Served node) : phase.wakeUp.Served node := by
  cases phase with
  | waiting wait => exact fun ends => served (Wait.wake_eq_done.mp ends)
  | _ => exact served

/-- A wait without interruption ends on a true condition only. -/
theorem TaskPhase.served_afterWait (node : TrfsMqInfo Ptr) (wait : Wait Int) (out : Queued Ptr)
    (waits : wait ≠ .done) :
    (afterWait (wait.advance node.waitCondition) out).Served node := by
  cases next : wait.advance node.waitCondition with
  | done =>
      obtain ⟨timeOut, held⟩ := Wait.advance_eq_done waits next
      exact (TrfsMqInfo.waitCondition_eq_true.mp held).imp_left And.right
  | _ => exact fun ends => by cases ends

theorem trfsMqPutMsg_keeps {node : TrfsMqInfo Ptr} (counted : 0 ≤ node.attr.counter)
    (msgP : Option Ptr) (msgLen priority : Int) :
    node.Keeps (trfsMqPutMsg node msgP msgLen priority).2 := by
  unfold trfsMqPutMsg
  split
  · exact ⟨id, id⟩
  · exact ⟨id, fun _ => show node.attr.counter + 1 ≠ 0 by omega⟩

theorem exists_trfsMqGetMsg {node : TrfsMqInfo Ptr} (nonempty : node.attr.counter ≠ 0) :
    ∃ message after, trfsMqGetMsg node false = ⟨0, some message, after⟩ := by
  rw [trfsMqGetMsg, if_neg nonempty]
  exact ⟨_, _, rfl⟩

namespace QueueTasks.SoleReceiver

variable {receiver : Nat} {after : QueueTasks Ptr}

theorem start (receiver : Nat) (node : TrfsMqInfo Ptr) :
    (start node).SoleReceiver receiver :=
  ⟨fun _ receives => (by cases receives), fun _ => trivial, fun _ member => (by cases member)⟩

theorem lock (sole : state.SoleReceiver receiver) (lock : Option Nat) :
    { state with lock := lock }.SoleReceiver receiver :=
  ⟨sole.sole, sole.served, sole.returned⟩

theorem move (sole : state.SoleReceiver receiver) (task : Nat)
    (others : ∀ other, other ≠ task → after.phase other = state.phase other ∨
      after.phase other = (state.phase other).wakeUp)
    (kept : task = receiver ∨ state.node.Keeps after.node)
    (own : (after.phase task).isReceiving = true → task = receiver)
    (served : (after.phase task).Served after.node)
    (returned : ∀ entry ∈ after.returned, entry.2.Served) : after.SoleReceiver receiver := by
  have receiving : ∀ other, other ≠ task →
      (after.phase other).isReceiving = (state.phase other).isReceiving := by
    intro other different
    rcases others other different with same | woken
    · rw [same]
    · rw [woken, TaskPhase.isReceiving_wakeUp]
  refine ⟨fun other receives => ?_, fun other => ?_, returned⟩
  · by_cases same : other = task
    · exact same ▸ own (same ▸ receives)
    · exact sole.sole other (receiving other same ▸ receives)
  · by_cases same : other = task
    · exact same ▸ served
    · have before : (after.phase other).Served state.node := by
        rcases others other same with unchanged | woken
        · exact unchanged ▸ sole.served other
        · exact woken ▸ (sole.served other).wakeUp
      rcases kept with rfl | keeps
      · -- the receiver itself takes: nobody else has seen anything
        refine before.of_not_receiving ?_ _
        rw [receiving other same, ← Bool.not_eq_true]
        exact fun receives => same (sole.sole other receives)
      · exact before.store keeps

/-- The state of the queue and the answers given stay as they are. -/
theorem place (sole : state.SoleReceiver receiver) (task : Nat) {phase : TaskPhase Ptr}
    (own : phase.isReceiving = true → task = receiver) (served : phase.Served state.node) :
    (state.place task phase).SoleReceiver receiver := by
  refine sole.move task (fun _ different => .inl (phase_place_of_ne _ different _))
    (.inr ⟨id, id⟩) ?_ ?_ sole.returned
  · rw [phase_place_self]
    exact own
  · rw [phase_place_self]
    exact served

theorem finish (sole : state.SoleReceiver receiver) (task : Nat) {ret : QueueReturn Ptr}
    (served : ret.Served) : (state.finish task ret).SoleReceiver receiver := by
  have idle : (state.place task .idle).SoleReceiver receiver :=
    sole.place task (fun receives => by cases receives) trivial
  refine ⟨idle.sole, idle.served, fun entry member => ?_⟩
  rcases List.mem_append.mp member with earlier | now
  · exact sole.returned entry earlier
  · rw [List.mem_singleton.mp now]
    exact served

theorem acquire (sole : state.SoleReceiver receiver) (task : Nat) {phase : TaskPhase Ptr}
    (own : phase.isReceiving = true → task = receiver) (served : phase.Served state.node) :
    (state.acquire task phase).SoleReceiver receiver := by
  unfold QueueTasks.acquire
  split
  · exact (sole.place task own served).lock _
  · exact sole

theorem wakeUp (sole : state.SoleReceiver receiver) : state.wakeUp.SoleReceiver receiver := by
  refine ⟨fun task receives => sole.sole task ?_, fun task => (sole.served task).wakeUp,
    sole.returned⟩
  exact (TaskPhase.isReceiving_wakeUp _).symm.trans receives

/-- A receiver past its wait finds the flag raised, or goes on with a message to take. -/
theorem recvTest_served {node : TrfsMqInfo Ptr}
    (served : node.attr.exitFlag = 1 ∨ node.attr.counter ≠ 0) :
    trfsMqRecvTest node = some trfsExitWaitingQueue ∨
      (trfsMqRecvTest node = none ∧ node.attr.counter ≠ 0) := by
  unfold trfsMqRecvTest
  by_cases raised : node.attr.exitFlag = 1
  · exact .inl (if_pos raised)
  · have nonempty := served.resolve_left raised
    exact .inr ⟨by rw [if_neg raised, if_neg nonempty], nonempty⟩

theorem turn (sole : state.SoleReceiver receiver) (sound : state.Sound) (task : Nat) :
    (state.turn task).SoleReceiver receiver := by
  have receives := sole.sole task
  have served := sole.served task
  cases now : state.phase task with
  | idle =>
      simp only [QueueTasks.turn, now]
      exact sole
  | sending =>
      simp only [QueueTasks.turn, now]
      exact sole.acquire task (fun receives => by cases receives) trivial
  | putting msgP msgLen msgPriority =>
      refine sole.move task (fun _ different => turn_others state different) (.inr ?_) ?_ ?_ ?_
      · simp only [QueueTasks.turn, now]
        exact trfsMqPutMsg_keeps sound.counter ..
      · simp only [QueueTasks.turn, now, phase_place_self]
        split <;> exact fun receives => by cases receives
      · simp only [QueueTasks.turn, now, phase_place_self]
        split <;> trivial
      · simp only [QueueTasks.turn, now]
        exact sole.returned
  | waking =>
      simp only [QueueTasks.turn, now]
      exact sole.wakeUp.place task (fun receives => by cases receives) trivial
  | flagged =>
      simp only [QueueTasks.turn, now]
      exact sole.wakeUp.place task (fun receives => by cases receives) trivial
  | unlocking ret =>
      rw [now] at served
      simp only [QueueTasks.turn, now]
      exact (sole.lock none).finish task served
  | waiting wait out =>
      rw [now] at receives served
      simp only [QueueTasks.turn, now]
      exact sole.place task (fun _ => receives rfl)
        (TaskPhase.served_afterWait state.node wait out served)
  | checking out =>
      rw [now] at receives served
      simp only [QueueTasks.turn, now]
      rcases recvTest_served served with raised | ⟨passed, nonempty⟩
      · rw [raised]
        exact sole.finish task rfl
      · rw [passed]
        exact sole.place task (fun _ => receives rfl) nonempty
  | locking out =>
      rw [now] at receives served
      simp only [QueueTasks.turn, now]
      exact sole.acquire task (fun _ => receives rfl) served
  | taking out =>
      rw [now] at receives
      refine sole.move task (fun _ different => turn_others state different)
        (.inl (receives rfl)) ?_ ?_ ?_
      · exact fun _ => receives rfl
      · simp only [QueueTasks.turn, now, phase_place_self]
        trivial
      · simp only [QueueTasks.turn, now]
        exact sole.returned

theorem step (sole : state.SoleReceiver receiver) (sound : state.Sound)
    {action : QueueAction Ptr} (leaves : action.LeavesReceiver receiver) :
    (state.step action).SoleReceiver receiver := by
  cases action with
  | turn task => exact sole.turn sound task
  | clearExitFlag | interrupt => exact leaves.elim
  | setExitFlag task =>
      simp only [QueueTasks.step]
      split
      · refine sole.move task (fun _ different => .inl (phase_place_of_ne _ different _))
          (.inr ⟨fun _ => rfl, id⟩) ?_ ?_ sole.returned
        · rw [phase_place_self]
          exact fun receives => by cases receives
        · rw [phase_place_self]
          trivial
      · exact sole
  | send task =>
      simp only [QueueTasks.step]
      split
      · split
        · exact sole.finish task trivial
        · exact sole.place task (fun receives => by cases receives) trivial
      · exact sole
  | receive task timeOut out =>
      simp only [QueueTasks.step, if_pos leaves.2]
      split
      · exact sole.place task (fun _ => leaves.1) fun ends => by cases ends
      · exact sole

/-- The locked section finds the message that the test before it has seen. -/
theorem takesMessage (sole : state.SoleReceiver receiver) {task : Nat} {out : Queued Ptr}
    (taking : state.phase task = .taking out) : state.TakesMessage task := by
  have served := sole.served task
  rw [taking] at served
  obtain ⟨message, after, got⟩ := exists_trfsMqGetMsg served
  refine ⟨message, ?_, ?_⟩
  · simp only [QueueTasks.turn, taking, trfsMqRecvTake_eq, got]
    rfl
  · simp only [QueueTasks.turn, taking, trfsMqRecvTake_eq, phase_place_self, got, Option.getD_some]

end QueueTasks.SoleReceiver

/-- In every interleaving with senders and setters of the exit flag, a sole receiver whose wait
neither a signal nor its time limit ends comes back without a message only with
`TRFS_EXIT_WAITING_QUEUE`, and never with `TRFS_FLUSH_TIMEOUT`.  Whenever it goes on to the lock, it
takes a message there. -/
theorem sole_receiver_takes_or_exits (earlier : List (MqAction Ptr)) (index : Nat)
    (receiver : Nat) {actions : List (QueueAction Ptr)}
    (leaves : ∀ action ∈ actions, action.LeavesReceiver receiver) :
    let state := QueueTasks.after earlier index actions
    (∀ entry ∈ state.returned, ∀ ret, entry.2 = .gaveUp ret → ret = trfsExitWaitingQueue) ∧
      ∀ task out, state.phase task = .taking out → state.TakesMessage task := by
  have along := (along_forall_iff QueueTasks.step (QueueAction.LeavesReceiver receiver)
    (QueueTasks.start ((MqTable.after earlier).nodes index)) actions).mpr leaves
  have final := along_run (fun state => state.Sound ∧ state.SoleReceiver receiver)
    (fun _ action both leaves => ⟨both.1.step action, both.2.step both.1 leaves⟩)
    ⟨QueueTasks.Sound.start ((MqTable.rings_after earlier).counter_nonneg index),
      QueueTasks.SoleReceiver.start receiver _⟩ along
  refine ⟨fun entry member ret gaveUp => ?_, fun task out taking => final.2.takesMessage taking⟩
  have served := final.2.returned entry member
  rw [gaveUp] at served
  exact served

/-- A receiver sleeps and is sent away by the exit flag. -/
def flagRaisedWhileAsleep : List (QueueAction Nat) :=
  [.receive 1 (-1) (none, 0), .turn 1, .turn 1, .turn 1, .setExitFlag 2, .turn 2, .turn 1,
    .turn 1, .turn 1]

/-- A receiver sleeps, is woken by a message and holds the lock to take it. -/
def sentWhileAsleep : List (QueueAction Nat) :=
  [.receive 1 (-1) (none, 0), .turn 1, .turn 1, .turn 1, .send 2 (some 7) 5 0, .turn 2, .turn 2,
    .turn 2, .turn 2, .turn 1, .turn 1, .turn 1, .turn 1]

theorem sole_receiver_flagRaisedWhileAsleep :
    let after := QueueTasks.after [.openQueue (some ⟨1, 4, 100, 0, 0⟩) true] 0
    (after flagRaisedWhileAsleep).returned = [(1, .gaveUp (-2))] ∧
      (∀ entry ∈ (after flagRaisedWhileAsleep).returned, ∀ ret,
        entry.2 = .gaveUp ret → ret = trfsExitWaitingQueue) ∧
      (after sentWhileAsleep).phase 1 = .taking (none, 0) ∧
      (after sentWhileAsleep).TakesMessage 1 :=
  ⟨rfl, (sole_receiver_takes_or_exits _ 0 1
      (by simp [flagRaisedWhileAsleep, QueueAction.LeavesReceiver])).1, rfl,
    (sole_receiver_takes_or_exits _ 0 1
      (by simp [sentWhileAsleep, QueueAction.LeavesReceiver])).2 1 (none, 0) rfl⟩

end Tracefs
