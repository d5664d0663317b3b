import Tracefs.MsgQueue.Table

/-!
# A queue node is a bounded FIFO

The ring of a node is read from `readIndex` on.  Every put and get is simulated
by the corresponding operation of a list of at most `maxMsgs` messages, from the
node that an open sets up and along every sequence of calls.
-/

namespace Tracefs

open Bytes Transition

variable {Ptr : Type}

abbrev Queued (Ptr : Type) := Option Ptr × Int

namespace TrfsMqInfo

def contents (node : TrfsMqInfo Ptr) : List (Queued Ptr) :=
  (Ring.contents node.msg node.readIndex node.attr.counter node.attr.maxMsgs).map
    fun slot => (slot.dataP, slot.len)

structure RingInvariant (node : TrfsMqInfo Ptr) : Prop where
  readIndex : 0 ≤ node.readIndex ∧ node.readIndex < node.attr.maxMsgs
  writeIndex : 0 ≤ node.writeIndex ∧ node.writeIndex < node.attr.maxMsgs
  counter : 0 ≤ node.attr.counter ∧ node.attr.counter ≤ node.attr.maxMsgs
  behind : node.writeIndex = (node.readIndex + node.attr.counter) % node.attr.maxMsgs

variable {node : TrfsMqInfo Ptr}

theorem RingInvariant.length_contents (invariant : node.RingInvariant) :
    (node.contents.length : Int) = node.attr.counter := by
  have nonneg := invariant.counter.1
  simp only [contents, List.length_map, Ring.length_contents]
  omega

theorem RingInvariant.contents_eq_nil_iff (invariant : node.RingInvariant) :
    node.contents = [] ↔ node.attr.counter = 0 := by
  rw [← List.length_eq_zero_iff, ← invariant.length_contents]
  omega

end TrfsMqInfo

open TrfsMqInfo

variable {node : TrfsMqInfo Ptr}

theorem trfsMqPutMsg_full (full : node.attr.counter = node.attr.maxMsgs) (msgP : Option Ptr)
    (msgLen priority : Int) :
    trfsMqPutMsg node msgP msgLen priority = (trfsErrMqFull, node) :=
  if_pos full

theorem trfsMqPutMsg_room (invariant : node.RingInvariant)
    (room : node.attr.counter < node.attr.maxMsgs) (msgP : Option Ptr) (msgLen priority : Int) :
    (trfsMqPutMsg node msgP msgLen priority).1 = 0 ∧
      (trfsMqPutMsg node msgP msgLen priority).2.RingInvariant ∧
      (trfsMqPutMsg node msgP msgLen priority).2.contents =
        node.contents ++ [(msgP, msgLen)] := by
  obtain ⟨next, nextRange⟩ := Ring.next_tmod invariant.writeIndex
  have range := invariant.counter
  rw [trfsMqPutMsg, if_neg room.ne]
  refine ⟨rfl, ?_, ?_⟩
  · constructor
    case readIndex => exact invariant.readIndex
    case writeIndex =>
      simp only [next]
      exact nextRange
    case counter =>
      dsimp only
      omega
    case behind =>
      simp only [next]
      rw [invariant.behind, Ring.next_index]
  · simp only [contents]
    rw [invariant.behind, Ring.contents_put _ _ invariant.readIndex ⟨range.1, room⟩]
    simp

theorem trfsMqGetMsg_empty (empty : node.attr.counter = 0) (copyOnly : Bool) :
    trfsMqGetMsg node copyOnly = ⟨trfsErrMqEmpty, none, node⟩ :=
  if_pos empty

theorem trfsMqGetMsg_cons (invariant : node.RingInvariant) {oldest : Queued Ptr}
    {later : List (Queued Ptr)} (held : node.contents = oldest :: later) (copyOnly : Bool) :
    (trfsMqGetMsg node copyOnly).ret = 0 ∧
      (trfsMqGetMsg node copyOnly).out = some (oldest.1, toInt32 oldest.2) ∧
      (trfsMqGetMsg node copyOnly).node.RingInvariant ∧
      (trfsMqGetMsg node copyOnly).node.contents =
        if copyOnly then oldest :: later else later := by
  obtain ⟨next, nextRange⟩ := Ring.next_tmod invariant.readIndex
  have range := invariant.counter
  have length := invariant.length_contents
  rw [held, List.length_cons] at length
  have split : node.contents = ((node.msg node.readIndex).dataP, (node.msg node.readIndex).len) ::
      (Ring.contents node.msg ((node.readIndex + 1) % node.attr.maxMsgs) (node.attr.counter - 1)
        node.attr.maxMsgs).map fun slot => (slot.dataP, slot.len) := by
    rw [contents, Ring.contents_get _ invariant.readIndex (by omega), List.map_cons]
  rw [held, List.cons.injEq] at split
  obtain ⟨first, rest⟩ := split
  rw [trfsMqGetMsg, if_neg (by omega)]
  refine ⟨rfl, by rw [first], ?_⟩
  cases copyOnly with
  | true => exact ⟨invariant, held⟩
  | false =>
      refine ⟨?_, ?_⟩
      · constructor
        case readIndex =>
          simp only [next, Bool.false_eq_true, if_false]
          exact nextRange
        case writeIndex => exact invariant.writeIndex
        case counter =>
          simp only [Bool.false_eq_true, if_false]
          omega
        case behind =>
          simp only [next, Bool.false_eq_true, if_false]
          rw [Ring.next_start]
          exact invariant.behind
      · simp only [contents, next, Bool.false_eq_true, if_false]
        exact rest.symm

theorem trfsMqGetMsg_copyOnly (node : TrfsMqInfo Ptr) : (trfsMqGetMsg node true).node = node := by
  unfold trfsMqGetMsg
  split <;> rfl

theorem trfsMqPutMsg_maxMsgs (node : TrfsMqInfo Ptr) (msgP : Option Ptr)
    (msgLen priority : Int) :
    (trfsMqPutMsg node msgP msgLen priority).2.attr.maxMsgs = node.attr.maxMsgs := by
  unfold trfsMqPutMsg
  split <;> rfl

theorem trfsMqGetMsg_maxMsgs (node : TrfsMqInfo Ptr) (copyOnly : Bool) :
    (trfsMqGetMsg node copyOnly).node.attr.maxMsgs = node.attr.maxMsgs := by
  unfold trfsMqGetMsg
  split
  · rfl
  · cases copyOnly <;> rfl

inductive MqCall (Ptr : Type) where
  | put (msgP : Option Ptr) (msgLen priority : Int)
  | get (copyOnly : Bool)

/-- The length of a message put is a value of type `int`. -/
def MqCall.LengthInRange : MqCall Ptr → Prop
  | .put _ msgLen _ => -2 ^ 31 ≤ msgLen ∧ msgLen < 2 ^ 31
  | .get _ => True

/-- What a caller sees: the result, and the message stored for it. -/
abbrev Shown (Ptr : Type) := Int × Option (Queued Ptr)

def TrfsMqInfo.call (node : TrfsMqInfo Ptr) : MqCall Ptr → TrfsMqInfo Ptr × Shown Ptr
  | .put msgP msgLen priority =>
      let put := trfsMqPutMsg node msgP msgLen priority
      (put.2, put.1, none)
  | .get copyOnly =>
      let get := trfsMqGetMsg node copyOnly
      (get.node, get.ret, get.out)

/-- The abstract queue: a list that holds at most `capacity` messages. -/
def fifoCall (capacity : Int) (queue : List (Queued Ptr)) :
    MqCall Ptr → List (Queued Ptr) × Shown Ptr
  | .put msgP msgLen _ =>
      if (queue.length : Int) < capacity then (queue ++ [(msgP, msgLen)], 0, none)
      else (queue, trfsErrMqFull, none)
  | .get copyOnly =>
      match queue with
      | [] => ([], trfsErrMqEmpty, none)
      | oldest :: later => (if copyOnly then oldest :: later else later, 0, some oldest)

structure TrfsMqInfo.Represents (capacity : Int) (node : TrfsMqInfo Ptr)
    (queue : List (Queued Ptr)) : Prop where
  invariant : node.RingInvariant
  capacity : node.attr.maxMsgs = capacity
  contents : node.contents = queue
  lengths : ∀ queued ∈ queue, -2 ^ 31 ≤ queued.2 ∧ queued.2 < 2 ^ 31

namespace TrfsMqInfo.Represents

variable {capacity : Int} {queue : List (Queued Ptr)}

theorem put (represents : node.Represents capacity queue) (msgP : Option Ptr) {msgLen : Int}
    (range : -2 ^ 31 ≤ msgLen ∧ msgLen < 2 ^ 31) (priority : Int) :
    (node.call (.put msgP msgLen priority)).2 =
        (fifoCall capacity queue (.put msgP msgLen priority)).2 ∧
      (node.call (.put msgP msgLen priority)).1.Represents capacity
        (fifoCall capacity queue (.put msgP msgLen priority)).1 := by
  have length := represents.invariant.length_contents
  have counter := represents.invariant.counter
  rw [represents.contents] at length
  rw [represents.capacity] at counter
  simp only [call, fifoCall]
  split
  next room =>
    obtain ⟨ret, invariant, appended⟩ := trfsMqPutMsg_room represents.invariant
      (by rw [represents.capacity]; omega) msgP msgLen priority
    refine ⟨by rw [ret], invariant, ?_, ?_, ?_⟩
    · rw [trfsMqPutMsg_maxMsgs, represents.capacity]
    · rw [appended, represents.contents]
    · intro queued membership
      rcases List.mem_append.mp membership with older | newest
      · exact represents.lengths queued older
      · rw [List.mem_singleton.mp newest]
        exact range
  next full =>
    rw [trfsMqPutMsg_full (by rw [represents.capacity]; omega)]
    exact ⟨rfl, represents⟩

theorem get (represents : node.Represents capacity queue) (copyOnly : Bool) :
    (node.call (.get copyOnly)).2 = (fifoCall capacity queue (.get copyOnly)).2 ∧
      (node.call (.get copyOnly)).1.Represents capacity
        (fifoCall capacity queue (.get copyOnly)).1 := by
  cases queue with
  | nil =>
      have empty := represents.invariant.contents_eq_nil_iff.mp represents.contents
      simp only [call, fifoCall, trfsMqGetMsg_empty empty]
      exact ⟨trivial, represents⟩
  | cons oldest later =>
      obtain ⟨ret, out, invariant, contents⟩ :=
        trfsMqGetMsg_cons represents.invariant represents.contents copyOnly
      have range := represents.lengths oldest (by simp)
      rw [toInt32_of_range range.1 range.2] at out
      simp only [call, fifoCall, ret, out]
      refine ⟨trivial, invariant, ?_, contents, ?_⟩
      · rw [trfsMqGetMsg_maxMsgs, represents.capacity]
      · intro queued membership
        apply represents.lengths
        cases copyOnly with
        | true => exact membership
        | false => exact List.mem_cons_of_mem _ membership

theorem call (represents : node.Represents capacity queue) {call : MqCall Ptr}
    (range : call.LengthInRange) :
    (node.call call).2 = (fifoCall capacity queue call).2 ∧
      (node.call call).1.Represents capacity (fifoCall capacity queue call).1 := by
  cases call with
  | put msgP msgLen priority => exact represents.put msgP range priority
  | get copyOnly => exact represents.get copyOnly

theorem observe (represents : node.Represents capacity queue) {calls : List (MqCall Ptr)}
    (lengths : ∀ call ∈ calls, call.LengthInRange) :
    (observe TrfsMqInfo.call node calls).2 = (observe (fifoCall capacity) queue calls).2 ∧
      (observe TrfsMqInfo.call node calls).1.Represents capacity
        (observe (fifoCall capacity) queue calls).1 := by
  refine observe_simulates (TrfsMqInfo.Represents capacity) MqCall.LengthInRange ?_
    represents lengths
  intro node queue call range represents
  exact represents.call range

theorem openNode {slot : TrfsMqInfo Ptr} (unopened : slot.Unopened) {mq : TrfsMqAttr}
    (positive : 0 < mq.maxMsgs) (mqId : Int) :
    (openNode slot mq mqId).Represents mq.maxMsgs [] where
  invariant := by
    have read := unopened.readIndex
    have write := unopened.writeIndex
    constructor
    · simp only [Tracefs.openNode, read]
      omega
    · simp only [Tracefs.openNode, write]
      omega
    · simp only [Tracefs.openNode]
      omega
    · simp only [Tracefs.openNode, read, write]
      rfl
  capacity := rfl
  contents := rfl
  lengths := by simp

end TrfsMqInfo.Represents

/-- A queue as an accepted open leaves it, in a table used in any way before. -/
structure OpenedQueue (Ptr : Type) where
  earlier : List (MqAction Ptr)
  mq : TrfsMqAttr
  fits : mq.maxMsgs ≤ trfsMqMaxNoOfMsgs
  accepted : (trfsMqOpen (MqTable.after earlier) (some mq) true).ret = 0

namespace OpenedQueue

def result (queue : OpenedQueue Ptr) : OpenResult Ptr :=
  trfsMqOpen (MqTable.after queue.earlier) (some queue.mq) true

theorem result_spec (queue : OpenedQueue Ptr) :
    ∃ index : Nat, queue.result.mqId = some ((index : Int) + 1) ∧
      index < queue.result.table.numAfdxQs ∧ queue.result.table.WellFormed ∧
      (queue.result.table.nodes index).Represents queue.mq.maxMsgs [] := by
  have wellFormed := MqTable.wellFormed_after queue.earlier
  rcases trfsMqOpen_cases (MqTable.after queue.earlier) (some queue.mq) true with
    ⟨refused, _⟩ | ⟨attr, given, positive, room, opened⟩
  · exact absurd (refused.symm.trans queue.accepted) (by decide)
  · obtain rfl := Option.some.inj given
    have sameRoom := queue.mq.withDefaultFlags_maxMsgs
    have empty := TrfsMqInfo.Represents.openNode (wellFormed.unopened _ le_rfl)
      (sameRoom ▸ positive) (MqTable.after queue.earlier).mqIdSeq
    rw [sameRoom] at empty
    rw [result, opened]
    refine ⟨(MqTable.after queue.earlier).numAfdxQs, ?_, Nat.lt_succ_self _,
      wellFormed.addNode room _, ?_⟩
    · rw [wellFormed.nextId]
    · rw [MqTable.nodes_addNode_new]
      exact empty

end OpenedQueue

/-- A node answers the next call as its contents say. -/
structure TrfsMqInfo.AnswersLikeFifo (node : TrfsMqInfo Ptr) : Prop where
  putSucceeds : ∀ msgP msgLen priority,
    (trfsMqPutMsg node msgP msgLen priority).1 = 0 ↔
      (node.contents.length : Int) < node.attr.maxMsgs
  putFull : ¬ (node.contents.length : Int) < node.attr.maxMsgs → ∀ msgP msgLen priority,
    trfsMqPutMsg node msgP msgLen priority = (trfsErrMqFull, node)
  getOldest : ∀ copyOnly oldest, (trfsMqGetMsg node copyOnly).ret = 0 ∧
    (trfsMqGetMsg node copyOnly).out = some oldest ↔ node.contents.head? = some oldest
  getEmpty : node.contents = [] → ∀ copyOnly,
    trfsMqGetMsg node copyOnly = ⟨trfsErrMqEmpty, none, node⟩
  getCopy : (trfsMqGetMsg node true).node = node

theorem TrfsMqInfo.Represents.answersLikeFifo {capacity : Int} {queue : List (Queued Ptr)}
    (represents : node.Represents capacity queue) : node.AnswersLikeFifo := by
  have length := represents.invariant.length_contents
  have counter := represents.invariant.counter
  constructor
  case putSucceeds =>
    intro msgP msgLen priority
    constructor
    · intro succeeded
      by_contra full
      rw [trfsMqPutMsg_full (by omega)] at succeeded
      exact absurd succeeded (show trfsErrMqFull ≠ 0 by decide)
    · intro room
      exact (trfsMqPutMsg_room represents.invariant (by omega) msgP msgLen priority).1
  case putFull =>
    intro full msgP msgLen priority
    exact trfsMqPutMsg_full (by omega) msgP msgLen priority
  case getOldest =>
    intro copyOnly oldest
    obtain ⟨shown, _⟩ := represents.get copyOnly
    rw [represents.contents]
    cases queue with
    | nil =>
        have empty := represents.invariant.contents_eq_nil_iff.mp represents.contents
        simp [trfsMqGetMsg_empty empty]
    | cons first later =>
        simp only [TrfsMqInfo.call, fifoCall, Prod.mk.injEq] at shown
        simp [shown]
  case getEmpty =>
    intro empty copyOnly
    exact trfsMqGetMsg_empty (represents.invariant.contents_eq_nil_iff.mp empty) copyOnly
  case getCopy => exact trfsMqGetMsg_copyOnly node

/-- The ring of a freshly opened queue refines a FIFO of capacity `maxMsgs`:
after any calls the invariant holds, every index lies in the array, contents
and answers so far are those of the FIFO, and so is the next answer. -/
theorem ring_refines_fifo (opened : OpenedQueue Ptr) (calls : List (MqCall Ptr))
    (lengths : ∀ call ∈ calls, call.LengthInRange) :
    ∃ mqId index, opened.result.mqId = some mqId ∧
      trfsMqGetNodeById opened.result.table mqId = some index ∧
      let reached := observe TrfsMqInfo.call (opened.result.table.nodes index) calls
      let queue := observe (fifoCall opened.mq.maxMsgs) [] calls
      reached.1.RingInvariant ∧ reached.1.attr.maxMsgs = opened.mq.maxMsgs ∧
        reached.1.readIndex < trfsMqMaxNoOfMsgs ∧ reached.1.writeIndex < trfsMqMaxNoOfMsgs ∧
        reached.1.contents = queue.1 ∧ reached.2 = queue.2 ∧ reached.1.AnswersLikeFifo := by
  obtain ⟨index, returned, below, wellFormed, empty⟩ := opened.result_spec
  refine ⟨index + 1, index, returned, wellFormed.trfsMqGetNodeById_opened below, ?_⟩
  -- the simulation runs from the empty queue
  obtain ⟨shown, represents⟩ := empty.observe lengths
  have room := represents.capacity
  have read := represents.invariant.readIndex
  have write := represents.invariant.writeIndex
  have fits := opened.fits
  exact ⟨represents.invariant, room, by omega, by omega, represents.contents, shown,
    represents.answersLikeFifo⟩

def twoMessageQueue : OpenedQueue Nat :=
  ⟨[], ⟨1, 2, 100, 0, 0⟩, by decide, by decide⟩

/-- The queue of two is filled, refuses a third message, is looked into and then
read. -/
theorem twoMessageQueue_run :
    ∃ mqId index, twoMessageQueue.result.mqId = some mqId ∧
      trfsMqGetNodeById twoMessageQueue.result.table mqId = some index ∧
      (observe TrfsMqInfo.call (twoMessageQueue.result.table.nodes index)
        [.put (some 10) 40 0, .put (some 20) 48 0, .put (some 30) 24 0, .get true,
          .get false]).2 =
        [(0, none), (0, none), (trfsErrMqFull, none), (0, some (some 10, 40)),
          (0, some (some 10, 40))] := by
  obtain ⟨mqId, index, returned, found, refines⟩ := ring_refines_fifo twoMessageQueue
    [.put (some 10) 40 0, .put (some 20) 48 0, .put (some 30) 24 0, .get true, .get false]
    (by simp [MqCall.LengthInRange])
  exact ⟨mqId, index, returned, found, refines.2.2.2.2.2.1⟩

end Tracefs
