import Tracefs.MsgQueue.Fifo

/-!
# Producers and a consumer on one queue

Any number of producers send to a queue from which one consumer receives.  The
locked sections are atomic steps, and so is the unlocked test of the consumer;
the steps interleave freely.  A send counts as accepted when its result is not
negative.
-/

namespace Tracefs

open Bytes Transition

variable {Ptr : Type}

/-- The messages of a node as a receiver will see them: `*msgLen` is an `int`. -/
def TrfsMqInfo.deliverable (node : TrfsMqInfo Ptr) : List (Queued Ptr) :=
  node.contents.map fun queued => (queued.1, toInt32 queued.2)

/-- The queues, where the consumer stands, and what has gone in and come out. -/
structure Exchange (Ptr : Type) where
  table : MqTable Ptr
  /-- The consumer has passed its test and not yet entered its locked section. -/
  tested : Bool
  accepted : List (Queued Ptr)
  received : List (Queued Ptr)

inductive ExchangeAction (Ptr : Type) where
  | send (msgP : Option Ptr) (msgLen : BitVec 64) (msgPriority : Int)
  | recvTest
  | recvTake (out : Queued Ptr)

namespace Exchange

def start (table : MqTable Ptr) : Exchange Ptr :=
  ⟨table, false, [], []⟩

/-- One step of a producer or of the consumer.  A step of the consumer that its
program counter does not allow changes nothing. -/
def step (mqId : Int) (state : Exchange Ptr) : ExchangeAction Ptr → Exchange Ptr
  | .send msgP msgLen msgPriority =>
      let sent := trfsMqSend state.table mqId msgP msgLen msgPriority
      { state with
        table := sent.2
        accepted :=
          if 0 ≤ sent.1 then state.accepted ++ [(msgP, (msgLen.toNat : Int))]
          else state.accepted }
  | .recvTest =>
      match state.tested, trfsMqGetNodeById state.table mqId with
      | false, some index =>
          { state with tested := (trfsMqRecvTest (state.table.nodes index)).isNone }
      | _, _ => state
  | .recvTake out =>
      match state.tested, trfsMqGetNodeById state.table mqId with
      | true, some index =>
          let taken := trfsMqRecvTake (state.table.nodes index) out
          { state with
            table := state.table.setNode index taken.2.2
            tested := false
            received :=
              if 0 ≤ taken.1 then state.received ++ [taken.2.1] else state.received }
      | _, _ => state

/-- Nothing is lost, duplicated or reordered. -/
def Delivers (mqId : Int) (state : Exchange Ptr) : Prop :=
  (trfsMqGetNodeById state.table mqId).map
      (fun index => state.received ++ (state.table.nodes index).deliverable) =
    some state.accepted

/-- After the step the queue still delivers, and a send refused in the step has
changed nothing. -/
def KeepsDelivering (mqId : Int) (state : Exchange Ptr) (action : ExchangeAction Ptr) : Prop :=
  (state.step mqId action).Delivers mqId ∧
    match action with
    | .send msgP msgLen msgPriority =>
        (trfsMqSend state.table mqId msgP msgLen msgPriority).1 < 0 →
          (trfsMqSend state.table mqId msgP msgLen msgPriority).2 = state.table
    | _ => True

/-- The sends that are reported truly.  With room the length must fit an `int`;
on a full queue only a length that turns negative as an `int` is refused. -/
def SendsTruly (mqId : Int) (state : Exchange Ptr) : ExchangeAction Ptr → Prop
  | .send msgP msgLen _ =>
      msgP = none ∨ msgLen.toNat = 0 ∨ ∀ index,
        trfsMqGetNodeById state.table mqId = some index →
          if (state.table.nodes index).attr.counter < (state.table.nodes index).attr.maxMsgs then
            msgLen.toNat < 2 ^ 31
          else toInt32 msgLen.toNat < 0
  | _ => True

theorem Delivers.received_append {index : Nat} {state : Exchange Ptr}
    (delivers : state.Delivers (index + 1)) (wellFormed : state.table.WellFormed)
    (opened : index < state.table.numAfdxQs) :
    state.received ++ (state.table.nodes index).deliverable = state.accepted := by
  rwa [Delivers, wellFormed.trfsMqGetNodeById_opened opened, Option.map_some,
    Option.some.injEq] at delivers

/-- What holds at every state of a run that has delivered so far. -/
structure Consistent (index : Nat) (state : Exchange Ptr) : Prop where
  wellFormed : state.table.WellFormed
  opened : index < state.table.numAfdxQs
  ring : (state.table.nodes index).RingInvariant
  tested : state.tested = true → (state.table.nodes index).contents ≠ []
  nonneg : ∀ message ∈ state.accepted, 0 ≤ message.2
  delivered : state.received ++ (state.table.nodes index).deliverable = state.accepted

namespace Consistent

variable {index : Nat} {state : Exchange Ptr}

theorem found (consistent : state.Consistent index) :
    trfsMqGetNodeById state.table (index + 1) = some index :=
  consistent.wellFormed.trfsMqGetNodeById_opened consistent.opened

theorem delivers (consistent : state.Consistent index) : state.Delivers (index + 1) := by
  rw [Delivers, consistent.found, Option.map_some, consistent.delivered]

theorem send_nothing (consistent : state.Consistent index) {msgP : Option Ptr}
    {msgLen : BitVec 64} (nothing : msgP = none ∨ msgLen.toNat = 0) (msgPriority : Int) :
    state.KeepsDelivering (index + 1) (.send msgP msgLen msgPriority) ∧
      (state.step (index + 1) (.send msgP msgLen msgPriority)).Consistent index := by
  have refused : trfsMqSend state.table (index + 1) msgP msgLen msgPriority = (-1, state.table) :=
    if_pos (by simpa using nothing)
  have same : state.step (index + 1) (.send msgP msgLen msgPriority) = state := by
    simp [step, refused]
  rw [KeepsDelivering, same]
  exact ⟨⟨consistent.delivers, fun _ => by rw [refused]⟩, consistent⟩

section Send

variable (consistent : state.Consistent index) (ptr : Ptr) {msgLen : BitVec 64}
  (nonempty : 0 < msgLen.toNat) (msgPriority : Int)

include consistent nonempty

theorem step_send :
    state.step (index + 1) (.send (some ptr) msgLen msgPriority) =
      { state with
        table := state.table.setNode index (trfsMqPutMsg (state.table.nodes index) (some ptr)
          (toInt64 msgLen.toNat) msgPriority).2
        accepted := if 0 ≤ toInt32 msgLen.toNat then
          state.accepted ++ [(some ptr, (msgLen.toNat : Int))] else state.accepted } := by
  rw [step, trfsMqSend_found consistent.found ptr nonempty]

theorem send_full
    (full : ¬ (state.table.nodes index).attr.counter < (state.table.nodes index).attr.maxMsgs) :
    (state.KeepsDelivering (index + 1) (.send (some ptr) msgLen msgPriority) ↔
        toInt32 msgLen.toNat < 0) ∧
      (toInt32 msgLen.toNat < 0 →
        (state.step (index + 1) (.send (some ptr) msgLen msgPriority)).Consistent index) := by
  have counter := consistent.ring.counter
  have noRoom :
      (state.table.nodes index).attr.counter = (state.table.nodes index).attr.maxMsgs := by
    omega
  have dropped := trfsMqPutMsg_full noRoom (some ptr) (toInt64 msgLen.toNat) msgPriority
  have next := consistent.step_send ptr nonempty msgPriority
  rw [dropped, MqTable.setNode_self] at next
  have unchanged : toInt32 msgLen.toNat < 0 →
      state.step (index + 1) (.send (some ptr) msgLen msgPriority) = state := by
    intro negative
    rw [next, if_neg (by omega)]
  refine ⟨⟨?_, ?_⟩, fun negative => by rw [unchanged negative]; exact consistent⟩
  · rintro ⟨delivers, _⟩
    by_contra reported
    rw [next, if_pos (by omega)] at delivers
    have delivered := delivers.received_append consistent.wellFormed consistent.opened
    simp [consistent.delivered] at delivered
  · intro negative
    refine ⟨by rw [unchanged negative]; exact consistent.delivers, fun _ => ?_⟩
    rw [trfsMqSend_found consistent.found ptr nonempty, dropped, MqTable.setNode_self]

theorem wellFormed_put :
    (state.table.setNode index (trfsMqPutMsg (state.table.nodes index) (some ptr)
      (toInt64 msgLen.toNat) msgPriority).2).WellFormed := by
  have wellFormed := consistent.wellFormed.send (index + 1) (some ptr) msgLen msgPriority
  rwa [trfsMqSend_found consistent.found ptr nonempty] at wellFormed

section Room

variable (room : (state.table.nodes index).attr.counter < (state.table.nodes index).attr.maxMsgs)

include room

omit nonempty in
theorem deliverable_put :
    (trfsMqPutMsg (state.table.nodes index) (some ptr) (toInt64 msgLen.toNat)
        msgPriority).2.deliverable =
      (state.table.nodes index).deliverable ++ [(some ptr, toInt32 msgLen.toNat)] := by
  obtain ⟨-, -, appended⟩ := trfsMqPutMsg_room consistent.ring room (some ptr)
    (toInt64 msgLen.toNat) msgPriority
  simp [TrfsMqInfo.deliverable, appended, toInt32_toInt64]

theorem consistent_send_room (short : msgLen.toNat < 2 ^ 31) :
    (state.step (index + 1) (.send (some ptr) msgLen msgPriority)).Consistent index := by
  obtain ⟨-, ring, appended⟩ := trfsMqPutMsg_room consistent.ring room (some ptr)
    (toInt64 msgLen.toNat) msgPriority
  have length : toInt32 msgLen.toNat = msgLen.toNat := toInt32_of_range (by omega) (by omega)
  rw [consistent.step_send ptr nonempty msgPriority, if_pos (by omega)]
  refine ⟨consistent.wellFormed_put ptr nonempty msgPriority, consistent.opened, ?_, ?_, ?_, ?_⟩
  · simpa using ring
  · intro _
    simp [appended]
  · intro message membership
    rcases List.mem_append.mp membership with older | newest
    · exact consistent.nonneg message older
    · rw [List.mem_singleton.mp newest]
      exact Int.natCast_nonneg _
  · simp only [MqTable.nodes_setNode_same, consistent.deliverable_put ptr msgPriority room, length]
    rw [← List.append_assoc, consistent.delivered]

theorem lt_of_keepsDelivering_room
    (keeps : state.KeepsDelivering (index + 1) (.send (some ptr) msgLen msgPriority)) :
    msgLen.toNat < 2 ^ 31 := by
  obtain ⟨delivers, refusal⟩ := keeps
  have sent := trfsMqSend_found consistent.found ptr nonempty msgPriority
  have reported : 0 ≤ toInt32 msgLen.toNat := by
    by_contra negative
    -- a refused send would have left the ring as it was
    have same := refusal (by rw [sent]; simpa using negative)
    rw [sent] at same
    have queued := congrArg (fun table => (table.nodes index).deliverable) same
    simp [consistent.deliverable_put ptr msgPriority room] at queued
  rw [consistent.step_send ptr nonempty msgPriority, if_pos reported] at delivers
  have delivered := delivers.received_append
    (consistent.wellFormed_put ptr nonempty msgPriority) consistent.opened
  simp only [MqTable.nodes_setNode_same,
    consistent.deliverable_put ptr msgPriority room] at delivered
  rw [← List.append_assoc, consistent.delivered] at delivered
  have length : toInt32 msgLen.toNat = msgLen.toNat := by simpa using delivered
  have range := toInt32_range msgLen.toNat
  omega

/-- With room the message is queued, whatever the caller is told. -/
theorem send_room :
    (state.KeepsDelivering (index + 1) (.send (some ptr) msgLen msgPriority) ↔
        msgLen.toNat < 2 ^ 31) ∧
      (msgLen.toNat < 2 ^ 31 →
        (state.step (index + 1) (.send (some ptr) msgLen msgPriority)).Consistent index) := by
  refine ⟨⟨consistent.lt_of_keepsDelivering_room ptr nonempty msgPriority room, fun short => ?_⟩,
    consistent.consistent_send_room ptr nonempty msgPriority room⟩
  refine ⟨(consistent.consistent_send_room ptr nonempty msgPriority room short).delivers, ?_⟩
  intro refused
  rw [trfsMqSend_found consistent.found ptr nonempty,
    toInt32_of_range (by omega) (by omega)] at refused
  omega

end Room

end Send

theorem send (consistent : state.Consistent index) (msgP : Option Ptr) (msgLen : BitVec 64)
    (msgPriority : Int) :
    (state.KeepsDelivering (index + 1) (.send msgP msgLen msgPriority) ↔
        state.SendsTruly (index + 1) (.send msgP msgLen msgPriority)) ∧
      (state.SendsTruly (index + 1) (.send msgP msgLen msgPriority) →
        (state.step (index + 1) (.send msgP msgLen msgPriority)).Consistent index) := by
  by_cases nothing : msgP = none ∨ msgLen.toNat = 0
  · obtain ⟨keeps, next⟩ := consistent.send_nothing nothing msgPriority
    have truly : state.SendsTruly (index + 1) (.send msgP msgLen msgPriority) :=
      nothing.imp_right .inl
    exact ⟨iff_of_true keeps truly, fun _ => next⟩
  · obtain ⟨some_, positive⟩ := not_or.mp nothing
    obtain ⟨ptr, rfl⟩ := Option.ne_none_iff_exists'.mp some_
    by_cases room : (state.table.nodes index).attr.counter <
        (state.table.nodes index).attr.maxMsgs
    · have truly : state.SendsTruly (index + 1) (.send (some ptr) msgLen msgPriority) ↔
          msgLen.toNat < 2 ^ 31 := by
        simp [SendsTruly, positive, consistent.found, room]
      rw [truly]
      exact consistent.send_room ptr (by omega) msgPriority room
    · have truly : state.SendsTruly (index + 1) (.send (some ptr) msgLen msgPriority) ↔
          toInt32 msgLen.toNat < 0 := by
        simp [SendsTruly, positive, consistent.found, room]
      rw [truly]
      exact consistent.send_full ptr (by omega) msgPriority room

/-- The unlocked test changes no queue, and passes only when there is a message.
No other consumer can take that message away. -/
theorem recvTest (consistent : state.Consistent index) :
    (state.step (index + 1) .recvTest).Consistent index := by
  obtain ⟨wellFormed, opened, ring, tested, nonneg, delivered⟩ := consistent
  simp only [step, wellFormed.trfsMqGetNodeById_opened opened]
  split
  next first second _ found =>
    obtain rfl := Option.some.inj found
    refine ⟨wellFormed, opened, ring, ?_, nonneg, delivered⟩
    intro passed
    rw [Ne, ring.contents_eq_nil_iff]
    intro empty
    simp only [trfsMqRecvTest, empty] at passed
    split at passed <;> simp at passed
  next => exact ⟨wellFormed, opened, ring, tested, nonneg, delivered⟩

theorem recvTake (consistent : state.Consistent index) (out : Queued Ptr) :
    (state.step (index + 1) (.recvTake out)).Consistent index := by
  simp only [step, consistent.found]
  split
  next first second passed found =>
    obtain rfl := Option.some.inj found
    obtain ⟨oldest, later, held⟩ := List.exists_cons_of_ne_nil (consistent.tested passed)
    obtain ⟨_, taken, ring, left⟩ := trfsMqGetMsg_cons consistent.ring held false
    have delivered := consistent.delivered
    simp only [TrfsMqInfo.deliverable, held, List.map_cons] at delivered
    have nonneg : 0 ≤ toInt32 oldest.2 :=
      consistent.nonneg (oldest.1, toInt32 oldest.2) (by simp [← delivered])
    have wellFormed := consistent.wellFormed.receive (index + 1) out
    rw [MqTable.receive, consistent.found] at wellFormed
    dsimp only at wellFormed
    rw [trfsMqRecvTake_eq, taken] at wellFormed ⊢
    refine ⟨wellFormed, consistent.opened, ?_, ?_, consistent.nonneg, ?_⟩
    · simpa using ring
    · simp
    · simp [nonneg, TrfsMqInfo.deliverable, left, ← delivered]
  next => exact consistent

theorem start {table : MqTable Ptr} (wellFormed : table.WellFormed)
    (opened : index < table.numAfdxQs) {capacity : Int}
    (empty : (table.nodes index).Represents capacity []) :
    (Exchange.start table).Consistent index where
  wellFormed := wellFormed
  opened := opened
  ring := empty.invariant
  tested := by simp [Exchange.start]
  nonneg := by simp [Exchange.start]
  delivered := by simp [Exchange.start, TrfsMqInfo.deliverable, empty.contents]

theorem step (consistent : state.Consistent index) (action : ExchangeAction Ptr) :
    (state.KeepsDelivering (index + 1) action ↔ state.SendsTruly (index + 1) action) ∧
      (state.SendsTruly (index + 1) action →
        (state.step (index + 1) action).Consistent index) := by
  cases action with
  | send msgP msgLen msgPriority => exact consistent.send msgP msgLen msgPriority
  | recvTest =>
      have next := consistent.recvTest
      exact ⟨iff_of_true ⟨next.delivers, trivial⟩ trivial, fun _ => next⟩
  | recvTake out =>
      have next := consistent.recvTake out
      exact ⟨iff_of_true ⟨next.delivers, trivial⟩ trivial, fun _ => next⟩

end Consistent

end Exchange

/-- An interleaving of any producers and one consumer on a freshly opened queue
delivers at every state exactly when each of its sends is reported truly. -/
theorem delivers_along_iff (opened : OpenedQueue Ptr) :
    ∃ mqId index, opened.result.mqId = some mqId ∧
      trfsMqGetNodeById opened.result.table mqId = some index ∧
      ∀ interleaving : List (ExchangeAction Ptr),
        Along (Exchange.step mqId) (Exchange.KeepsDelivering mqId)
            (Exchange.start opened.result.table) interleaving ↔
          Along (Exchange.step mqId) (Exchange.SendsTruly mqId)
            (Exchange.start opened.result.table) interleaving := by
  obtain ⟨index, returned, below, wellFormed, empty⟩ := opened.result_spec
  refine ⟨index + 1, index, returned, wellFormed.trfsMqGetNodeById_opened below, ?_⟩
  apply along_iff (Exchange.Consistent index)
  · exact fun state action consistent => (consistent.step action).1
  · intro state action consistent keeps
    have step := consistent.step action
    exact step.2 (step.1.mp keeps)
  · exact Exchange.Consistent.start wellFormed below empty

def oneMessageQueue : OpenedQueue Nat :=
  ⟨[], ⟨1, 1, 100, 0, 0⟩, by decide, by decide⟩

/-- The second of two sends finds the queue full and still returns its length;
its message is nowhere. -/
theorem not_delivers_oneMessageQueue :
    oneMessageQueue.result.mqId = some 1 ∧
      (trfsMqSend (trfsMqSend oneMessageQueue.result.table 1 (some 10) 40 0).2 1
        (some 20) 48 0).1 = 48 ∧
      ¬ Along (Exchange.step 1) (Exchange.KeepsDelivering 1)
        (Exchange.start oneMessageQueue.result.table)
        [.send (some 10) 40 0, .send (some 20) 48 0] := by
  refine ⟨by decide, by decide, ?_⟩
  rintro ⟨_, ⟨delivers, _⟩, _⟩
  revert delivers
  unfold Exchange.Delivers
  decide

end Tracefs
