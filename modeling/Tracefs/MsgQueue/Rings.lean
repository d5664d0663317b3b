import Tracefs.MsgQueue.Fifo

/-!
# Every opened queue is a ring

Whatever has been done to the table since the module was loaded, the opened nodes keep the ring
invariant and the others are unopened.  So a receive either finds its queue empty or takes the
oldest message of it.
-/

namespace Tracefs

open Bytes Transition TrfsMqInfo

variable {Ptr : Type}

/-- The messages in a queue, if there is one with the id. -/
def MqTable.messages (table : MqTable Ptr) (mqId : Int) : List (Queued Ptr) :=
  match trfsMqGetNodeById table mqId with
  | none => []
  | some index => (table.nodes index).contents

theorem TrfsMqInfo.RingInvariant.call {node : TrfsMqInfo Ptr} (invariant : node.RingInvariant)
    (call : MqCall Ptr) : (node.call call).1.RingInvariant := by
  cases call with
  | put msgP msgLen priority =>
      by_cases full : node.attr.counter = node.attr.maxMsgs
      · simp only [TrfsMqInfo.call, trfsMqPutMsg_full full]
        exact invariant
      · have room := lt_of_le_of_ne invariant.counter.2 full
        exact (trfsMqPutMsg_room invariant room msgP msgLen priority).2.1
  | get copyOnly =>
      cases held : node.contents with
      | nil =>
          have empty := invariant.contents_eq_nil_iff.mp held
          simp only [TrfsMqInfo.call, trfsMqGetMsg_empty empty]
          exact invariant
      | cons oldest later => exact (trfsMqGetMsg_cons invariant held copyOnly).2.2.1

theorem TrfsMqInfo.Unopened.call {node : TrfsMqInfo Ptr} (unopened : node.Unopened)
    (call : MqCall Ptr) : (node.call call).1 = node := by
  cases call with
  | put msgP msgLen priority => simp only [TrfsMqInfo.call, unopened.trfsMqPutMsg]
  | get copyOnly => simp only [TrfsMqInfo.call, trfsMqGetMsg_empty unopened.counter]

theorem TrfsMqInfo.Changes.ringInvariant {node changed : TrfsMqInfo Ptr}
    (changes : node.Changes changed) (invariant : node.RingInvariant) :
    changed.RingInvariant := by
  cases changes with
  | put msgP msgLen priority => exact invariant.call (.put msgP msgLen priority)
  | take => exact invariant.call (.get false)
  | exitFlag flag =>
      obtain ⟨read, write, counter, behind⟩ := invariant
      exact ⟨read, write, counter, behind⟩

theorem TrfsMqInfo.call_mqId (node : TrfsMqInfo Ptr) (call : MqCall Ptr) :
    (node.call call).1.mqId = node.mqId := by
  cases call with
  | put msgP msgLen priority => exact trfsMqPutMsg_mqId node msgP msgLen priority
  | get copyOnly => exact trfsMqGetMsg_mqId node copyOnly

theorem TrfsMqInfo.call_maxMsgs (node : TrfsMqInfo Ptr) (call : MqCall Ptr) :
    (node.call call).1.attr.maxMsgs = node.attr.maxMsgs := by
  cases call with
  | put msgP msgLen priority => exact trfsMqPutMsg_maxMsgs node msgP msgLen priority
  | get copyOnly => exact trfsMqGetMsg_maxMsgs node copyOnly

namespace MqTable

variable {table : MqTable Ptr} {mqId : Int}

theorem messages_of_found {index : Nat} (found : trfsMqGetNodeById table mqId = some index) :
    table.messages mqId = (table.nodes index).contents := by
  simp only [messages, found]

theorem messages_setNode {index : Nat} (found : trfsMqGetNodeById table mqId = some index)
    {node : TrfsMqInfo Ptr} (sameId : node.mqId = (table.nodes index).mqId) :
    (table.setNode index node).messages mqId = node.contents := by
  have still := trfsMqGetNodeById_setNode table mqId sameId
  rw [messages_of_found (still.trans found), nodes_setNode_same]

structure Rings (table : MqTable Ptr) : Prop where
  wellFormed : table.WellFormed
  rings : ∀ index < table.numAfdxQs, (table.nodes index).RingInvariant

namespace Rings

theorem boot : (MqTable.boot : MqTable Ptr).Rings :=
  ⟨wellFormed_boot, fun _ below => absurd below (Nat.not_lt_zero _)⟩

theorem setNode (rings : table.Rings) (index : Nat) {node : TrfsMqInfo Ptr}
    (sameId : node.mqId = (table.nodes index).mqId)
    (stillUnopened : (table.nodes index).Unopened → node.Unopened)
    (stillRing : (table.nodes index).RingInvariant → node.RingInvariant) :
    (table.setNode index node).Rings where
  wellFormed := rings.wellFormed.setNode index sameId stillUnopened
  rings := by
    refine forall_nodes_setNode
      (P := fun index node => index < table.numAfdxQs → node.RingInvariant) rings.rings ?_
    intro ring below
    exact stillRing (ring below)

theorem call (rings : table.Rings) (index : Nat) (call : MqCall Ptr) :
    (table.setNode index ((table.nodes index).call call).1).Rings := by
  apply rings.setNode index (call_mqId _ call)
  · intro unopened
    rw [unopened.call]
    exact unopened
  · intro invariant
    exact invariant.call call

theorem addNode (rings : table.Rings) (room : table.numAfdxQs < trfsMqMaxNoOfQ)
    {mq : TrfsMqAttr} (positive : 0 < mq.maxMsgs) : (table.addNode mq).Rings where
  wellFormed := rings.wellFormed.addNode room mq
  rings := by
    refine forall_nodes_addNode (P := fun _ node => node.RingInvariant) ?_ rings.rings ?_
    · rintro _ _ _ ⟨read, write, counter, behind⟩
      exact ⟨read, write, counter, behind⟩
    · have slot := rings.wellFormed.unopened table.numAfdxQs le_rfl
      exact (Represents.openNode slot positive table.mqIdSeq).invariant

theorem changesQueue (rings : table.Rings) {after : MqTable Ptr}
    (changes : table.ChangesQueue mqId after) : after.Rings := by
  rcases changes with unchanged | ⟨index, node, _, changed, rfl⟩
  · rw [unchanged]
    exact rings
  · exact rings.setNode index changed.mqId changed.unopened changed.ringInvariant

theorem take (rings : table.Rings) (index : Nat) (out : Queued Ptr) :
    (table.setNode index (trfsMqRecvTake (table.nodes index) out).2.2).Rings := by
  rw [trfsMqRecvTake_eq]
  exact rings.call index (.get false)

theorem step (rings : table.Rings) (action : MqAction Ptr) : (table.step action).Rings := by
  rcases step_cases table action with ⟨_, _, changes⟩ | unchanged | ⟨attr, positive, room, opened⟩
  · exact rings.changesQueue changes
  · rw [unchanged]
    exact rings
  · rw [opened]
    exact rings.addNode room (attr.withDefaultFlags_maxMsgs.symm ▸ positive)

theorem contents_eq_nil_iff (rings : table.Rings) (index : Nat) :
    (table.nodes index).contents = [] ↔ (table.nodes index).attr.counter = 0 := by
  by_cases opened : index < table.numAfdxQs
  · exact (rings.rings index opened).contents_eq_nil_iff
  · have nothing := (rings.wellFormed.unopened index (Nat.le_of_not_lt opened)).counter
    simp [TrfsMqInfo.contents, Ring.contents, nothing]

theorem counter_nonneg (rings : table.Rings) (index : Nat) :
    0 ≤ (table.nodes index).attr.counter := by
  by_cases opened : index < table.numAfdxQs
  · exact (rings.rings index opened).counter.1
  · exact (rings.wellFormed.unopened index (Nat.le_of_not_lt opened)).counter.ge

/-- The locked part of a receive finds the queue empty and answers with what the caller's
variables held, or takes the oldest message. -/
theorem take_cases (rings : table.Rings) (index : Nat) (out : Queued Ptr) :
    ((table.nodes index).contents = [] ∧
        trfsMqRecvTake (table.nodes index) out = (out.2, out, table.nodes index)) ∨
      ∃ oldest later node, (table.nodes index).contents = oldest :: later ∧
        node.contents = later ∧ node.mqId = (table.nodes index).mqId ∧
        trfsMqRecvTake (table.nodes index) out =
          (toInt32 oldest.2, (oldest.1, toInt32 oldest.2), node) := by
  cases held : (table.nodes index).contents with
  | nil =>
      have empty := (rings.contents_eq_nil_iff index).mp held
      refine .inl ⟨rfl, ?_⟩
      rw [trfsMqRecvTake_eq, trfsMqGetMsg_empty empty]
      rfl
  | cons oldest later =>
      have counted : (table.nodes index).attr.counter ≠ 0 := by
        rw [Ne, ← rings.contents_eq_nil_iff index, held]
        exact List.cons_ne_nil oldest later
      have opened : index < table.numAfdxQs := by
        by_contra above
        exact counted (rings.wellFormed.unopened index (Nat.le_of_not_lt above)).counter
      obtain ⟨-, shown, -, left⟩ := trfsMqGetMsg_cons (rings.rings index opened) held false
      refine .inr ⟨oldest, later, (trfsMqGetMsg (table.nodes index) false).node, rfl, left,
        trfsMqGetMsg_mqId _ false, ?_⟩
      rw [trfsMqRecvTake_eq, shown]
      rfl

end Rings

theorem rings_after (actions : List (MqAction Ptr)) : (after actions).Rings :=
  run_invariant Rings (fun _ action rings => rings.step action) Rings.boot actions

end MqTable

end Tracefs
