import Tracefs.MsgQueue.Basic
import Tracefs.Transition

/-!
# The queue table

Slots of the table are handed out in order and never taken back, so the table
splits at `numAfdxQs`: the queues before it carry the ids `1, 2, ...`, and the
slots from it on are as the loader zeroed them, up to their exit flag.
-/

namespace Tracefs

variable {Ptr : Type}

/-- What users of the queues do to the table.  A receive is its locked part,
which a receiver may reach in any state. -/
inductive MqAction (Ptr : Type) where
  | openQueue (mq : Option TrfsMqAttr) (mqIdGiven : Bool)
  | send (mqId : Int) (msgP : Option Ptr) (msgLen : BitVec 64) (msgPriority : Int)
  | receive (mqId : Int) (out : Option Ptr × Int)
  | setExitFlag (mqId : Int)
  | clearExitFlag (mqId : Int)

/-- The id a caller gives; an open gives none. -/
def MqAction.queue : MqAction Ptr → Option Int
  | .openQueue _ _ => none
  | .send mqId _ _ _ | .receive mqId _ | .setExitFlag mqId | .clearExitFlag mqId => some mqId

def MqTable.receive (table : MqTable Ptr) (mqId : Int) (out : Option Ptr × Int) : MqTable Ptr :=
  match trfsMqGetNodeById table mqId with
  | none => table
  | some index => table.setNode index (trfsMqRecvTake (table.nodes index) out).2.2

def MqTable.step (table : MqTable Ptr) : MqAction Ptr → MqTable Ptr
  | .openQueue mq mqIdGiven => (trfsMqOpen table mq mqIdGiven).table
  | .send mqId msgP msgLen msgPriority => (trfsMqSend table mqId msgP msgLen msgPriority).2
  | .receive mqId out => table.receive mqId out
  | .setExitFlag mqId => (trfsSetExitFlag table mqId).getD table
  | .clearExitFlag mqId => (trfsClearExitFlag table mqId).getD table

/-- A slot that no call has opened.  With no room and nothing queued it is full
and empty at once, so neither put nor get touches it. -/
structure TrfsMqInfo.Unopened (node : TrfsMqInfo Ptr) : Prop where
  mqId : node.mqId = 0
  maxMsgs : node.attr.maxMsgs = 0
  counter : node.attr.counter = 0
  readIndex : node.readIndex = 0
  writeIndex : node.writeIndex = 0

structure MqTable.WellFormed (table : MqTable Ptr) : Prop where
  bounded : table.numAfdxQs ≤ trfsMqMaxNoOfQ
  nextId : table.mqIdSeq = table.numAfdxQs + 1
  opened : ∀ index < table.numAfdxQs, (table.nodes index).mqId = index + 1
  unopened : ∀ index, table.numAfdxQs ≤ index → (table.nodes index).Unopened

namespace MqTable

@[simp] theorem nodes_setNode_same (table : MqTable Ptr) (index : Nat) (node : TrfsMqInfo Ptr) :
    (table.setNode index node).nodes index = node :=
  Function.update_self ..

theorem nodes_setNode_of_ne (table : MqTable Ptr) {index other : Nat} (node : TrfsMqInfo Ptr)
    (different : other ≠ index) : (table.setNode index node).nodes other = table.nodes other :=
  Function.update_of_ne different ..

@[simp] theorem setNode_self (table : MqTable Ptr) (index : Nat) :
    table.setNode index (table.nodes index) = table := by
  simp [setNode]

/-- What holds of all nodes holds of them still if the changed one keeps it. -/
theorem forall_nodes_setNode {table : MqTable Ptr} {P : Nat → TrfsMqInfo Ptr → Prop}
    (all : ∀ other, P other (table.nodes other)) {index : Nat} {node : TrfsMqInfo Ptr}
    (changed : P index (table.nodes index) → P index node) :
    ∀ other, P other ((table.setNode index node).nodes other) := by
  intro other
  by_cases same : other = index
  · rw [same, nodes_setNode_same]
    exact changed (all index)
  · rw [nodes_setNode_of_ne table node same]
    exact all other

theorem wellFormed_boot : (MqTable.boot : MqTable Ptr).WellFormed where
  bounded := Nat.zero_le _
  nextId := rfl
  opened := fun _ below => absurd below (Nat.not_lt_zero _)
  unopened := fun _ _ => ⟨rfl, rfl, rfl, rfl, rfl⟩

/-- Changing a node keeps the table well formed when the node keeps its id and
an unopened slot stays unopened. -/
theorem WellFormed.setNode {table : MqTable Ptr} (wellFormed : table.WellFormed) (index : Nat)
    {node : TrfsMqInfo Ptr} (sameId : node.mqId = (table.nodes index).mqId)
    (stillUnopened : (table.nodes index).Unopened → node.Unopened) :
    (table.setNode index node).WellFormed where
  bounded := wellFormed.bounded
  nextId := wellFormed.nextId
  opened := by
    refine forall_nodes_setNode
      (P := fun index node => index < table.numAfdxQs → node.mqId = index + 1)
      wellFormed.opened ?_
    intro opened below
    rw [sameId]
    exact opened below
  unopened := by
    refine forall_nodes_setNode (P := fun index node => table.numAfdxQs ≤ index → node.Unopened)
      wellFormed.unopened ?_
    intro unopened above
    exact stillUnopened (unopened above)

theorem WellFormed.trfsMqGetNodeById_opened {table : MqTable Ptr}
    (wellFormed : table.WellFormed) {index : Nat} (below : index < table.numAfdxQs) :
    trfsMqGetNodeById table (index + 1) = some index := by
  have inside : index < trfsMqMaxNoOfQ := lt_of_lt_of_le below wellFormed.bounded
  rw [trfsMqGetNodeById, List.find?_range_eq_some]
  refine ⟨by simp [wellFormed.opened index below], by simpa using inside, ?_⟩
  intro earlier before
  simp only [Bool.not_eq_eq_eq_not, Bool.not_true, decide_eq_false_iff_not,
    wellFormed.opened earlier (before.trans below)]
  omega

theorem nodes_addNode_new (table : MqTable Ptr) (mq : TrfsMqAttr) :
    (table.addNode mq).nodes table.numAfdxQs =
      openNode (table.nodes table.numAfdxQs) mq table.mqIdSeq := by
  rw [addNode]
  split
  next positive =>
    show (MqTable.setNode _ _ _).nodes _ = _
    rw [nodes_setNode_of_ne _ _ (by omega), nodes_setNode_same]
  next => exact nodes_setNode_same ..

theorem nodes_addNode_previous (table : MqTable Ptr) (mq : TrfsMqAttr) {index : Nat}
    (previous : index + 1 = table.numAfdxQs) :
    (table.addNode mq).nodes index =
      { table.nodes index with next := some table.numAfdxQs } := by
  have last : table.numAfdxQs - 1 = index := by omega
  have notNew : index ≠ table.numAfdxQs := by omega
  rw [addNode, if_pos (by omega : 0 < table.numAfdxQs), last]
  show (MqTable.setNode _ _ _).nodes _ = _
  rw [nodes_setNode_same, nodes_setNode_of_ne _ _ notNew]

theorem nodes_addNode_other (table : MqTable Ptr) (mq : TrfsMqAttr) {index : Nat}
    (notNew : index ≠ table.numAfdxQs) (notPrevious : index + 1 ≠ table.numAfdxQs) :
    (table.addNode mq).nodes index = table.nodes index := by
  rw [addNode]
  split
  next positive =>
    have notLast : index ≠ table.numAfdxQs - 1 := by omega
    show (MqTable.setNode _ _ _).nodes _ = _
    rw [nodes_setNode_of_ne _ _ notLast, nodes_setNode_of_ne _ _ notNew]
  next => exact nodes_setNode_of_ne _ _ notNew

/-- An open touches no slot before its own but for the link. -/
theorem nodes_addNode_of_ne (table : MqTable Ptr) (mq : TrfsMqAttr) {index : Nat}
    (different : index ≠ table.numAfdxQs) :
    ∃ next, (table.addNode mq).nodes index = { table.nodes index with next := next } := by
  by_cases previous : index + 1 = table.numAfdxQs
  · exact ⟨_, nodes_addNode_previous table mq previous⟩
  · exact ⟨_, nodes_addNode_other table mq different previous⟩

/-- What holds of the opened nodes holds of them still if it does not depend on the link and
the new node has it. -/
theorem forall_nodes_addNode {table : MqTable Ptr} {P : Nat → TrfsMqInfo Ptr → Prop}
    (linked : ∀ index node next, P index node → P index { node with next := next })
    (older : ∀ index < table.numAfdxQs, P index (table.nodes index)) {mq : TrfsMqAttr}
    (newest : P table.numAfdxQs
      (openNode (table.nodes table.numAfdxQs) mq table.mqIdSeq)) :
    ∀ index < (table.addNode mq).numAfdxQs, P index ((table.addNode mq).nodes index) := by
  intro index below
  rcases Nat.lt_succ_iff_lt_or_eq.mp below with before | rfl
  · obtain ⟨next, unchanged⟩ := nodes_addNode_of_ne table mq before.ne
    rw [unchanged]
    exact linked index _ next (older index before)
  · rw [nodes_addNode_new]
    exact newest

theorem WellFormed.addNode {table : MqTable Ptr} (wellFormed : table.WellFormed)
    (room : table.numAfdxQs < trfsMqMaxNoOfQ) (mq : TrfsMqAttr) :
    (table.addNode mq).WellFormed where
  bounded := room
  nextId := by
    show table.mqIdSeq + 1 = ((table.numAfdxQs + 1 : Nat) : Int) + 1
    rw [wellFormed.nextId]
    rfl
  opened := forall_nodes_addNode (P := fun index node => node.mqId = index + 1)
    (fun _ _ _ same => same) wellFormed.opened wellFormed.nextId
  unopened := by
    intro index above
    have later : table.numAfdxQs < index := above
    obtain ⟨next, unchanged⟩ := nodes_addNode_of_ne table mq later.ne'
    obtain ⟨noId, noRoom, nothing, read, write⟩ := wellFormed.unopened index later.le
    rw [unchanged]
    exact ⟨noId, noRoom, nothing, read, write⟩

end MqTable

theorem TrfsMqAttr.withDefaultFlags_maxMsgs (mq : TrfsMqAttr) :
    mq.withDefaultFlags.maxMsgs = mq.maxMsgs := by
  unfold withDefaultFlags
  split <;> rfl

/-- An open is refused and leaves the table alone, or takes the next slot. -/
theorem trfsMqOpen_cases (table : MqTable Ptr) (mq : Option TrfsMqAttr) (mqIdGiven : Bool) :
    ((trfsMqOpen table mq mqIdGiven).ret = trfsErrInvalidParam ∧
        (trfsMqOpen table mq mqIdGiven).table = table) ∨
      ∃ attr, mq = some attr ∧ 0 < attr.maxMsgs ∧ table.numAfdxQs < trfsMqMaxNoOfQ ∧
        trfsMqOpen table mq mqIdGiven =
          ⟨0, some attr.withDefaultFlags, some table.mqIdSeq,
            table.addNode attr.withDefaultFlags⟩ := by
  unfold trfsMqOpen
  split
  · exact .inl ⟨rfl, rfl⟩
  · exact .inl ⟨rfl, rfl⟩
  next attr =>
    split
    next => exact .inl ⟨rfl, rfl⟩
    next accepted =>
      dsimp only
      split
      next => exact .inl ⟨rfl, rfl⟩
      next room =>
        refine .inr ⟨attr, rfl, ?_, by omega, rfl⟩
        simp only [openRefused, decide_eq_true_eq, not_or] at accepted
        omega

theorem trfsMqPutMsg_mqId (node : TrfsMqInfo Ptr) (msgP : Option Ptr) (msgLen priority : Int) :
    (trfsMqPutMsg node msgP msgLen priority).2.mqId = node.mqId := by
  unfold trfsMqPutMsg
  split <;> rfl

theorem trfsMqGetMsg_mqId (node : TrfsMqInfo Ptr) (copyOnly : Bool) :
    (trfsMqGetMsg node copyOnly).node.mqId = node.mqId := by
  unfold trfsMqGetMsg
  split
  · rfl
  · cases copyOnly <;> rfl

theorem trfsMqRecvTake_mqId (node : TrfsMqInfo Ptr) (out : Option Ptr × Int) :
    (trfsMqRecvTake node out).2.2.mqId = node.mqId := by
  rw [trfsMqRecvTake_eq]
  exact trfsMqGetMsg_mqId node false

theorem TrfsMqInfo.Unopened.trfsMqPutMsg {node : TrfsMqInfo Ptr} (unopened : node.Unopened)
    (msgP : Option Ptr) (msgLen priority : Int) :
    Tracefs.trfsMqPutMsg node msgP msgLen priority = (trfsErrMqFull, node) := by
  rw [Tracefs.trfsMqPutMsg, if_pos (by rw [unopened.counter, unopened.maxMsgs])]

/-- What sends, receives and the exit flag do to a node. -/
inductive TrfsMqInfo.Changes (node : TrfsMqInfo Ptr) : TrfsMqInfo Ptr → Prop where
  | put (msgP : Option Ptr) (msgLen priority : Int) :
      node.Changes (trfsMqPutMsg node msgP msgLen priority).2
  | take : node.Changes (trfsMqGetMsg node false).node
  | exitFlag (flag : UInt8) :
      node.Changes { node with attr := { node.attr with exitFlag := flag } }

namespace TrfsMqInfo.Changes

variable {node changed : TrfsMqInfo Ptr}

theorem mqId (changes : node.Changes changed) : changed.mqId = node.mqId := by
  cases changes with
  | put msgP msgLen priority => exact trfsMqPutMsg_mqId node msgP msgLen priority
  | take => exact trfsMqGetMsg_mqId node false
  | exitFlag flag => rfl

theorem next (changes : node.Changes changed) : changed.next = node.next := by
  cases changes with
  | put msgP msgLen priority =>
      unfold trfsMqPutMsg
      split <;> rfl
  | take =>
      unfold trfsMqGetMsg
      split <;> rfl
  | exitFlag flag => rfl

theorem unopened (changes : node.Changes changed) (unopened : node.Unopened) :
    changed.Unopened := by
  cases changes with
  | put msgP msgLen priority =>
      rw [unopened.trfsMqPutMsg]
      exact unopened
  | take =>
      rw [trfsMqGetMsg, if_pos unopened.counter]
      exact unopened
  | exitFlag flag =>
      obtain ⟨noId, noRoom, nothing, read, write⟩ := unopened
      exact ⟨noId, noRoom, nothing, read, write⟩

end TrfsMqInfo.Changes

namespace MqTable

/-- At most the node found under an id is another afterwards. -/
def ChangesQueue (table : MqTable Ptr) (mqId : Int) (after : MqTable Ptr) : Prop :=
  after = table ∨ ∃ index node, trfsMqGetNodeById table mqId = some index ∧
    (table.nodes index).Changes node ∧ after = table.setNode index node

theorem changesQueue_send (table : MqTable Ptr) (mqId : Int) (msgP : Option Ptr)
    (msgLen : BitVec 64) (msgPriority : Int) :
    table.ChangesQueue mqId (trfsMqSend table mqId msgP msgLen msgPriority).2 := by
  unfold trfsMqSend
  split
  next => exact .inl rfl
  next =>
    split
    next => exact .inl rfl
    next index found =>
      refine .inr ⟨index, _, found, .put msgP (Bytes.toInt64 msgLen.toNat) msgPriority, ?_⟩
      dsimp only
      split <;> rfl

theorem changesQueue_receive (table : MqTable Ptr) (mqId : Int) (out : Option Ptr × Int) :
    table.ChangesQueue mqId (table.receive mqId out) := by
  unfold MqTable.receive
  split
  next => exact .inl rfl
  next index found =>
    refine .inr ⟨index, _, found, .take, ?_⟩
    rw [trfsMqRecvTake_eq]

theorem changesQueue_storeExitFlag (table : MqTable Ptr) (mqId : Int) (flag : UInt8) :
    table.ChangesQueue mqId ((storeExitFlag table mqId flag).getD table) := by
  unfold storeExitFlag
  cases found : trfsMqGetNodeById table mqId with
  | none => exact .inl rfl
  | some index => exact .inr ⟨index, _, found, .exitFlag flag, rfl⟩

theorem changesQueue_step (table : MqTable Ptr) {action : MqAction Ptr} {mqId : Int}
    (given : action.queue = some mqId) : table.ChangesQueue mqId (table.step action) := by
  cases action with
  | openQueue mq mqIdGiven => cases given
  | send _ msgP msgLen msgPriority =>
      cases given
      exact table.changesQueue_send mqId msgP msgLen msgPriority
  | receive _ out =>
      cases given
      exact table.changesQueue_receive mqId out
  | setExitFlag _ =>
      cases given
      exact table.changesQueue_storeExitFlag mqId 1
  | clearExitFlag _ =>
      cases given
      exact table.changesQueue_storeExitFlag mqId 0

/-- A step works on the queue whose id it was given, is a refused open, or hands out the next
slot. -/
theorem step_cases (table : MqTable Ptr) (action : MqAction Ptr) :
    (∃ mqId, action.queue = some mqId ∧ table.ChangesQueue mqId (table.step action)) ∨
      table.step action = table ∨
      ∃ attr : TrfsMqAttr, 0 < attr.maxMsgs ∧ table.numAfdxQs < trfsMqMaxNoOfQ ∧
        table.step action = table.addNode attr.withDefaultFlags := by
  cases action with
  | openQueue mq mqIdGiven =>
      rcases trfsMqOpen_cases table mq mqIdGiven with
        ⟨_, unchanged⟩ | ⟨attr, _, positive, room, opened⟩
      · exact .inr (.inl unchanged)
      · exact .inr (.inr ⟨attr, positive, room, congrArg OpenResult.table opened⟩)
  | _ => exact .inl ⟨_, rfl, table.changesQueue_step rfl⟩

theorem trfsMqGetNodeById_setNode (table : MqTable Ptr) (mqId : Int) {index : Nat}
    {node : TrfsMqInfo Ptr} (sameId : node.mqId = (table.nodes index).mqId) :
    trfsMqGetNodeById (table.setNode index node) mqId = trfsMqGetNodeById table mqId := by
  have sameIds (other : Nat) :
      ((table.setNode index node).nodes other).mqId = (table.nodes other).mqId := by
    by_cases same : other = index
    · rw [same, nodes_setNode_same, sameId]
    · rw [nodes_setNode_of_ne table node same]
  simp only [trfsMqGetNodeById, sameIds]

theorem ChangesQueue.trfsMqGetNodeById {table after : MqTable Ptr} {mqId : Int}
    (changes : table.ChangesQueue mqId after) (other : Int) :
    Tracefs.trfsMqGetNodeById after other = Tracefs.trfsMqGetNodeById table other := by
  rcases changes with unchanged | ⟨index, node, _, changed, rfl⟩
  · rw [unchanged]
  · exact trfsMqGetNodeById_setNode table other changed.mqId

theorem ChangesQueue.numAfdxQs {table after : MqTable Ptr} {mqId : Int}
    (changes : table.ChangesQueue mqId after) : after.numAfdxQs = table.numAfdxQs := by
  rcases changes with unchanged | ⟨index, node, _, _, rfl⟩
  · rw [unchanged]
  · rfl

theorem WellFormed.changesQueue {table after : MqTable Ptr} (wellFormed : table.WellFormed)
    {mqId : Int} (changes : table.ChangesQueue mqId after) : after.WellFormed := by
  rcases changes with unchanged | ⟨index, node, _, changed, rfl⟩
  · rw [unchanged]
    exact wellFormed
  · exact wellFormed.setNode index changed.mqId changed.unopened

theorem WellFormed.send {table : MqTable Ptr} (wellFormed : table.WellFormed) (mqId : Int)
    (msgP : Option Ptr) (msgLen : BitVec 64) (msgPriority : Int) :
    (trfsMqSend table mqId msgP msgLen msgPriority).2.WellFormed :=
  wellFormed.changesQueue (table.changesQueue_send mqId msgP msgLen msgPriority)

theorem WellFormed.receive {table : MqTable Ptr} (wellFormed : table.WellFormed) (mqId : Int)
    (out : Option Ptr × Int) : (table.receive mqId out).WellFormed :=
  wellFormed.changesQueue (table.changesQueue_receive mqId out)

theorem WellFormed.step {table : MqTable Ptr} (wellFormed : table.WellFormed)
    (action : MqAction Ptr) : (table.step action).WellFormed := by
  rcases step_cases table action with
    ⟨_, _, changes⟩ | unchanged | ⟨attr, _, room, opened⟩
  · exact wellFormed.changesQueue changes
  · rw [unchanged]
    exact wellFormed
  · rw [opened]
    exact wellFormed.addNode room attr.withDefaultFlags

/-- The table after any use of the queues since the module was loaded. -/
def after (actions : List (MqAction Ptr)) : MqTable Ptr :=
  Transition.run MqTable.step MqTable.boot actions

theorem wellFormed_after (actions : List (MqAction Ptr)) : (after actions).WellFormed :=
  Transition.run_invariant WellFormed (fun _ action wellFormed => wellFormed.step action)
    wellFormed_boot actions

end MqTable

end Tracefs
