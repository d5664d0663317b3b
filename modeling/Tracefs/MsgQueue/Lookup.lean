import Tracefs.Loop
import Tracefs.MsgQueue.Table

/-!
# Finding a queue by its id

The table of queues is also a list: each opened node links to the next one.  The scan of the array
and the walk along the links are two builds of one function.  Both find the slot that an open took
when it handed out the id, because slots and ids are handed out together and in order.
-/

namespace Tracefs

open Loop Transition

variable {Ptr : Type}

/-- One turn of the loop over `next` of `trfs_mq_get_node_by_id`, in the build without
`TRFS_MQ_ARRAY`. -/
def walkTurn (table : MqTable Ptr) (mqId : Int) : Option Nat → Turn (Option Nat) (Option Nat)
  | none => .stops none
  | some tmp =>
      if (table.nodes tmp).mqId = mqId then .stops (some tmp)
      else .turns (table.nodes tmp).next

/-- The walk of `trfs_mq_get_node_by_id` from the first slot of the table. -/
def trfsMqWalkNodeById (fuel : Nat) (table : MqTable Ptr) (mqId : Int) : Option (Option Nat) :=
  runLoop (walkTurn table mqId) fuel (some 0)

/-- The id that a successful open stores for its caller, and the slot it took. -/
def MqTable.opened (table : MqTable Ptr) : MqAction Ptr → Option (Int × Nat)
  | .openQueue mq mqIdGiven =>
      let result := trfsMqOpen table mq mqIdGiven
      if result.ret = 0 then result.mqId.map fun mqId => (mqId, table.numAfdxQs) else none
  | _ => none

/-- A step of the table that also keeps a record of the successful opens. -/
def MqTable.recordedStep (state : MqTable Ptr × List (Int × Nat)) (action : MqAction Ptr) :
    MqTable Ptr × List (Int × Nat) :=
  (state.1.step action, state.2 ++ (state.1.opened action).toList)

/-- The successful opens since the module was loaded, oldest first. -/
def MqTable.opens (actions : List (MqAction Ptr)) : List (Int × Nat) :=
  (run MqTable.recordedStep (MqTable.boot, []) actions).2

namespace MqTable

theorem run_recordedStep_table (state : MqTable Ptr × List (Int × Nat))
    (actions : List (MqAction Ptr)) :
    (run recordedStep state actions).1 = run MqTable.step state.1 actions := by
  induction actions generalizing state with
  | nil => rfl
  | cons action actions inductionHypothesis =>
      exact inductionHypothesis (recordedStep state action)

/-- The link to a slot, or the null pointer behind the last opened one. -/
def slotLink (table : MqTable Ptr) (index : Nat) : Option Nat :=
  if index < table.numAfdxQs then some index else none

def Chained (table : MqTable Ptr) : Prop :=
  ∀ index, (table.nodes index).next = table.slotLink (index + 1)

/-- The ids and slots handed out so far. -/
def handedOut (table : MqTable Ptr) : List (Int × Nat) :=
  (List.range table.numAfdxQs).map fun slot : Nat => ((slot : Int) + 1, slot)

structure Recorded (table : MqTable Ptr) (record : List (Int × Nat)) : Prop where
  wellFormed : table.WellFormed
  chained : table.Chained
  record : record = table.handedOut

/-! ## The links -/

section Links

variable {table after : MqTable Ptr}

theorem Chained.changesQueue (chained : table.Chained) {mqId : Int}
    (changes : table.ChangesQueue mqId after) : after.Chained := by
  rcases changes with unchanged | ⟨index, node, _, changed, rfl⟩
  · rw [unchanged]
    exact chained
  refine forall_nodes_setNode (P := fun index node => node.next = table.slotLink (index + 1))
    chained ?_
  intro link
  rw [changed.next]
  exact link

theorem Chained.addNode (chained : table.Chained) (mq : TrfsMqAttr) :
    (table.addNode mq).Chained := by
  intro index
  show _ = if index + 1 < table.numAfdxQs + 1 then some (index + 1) else none
  by_cases newest : index = table.numAfdxQs
  · rw [newest, nodes_addNode_new, if_neg (Nat.lt_irrefl _)]
    rfl
  by_cases previous : index + 1 = table.numAfdxQs
  · rw [nodes_addNode_previous table mq previous, previous, if_pos (Nat.lt_succ_self _)]
  · rw [nodes_addNode_other table mq newest previous, chained index, slotLink]
    exact if_congr (by omega) rfl rfl

end Links

/-! ## The two searches -/

section Searches

variable {table : MqTable Ptr} {mqId : Int}

theorem runLoop_walkTurn (chained : table.Chained) (mqId : Int) {index left : Nat}
    (reach : index + left = table.numAfdxQs) :
    runLoop (walkTurn table mqId) (left + 1) (table.slotLink index) =
      some ((List.range' index left).find? fun slot => (table.nodes slot).mqId = mqId) := by
  -- the walk and the search of the slots that are left go on together
  induction left generalizing index with
  | zero =>
      have behind : table.slotLink index = none := if_neg (by omega)
      rw [behind]
      exact runLoop_of_stops rfl 0
  | succ left inductionHypothesis =>
      have here : table.slotLink index = some index := if_pos (by omega)
      rw [here, List.range'_succ, List.find?_cons]
      by_cases found : (table.nodes index).mqId = mqId
      · have stops : walkTurn table mqId (some index) = .stops (some index) := if_pos found
        rw [runLoop_of_stops stops]
        simp [found]
      · have follows : Follows (walkTurn table mqId) (some index) (table.slotLink (index + 1)) := by
          rw [Follows, walkTurn, if_neg found, chained index]
        rw [runLoop_of_follows follows, inductionHypothesis (by omega)]
        simp [found]

theorem mqId_of_found {index : Nat} (found : trfsMqGetNodeById table mqId = some index) :
    (table.nodes index).mqId = mqId := by
  simpa using List.find?_some found

theorem WellFormed.trfsMqGetNodeById_iff (wellFormed : table.WellFormed) (positive : 1 ≤ mqId)
    (slot : Nat) :
    trfsMqGetNodeById table mqId = some slot ↔ slot < table.numAfdxQs ∧ mqId = slot + 1 := by
  constructor
  · intro found
    have matched := mqId_of_found found
    by_cases opened : slot < table.numAfdxQs
    · exact ⟨opened, by rw [← matched, wellFormed.opened slot opened]⟩
    · rw [(wellFormed.unopened slot (Nat.le_of_not_lt opened)).mqId] at matched
      omega
  · rintro ⟨opened, rfl⟩
    exact wellFormed.trfsMqGetNodeById_opened opened

/-- Behind the opened slots no id matches, so the scan may stop there. -/
theorem WellFormed.trfsMqGetNodeById_eq (wellFormed : table.WellFormed) (positive : 1 ≤ mqId) :
    trfsMqGetNodeById table mqId =
      (List.range table.numAfdxQs).find? fun slot => (table.nodes slot).mqId = mqId := by
  obtain ⟨rest, total⟩ := Nat.exists_eq_add_of_le wellFormed.bounded
  have unmatched : ((List.range rest).map (table.numAfdxQs + ·)).find?
      (fun slot => (table.nodes slot).mqId = mqId) = none := by
    simp only [List.find?_eq_none, List.mem_map, decide_eq_true_eq]
    rintro _ ⟨offset, _, rfl⟩ matched
    have unopened := wellFormed.unopened (table.numAfdxQs + offset) (Nat.le_add_right _ _)
    rw [unopened.mqId] at matched
    omega
  rw [trfsMqGetNodeById, total, List.range_add, List.find?_append, unmatched, Option.or_none]

theorem WellFormed.trfsMqWalkNodeById_eq (wellFormed : table.WellFormed)
    (chained : table.Chained) (positive : 1 ≤ mqId) {fuel : Nat} (enough : trfsMqMaxNoOfQ < fuel) :
    trfsMqWalkNodeById fuel table mqId = some (trfsMqGetNodeById table mqId) := by
  rw [trfsMqWalkNodeById, wellFormed.trfsMqGetNodeById_eq positive, List.range_eq_range']
  rcases Nat.eq_zero_or_pos table.numAfdxQs with empty | nonempty
  · -- the walk starts at the first slot even if no queue is open yet
    have unmatched : (table.nodes 0).mqId ≠ mqId := by
      rw [(wellFormed.unopened 0 empty.le).mqId]
      omega
    have follows : Follows (walkTurn table mqId) (some 0) none := by
      rw [Follows, walkTurn, if_neg unmatched, chained 0, slotLink, empty]
      rfl
    have ended : runLoop (walkTurn table mqId) 2 (some 0) = some none := by
      rw [runLoop_of_follows follows]
      exact runLoop_of_stops rfl 0
    have room : 2 ≤ fuel := Nat.le_trans (by decide) enough.le
    rw [empty, ← Nat.add_sub_of_le room]
    exact runLoop_add ended _
  · have ended := runLoop_walkTurn chained mqId (Nat.zero_add table.numAfdxQs)
    have first : table.slotLink 0 = some 0 := if_pos nonempty
    have room : table.numAfdxQs + 1 ≤ fuel := Nat.lt_of_le_of_lt wellFormed.bounded enough
    rw [first] at ended
    rw [← Nat.add_sub_of_le room]
    exact runLoop_add ended _

end Searches

/-! ## Whole runs -/

section Runs

variable {table : MqTable Ptr}

theorem opened_of_queue {action : MqAction Ptr} {mqId : Int} (given : action.queue = some mqId) :
    table.opened action = none := by
  cases action with
  | openQueue mq mqIdGiven => cases given
  | _ => rfl

/-- An open is refused and hands out nothing, or hands out the next id with the next slot. -/
theorem opened_cases (wellFormed : table.WellFormed) (mq : Option TrfsMqAttr) (mqIdGiven : Bool) :
    (table.step (.openQueue mq mqIdGiven) = table ∧
        table.opened (.openQueue mq mqIdGiven) = none) ∨
      ∃ attr, table.step (.openQueue mq mqIdGiven) = table.addNode attr ∧
        table.opened (.openQueue mq mqIdGiven) =
          some ((table.numAfdxQs : Int) + 1, table.numAfdxQs) := by
  rcases trfsMqOpen_cases table mq mqIdGiven with ⟨refused, unchanged⟩ | ⟨attr, _, _, _, opened⟩
  · have failed : (trfsMqOpen table mq mqIdGiven).ret ≠ 0 := by
      rw [refused]
      decide
    exact .inl ⟨unchanged, if_neg failed⟩
  · refine .inr ⟨attr.withDefaultFlags, congrArg OpenResult.table opened, ?_⟩
    simp only [MqTable.opened, opened, if_true, Option.map_some, wellFormed.nextId]

theorem handedOut_addNode (table : MqTable Ptr) (mq : TrfsMqAttr) :
    (table.addNode mq).handedOut =
      table.handedOut ++ [((table.numAfdxQs : Int) + 1, table.numAfdxQs)] := by
  show (List.range (table.numAfdxQs + 1)).map _ = _
  rw [List.range_succ, List.map_append]
  rfl

theorem mem_handedOut (table : MqTable Ptr) (mqId : Int) (slot : Nat) :
    (mqId, slot) ∈ table.handedOut ↔ slot < table.numAfdxQs ∧ mqId = slot + 1 := by
  simp only [handedOut, List.mem_map, List.mem_range, Prod.mk.injEq]
  constructor
  · rintro ⟨taken, opened, rfl, rfl⟩
    exact ⟨opened, rfl⟩
  · rintro ⟨opened, rfl⟩
    exact ⟨slot, opened, rfl, rfl⟩

theorem nodup_handedOut (table : MqTable Ptr) : (table.handedOut.map Prod.fst).Nodup := by
  rw [handedOut, List.map_map]
  apply List.nodup_range.map
  intro first second same
  have shifted : (first : Int) + 1 = second + 1 := same
  omega

theorem Recorded.serve {record : List (Int × Nat)} (recorded : Recorded table record)
    {action : MqAction Ptr} {mqId : Int} (given : action.queue = some mqId) :
    Recorded (table.step action) (record ++ (table.opened action).toList) := by
  have changes := table.changesQueue_step given
  rw [opened_of_queue given, Option.toList_none, List.append_nil]
  refine ⟨recorded.wellFormed.changesQueue changes, recorded.chained.changesQueue changes, ?_⟩
  rw [handedOut, changes.numAfdxQs]
  exact recorded.record

theorem Recorded.step {record : List (Int × Nat)} (recorded : Recorded table record)
    (action : MqAction Ptr) :
    Recorded (table.step action) (record ++ (table.opened action).toList) := by
  cases action with
  | openQueue mq mqIdGiven =>
      rcases opened_cases recorded.wellFormed mq mqIdGiven with
        ⟨unchanged, nothing⟩ | ⟨attr, added, handed⟩
      · rw [nothing, unchanged, Option.toList_none, List.append_nil]
        exact recorded
      · have still := recorded.wellFormed.step (.openQueue mq mqIdGiven)
        rw [added] at still ⊢
        refine ⟨still, recorded.chained.addNode attr, ?_⟩
        rw [handed, recorded.record, handedOut_addNode]
        rfl
  | _ => exact recorded.serve rfl

theorem recorded_boot : Recorded (MqTable.boot : MqTable Ptr) [] :=
  ⟨wellFormed_boot, fun _ => rfl, rfl⟩

theorem recorded_after (actions : List (MqAction Ptr)) :
    Recorded (after actions) (opens actions) := by
  let Kept (state : MqTable Ptr × List (Int × Nat)) : Prop := Recorded state.1 state.2
  have initially : Kept (MqTable.boot, []) := recorded_boot
  have recorded : Kept (run recordedStep (MqTable.boot, []) actions) :=
    run_invariant Kept (fun _ action recorded => recorded.step action) initially actions
  rw [after, ← run_recordedStep_table (MqTable.boot, [])]
  exact recorded

/-- What an action does to the queue it is given, or to the slot it opens, no other queue sees. -/
theorem WellFormed.nodes_step_other (wellFormed : table.WellFormed) {action : MqAction Ptr}
    {slot : Nat} (opened : slot < table.numAfdxQs) (other : action.queue ≠ some (slot + 1)) :
    ∃ next, (table.step action).nodes slot = { table.nodes slot with next := next } := by
  rcases step_cases table action with
    ⟨mqId, given, unchanged | ⟨index, node, found, _, changed⟩⟩ | unchanged | ⟨attr, _, _, added⟩
  · exact ⟨_, congrArg (fun table => table.nodes slot) unchanged⟩
  · have different : slot ≠ index := by
      rintro rfl
      rw [given, ← mqId_of_found found, wellFormed.opened slot opened] at other
      exact other rfl
    refine ⟨(table.nodes slot).next, ?_⟩
    rw [changed, nodes_setNode_of_ne table node different]
  · exact ⟨_, congrArg (fun table => table.nodes slot) unchanged⟩
  · rw [added]
    exact nodes_addNode_of_ne table attr.withDefaultFlags opened.ne

end Runs

end MqTable

/-- After any use of the queues the ids handed out are positive and distinct, either search finds
exactly the slot opened under an id, and the next action leaves every queue but its own alone up
to the link. -/
theorem queues_by_id (actions : List (MqAction Ptr)) :
    ((MqTable.opens actions).map Prod.fst).Nodup ∧
      (∀ mqId slot, (mqId, slot) ∈ MqTable.opens actions → 1 ≤ mqId) ∧
      (∀ mqId, 1 ≤ mqId →
        (∀ slot, trfsMqGetNodeById (MqTable.after actions) mqId = some slot ↔
          (mqId, slot) ∈ MqTable.opens actions) ∧
        ∀ fuel, trfsMqMaxNoOfQ < fuel →
          trfsMqWalkNodeById fuel (MqTable.after actions) mqId =
            some (trfsMqGetNodeById (MqTable.after actions) mqId)) ∧
      ∀ action mqId slot, (mqId, slot) ∈ MqTable.opens actions → action.queue ≠ some mqId →
        ∃ next, ((MqTable.after actions).step action).nodes slot =
          { (MqTable.after actions).nodes slot with next := next } := by
  obtain ⟨wellFormed, chained, record⟩ := MqTable.recorded_after actions
  rw [record]
  refine ⟨MqTable.nodup_handedOut _, ?_, ?_, ?_⟩
  · intro mqId slot handed
    obtain ⟨_, rfl⟩ := (MqTable.mem_handedOut _ mqId slot).mp handed
    omega
  · intro mqId positive
    refine ⟨fun slot => ?_, fun fuel enough => ?_⟩
    · rw [MqTable.mem_handedOut]
      exact wellFormed.trfsMqGetNodeById_iff positive slot
    · exact wellFormed.trfsMqWalkNodeById_eq chained positive enough
  · intro action mqId slot handed other
    obtain ⟨opened, rfl⟩ := (MqTable.mem_handedOut _ mqId slot).mp handed
    exact wellFormed.nodes_step_other opened other

/-- Two queues with a refused open and a send between them. -/
def twoOpens : List (MqAction Nat) :=
  [.openQueue (some ⟨0, 4, 8, 0, 0⟩) true, .openQueue none true, .send 1 (some 7) 3 0,
    .openQueue (some ⟨0, 4, 8, 0, 0⟩) true]

theorem queues_by_id_two :
    MqTable.opens twoOpens = [(1, 0), (2, 1)] ∧
      trfsMqGetNodeById (MqTable.after twoOpens) 2 = some 1 ∧
      trfsMqWalkNodeById 13 (MqTable.after twoOpens) 2 = some (some 1) ∧
      ∃ next, ((MqTable.after twoOpens).step (.send 2 (some 9) 5 0)).nodes 0 =
        { (MqTable.after twoOpens).nodes 0 with next := next } := by
  have handed : MqTable.opens twoOpens = [(1, 0), (2, 1)] := by decide
  have scan : trfsMqGetNodeById (MqTable.after twoOpens) 2 = some 1 := by
    apply (((queues_by_id twoOpens).2.2.1 2 (by decide)).1 1).mpr
    rw [handed]
    decide
  refine ⟨handed, scan, ?_, ?_⟩
  · rw [((queues_by_id twoOpens).2.2.1 2 (by decide)).2 13 (by decide), scan]
  · apply (queues_by_id twoOpens).2.2.2 (.send 2 (some 9) 5 0) 1 0
    · rw [handed]
      decide
    · decide

end Tracefs
