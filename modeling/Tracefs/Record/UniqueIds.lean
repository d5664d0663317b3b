import Tracefs.Record.Emission
import Tracefs.Record.RecordId

/-!
# When record ids are unique

The value that `get_next_record_id` returns is read after the mutex has been
released.  A call therefore returns the number of increments made by then, its
own and those of others, and two calls return the same id exactly when their
read-backs have no increment between them.
-/

namespace Tracefs

open Bytes Transition

namespace IdAction

def isReadBack : IdAction → Bool
  | increment _ => false
  | readBack _ => true

/-- Not two read-backs in a row. -/
def Apart (first second : IdAction) : Prop := ¬ (first.isReadBack ∧ second.isReadBack)

end IdAction

namespace IdCounter

/-- The task is at the point of the function at which it takes the step. -/
def Enabled (counter : IdCounter) : IdAction → Prop
  | .increment task => task ∉ counter.pending
  | .readBack task => task ∈ counter.pending

/-- An interleaving of calls by any tasks, too few of them to wrap the counter. -/
structure Schedule where
  actions : List IdAction
  enabled : Along step Enabled start actions
  few : actions.countP (fun action => !action.isReadBack) < 2 ^ 32 - 1

/-- For each read-back the number of increments before it, counted from `made`. -/
def readCounts : (made : Nat) → List IdAction → List Nat
  | _, [] => []
  | made, .increment _ :: actions => readCounts (made + 1) actions
  | made, .readBack _ :: actions => made :: readCounts made actions

theorem readCounts_range {made count : Nat} {actions : List IdAction}
    (membership : count ∈ readCounts made actions) :
    made ≤ count ∧ count ≤ made + actions.countP fun action => !action.isReadBack := by
  induction actions generalizing made with
  | nil => simp [readCounts] at membership
  | cons action actions inductionHypothesis =>
      cases action with
      | increment task =>
          have later := inductionHypothesis membership
          rw [List.countP_cons_of_pos rfl]
          omega
      | readBack task =>
          rw [List.countP_cons_of_neg (by simp [IdAction.isReadBack])]
          rcases List.mem_cons.mp membership with rfl | later
          · omega
          · exact inductionHypothesis later

theorem mem_readCounts_iff (made : Nat) (actions : List IdAction) :
    made ∈ readCounts made actions ↔ ∃ task rest, actions = .readBack task :: rest := by
  cases actions with
  | nil => simp [readCounts]
  | cons action actions =>
      cases action with
      | increment task =>
          simp only [List.cons.injEq, reduceCtorEq, false_and, exists_false, iff_false]
          intro membership
          rw [readCounts] at membership
          have later := (readCounts_range membership).1
          omega
      | readBack task => simp [readCounts]

/-- The counts are distinct exactly when no two read-backs are adjacent.  By
induction on the schedule: a count is compared with the next action only. -/
theorem nodup_readCounts_iff (made : Nat) (actions : List IdAction) :
    (readCounts made actions).Nodup ↔ actions.IsChain IdAction.Apart := by
  induction actions generalizing made with
  | nil => simp [readCounts]
  | cons action actions inductionHypothesis =>
      cases action with
      | increment task =>
          have unaffected : (IdAction.increment task :: actions).IsChain IdAction.Apart ↔
              actions.IsChain IdAction.Apart := by
            cases actions <;> simp [IdAction.Apart, IdAction.isReadBack]
          rw [readCounts, inductionHypothesis, unaffected]
      | readBack task =>
          have next : (IdAction.readBack task :: actions).IsChain IdAction.Apart ↔
              made ∉ readCounts made actions ∧ actions.IsChain IdAction.Apart := by
            rw [mem_readCounts_iff]
            cases actions with
            | nil => simp
            | cons action actions => cases action <;> simp [IdAction.Apart, IdAction.isReadBack]
          rw [readCounts, List.nodup_cons, inductionHypothesis, next]

/-- What the calls of a run return: the start value and the increments made by
the time of the read-back. -/
theorem returned_run {counter : IdCounter} {actions : List IdAction}
    (enabled : Along step Enabled counter actions) {base : BitVec 32} {made : Nat}
    (id : counter.id = base + BitVec.ofNat 32 made) :
    (run step counter actions).returned =
      counter.returned ++
        (readCounts made actions).map fun count => base + BitVec.ofNat 32 count := by
  induction actions generalizing counter made with
  | nil => simp [readCounts]
  | cons action actions inductionHypothesis =>
      obtain ⟨first, rest⟩ := enabled
      rw [run_cons]
      cases action with
      | increment task =>
          have notInside : task ∉ counter.pending := first
          have next : (step counter (.increment task)).id = base + BitVec.ofNat 32 (made + 1) := by
            simp only [step, notInside, if_false, id]
            rw [BitVec.ofNat_add, BitVec.add_assoc]
            rfl
          rw [readCounts, inductionHypothesis rest next]
          simp [step, notInside]
      | readBack task =>
          have inside : task ∈ counter.pending := first
          have same : (step counter (.readBack task)).id = base + BitVec.ofNat 32 made := by
            simp [step, inside, id]
          rw [readCounts, inductionHypothesis rest same]
          simp [step, inside, id]

theorem handedOut_schedule (schedule : Schedule) :
    handedOut schedule.actions =
      (readCounts 0 schedule.actions).map fun count => 1#32 + BitVec.ofNat 32 count :=
  returned_run schedule.enabled (by simp [start])

/-- The counter does not come back to a value during the run. -/
theorem nodup_map_readCounts (schedule : Schedule) :
    ((readCounts 0 schedule.actions).map fun count => 1#32 + BitVec.ofNat 32 count).Nodup ↔
      (readCounts 0 schedule.actions).Nodup := by
  refine ⟨List.Nodup.of_map _, fun distinct => distinct.map_on ?_⟩
  intro first firstRead second secondRead same
  have few := schedule.few
  have firstRange := (readCounts_range firstRead).2
  have secondRange := (readCounts_range secondRead).2
  have counts := congrArg BitVec.toNat (add_left_cancel same)
  rw [BitVec.toNat_ofNat, BitVec.toNat_ofNat, Nat.mod_eq_of_lt (by omega),
    Nat.mod_eq_of_lt (by omega)] at counts
  exact counts

end IdCounter

open IdCounter in
/-- The ids handed out are distinct, and so are the `r_id` fields of the records
that carry them, exactly when no read-back directly follows another. -/
theorem recordIds_unique_iff (schedule : Schedule) :
    ((handedOut schedule.actions).Nodup ↔ schedule.actions.IsChain IdAction.Apart) ∧
      ∀ records : List TraceRecord, records.map TraceRecord.rId = handedOut schedule.actions →
        ((records.map fun record => record.encoder.decl.get record.memory 0 .rId).Nodup ↔
          schedule.actions.IsChain IdAction.Apart) := by
  have unique : (handedOut schedule.actions).Nodup ↔ schedule.actions.IsChain IdAction.Apart := by
    rw [handedOut_schedule, nodup_map_readCounts, nodup_readCounts_iff]
  refine ⟨unique, fun records carried => ?_⟩
  have stored : (records.map fun record => record.encoder.decl.get record.memory 0 .rId) =
      (handedOut schedule.actions).map BitVec.toNat := by
    rw [← carried, List.map_map]
    apply List.map_congr_left
    intro record _
    obtain ⟨idAt, idWidth, -⟩ := record.encoder.header
    rw [StructDecl.get, idAt, idWidth]
    exact record.encoder.fill_rId record.rId record.heap
  rw [stored, ← unique]
  exact List.nodup_map_iff fun _ _ same => BitVec.eq_of_toNat_eq same

/-- Two tasks that call the function one after the other get different ids. -/
theorem recordIds_unique_consecutive :
    ∃ (schedule : IdCounter.Schedule) (records : List TraceRecord),
      schedule.actions = [.increment 0, .readBack 0, .increment 1, .readBack 1] ∧
      records.map TraceRecord.rId = IdCounter.handedOut schedule.actions ∧
      (records.map fun record => record.encoder.decl.get record.memory 0 .rId).Nodup := by
  let schedule : IdCounter.Schedule :=
    ⟨[.increment 0, .readBack 0, .increment 1, .readBack 1],
      by simp [Along, IdCounter.Enabled, IdCounter.step, IdCounter.start], by decide⟩
  let record (rId : BitVec 32) : TraceRecord := ⟨.mkdir .a 0 0, 1, rId, fun _ => 0⟩
  have carried : [record 2, record 3].map TraceRecord.rId = IdCounter.handedOut schedule.actions :=
    rfl
  refine ⟨schedule, _, rfl, carried, ((recordIds_unique_iff schedule).2 _ carried).mpr ?_⟩
  simp [schedule, IdAction.Apart, IdAction.isReadBack]

/-- Two tasks that both increment before either reads get the same id. -/
theorem not_recordIds_unique_overlapping :
    ∃ schedule : IdCounter.Schedule,
      schedule.actions = [.increment 0, .increment 1, .readBack 0, .readBack 1] ∧
      IdCounter.handedOut schedule.actions = [3#32, 3#32] ∧
      ¬ (IdCounter.handedOut schedule.actions).Nodup := by
  refine ⟨⟨[.increment 0, .increment 1, .readBack 0, .readBack 1], ?_, ?_⟩, rfl, ?_, ?_⟩
  · simp [Along, IdCounter.Enabled, IdCounter.step, IdCounter.start]
  · decide
  · decide
  · decide

end Tracefs
