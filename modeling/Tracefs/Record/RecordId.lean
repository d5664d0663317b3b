import Tracefs.Transition
import Mathlib.Data.BitVec

/-!
# Record ids

`get_next_record_id` increments a static counter under a mutex and reads the
counter again, unlocked, for its result.  The two accesses are separate steps,
so that another task can run between them.
-/

namespace Tracefs

/-- A step of the task `task` inside `get_next_record_id`. -/
inductive IdAction where
  /-- `mutex_lock; id++; mutex_unlock` -/
  | increment (task : Nat)
  /-- `return id` -/
  | readBack (task : Nat)

/-- The static counter, the tasks between their two steps, and the ids returned
so far, oldest first. -/
structure IdCounter where
  id : BitVec 32
  pending : List Nat
  returned : List (BitVec 32)

namespace IdCounter

def start : IdCounter := ⟨1, [], []⟩

/-- One step; a task that is not at that point of the function does nothing. -/
def step (counter : IdCounter) : IdAction → IdCounter
  | .increment task =>
      if task ∈ counter.pending then counter
      else { counter with id := counter.id + 1, pending := task :: counter.pending }
  | .readBack task =>
      if task ∈ counter.pending then
        { counter with
          pending := counter.pending.erase task
          returned := counter.returned ++ [counter.id] }
      else counter

/-- The ids that `get_next_record_id` hands out in a run. -/
def handedOut (actions : List IdAction) : List (BitVec 32) :=
  (Transition.run step start actions).returned

/-- `count` calls, one after the other, by one task. -/
def getNextRecordId : (count : Nat) → List IdAction
  | 0 => []
  | count + 1 => .increment 0 :: .readBack 0 :: getNextRecordId count

/-- Undisturbed calls hand out consecutive ids: the induction is on the number
of calls still to come, for any ids returned before. -/
theorem run_getNextRecordId (count : Nat) (id : BitVec 32) (returned : List (BitVec 32)) :
    Transition.run step ⟨id, [], returned⟩ (getNextRecordId count) =
      ⟨id + BitVec.ofNat 32 count, [],
        returned ++ (List.range count).map fun index => id + BitVec.ofNat 32 (index + 1)⟩ := by
  induction count generalizing id returned with
  | zero => simp [getNextRecordId]
  | succ count inductionHypothesis =>
      have next : Transition.run step ⟨id, [], returned⟩ (getNextRecordId (count + 1)) =
          Transition.run step ⟨id + 1, [], returned ++ [id + 1]⟩ (getNextRecordId count) := by
        simp [getNextRecordId, step]
      have shift : ∀ index : Nat, id + 1#32 + BitVec.ofNat 32 index =
          id + BitVec.ofNat 32 (index + 1) := by
        intro index
        rw [BitVec.add_assoc, Nat.add_comm index, BitVec.ofNat_add]
      rw [next, inductionHypothesis, List.range_succ_eq_map]
      simp [shift, Function.comp_def]

end IdCounter

end Tracefs
