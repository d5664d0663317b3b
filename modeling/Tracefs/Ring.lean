import Mathlib.Data.List.Basic
import Mathlib.Tactic.Linarith
import Mathlib.Logic.Function.Basic

/-!
# Circular buffers

The elements of a circular buffer are read from `start` on, `count` of them,
wrapping at `capacity`.  Indices are integers, as they are in the C code that
uses them; all lemmas are about indices in range.
-/

namespace Tracefs.Ring

universe u

variable {Element : Type u}

def contents (slots : Int → Element) (start count capacity : Int) : List Element :=
  (List.range count.toNat).map fun offset : Nat => slots ((start + offset) % capacity)

theorem emod_eq_ite {index capacity : Int} (nonneg : 0 ≤ index)
    (bounded : index < capacity + capacity) :
    index % capacity = if index < capacity then index else index - capacity := by
  split
  next below => exact Int.emod_eq_of_lt nonneg below
  next above =>
    rw [← Int.emod_eq_of_lt (a := index - capacity) (b := capacity) (by omega) (by omega),
      Int.sub_emod_right]

@[simp] theorem length_contents (slots : Int → Element) (start count capacity : Int) :
    (contents slots start count capacity).length = count.toNat := by
  simp [contents]

theorem contents_congr {first second : Int → Element} {start count capacity : Int}
    (agree : ∀ offset, 0 ≤ offset → offset < count →
      first ((start + offset) % capacity) = second ((start + offset) % capacity)) :
    contents first start count capacity = contents second start count capacity := by
  apply List.map_congr_left
  intro offset membership
  have bound := List.mem_range.mp membership
  exact agree offset (by omega) (by omega)

theorem contents_add_one (slots : Int → Element) {start count capacity : Int}
    (nonneg : 0 ≤ count) :
    contents slots start (count + 1) capacity =
      contents slots start count capacity ++ [slots ((start + count) % capacity)] := by
  have size : (count + 1).toNat = count.toNat + 1 := by omega
  simp [contents, size, List.range_succ, Int.toNat_of_nonneg nonneg]

theorem contents_update_unused (slots : Int → Element) (element : Element)
    {start count capacity : Int} (startRange : 0 ≤ start ∧ start < capacity)
    (countRange : 0 ≤ count ∧ count < capacity) :
    contents (Function.update slots ((start + count) % capacity) element) start count capacity =
      contents slots start count capacity := by
  apply contents_congr
  intro offset nonneg below
  apply Function.update_of_ne
  rw [emod_eq_ite (by omega) (by omega), emod_eq_ite (by omega) (by omega)]
  split <;> split <;> omega

theorem contents_put (slots : Int → Element) (element : Element) {start count capacity : Int}
    (startRange : 0 ≤ start ∧ start < capacity)
    (countRange : 0 ≤ count ∧ count < capacity) :
    contents (Function.update slots ((start + count) % capacity) element) start (count + 1)
        capacity =
      contents slots start count capacity ++ [element] := by
  rw [contents_add_one _ countRange.1, contents_update_unused slots element startRange countRange,
    Function.update_self]

theorem contents_get (slots : Int → Element) {start count capacity : Int}
    (startRange : 0 ≤ start ∧ start < capacity) (positive : 0 < count) :
    contents slots start count capacity =
      slots start :: contents slots ((start + 1) % capacity) (count - 1) capacity := by
  have size : count.toNat = (count - 1).toNat + 1 := by omega
  have first : (start + ((0 : Nat) : Int)) % capacity = start := by
    simpa using Int.emod_eq_of_lt startRange.1 startRange.2
  rw [contents, size, List.range_succ_eq_map, List.map_cons, first, List.map_map, contents]
  congr 1
  apply List.map_congr_left
  intro offset _
  rw [Function.comp_apply, Int.emod_add_emod, Int.add_assoc, Int.add_comm 1]
  rfl

/-- The index after `index`, computed with the remainder of C. -/
theorem next_tmod {index capacity : Int} (range : 0 ≤ index ∧ index < capacity) :
    (index + 1).tmod capacity = (index + 1) % capacity ∧
      0 ≤ (index + 1) % capacity ∧ (index + 1) % capacity < capacity := by
  refine ⟨Int.tmod_eq_emod_of_nonneg (by omega), Int.emod_nonneg _ (by omega), ?_⟩
  exact Int.emod_lt_of_pos _ (by omega)

theorem next_index {start count capacity : Int} :
    ((start + count) % capacity + 1) % capacity = (start + (count + 1)) % capacity := by
  rw [Int.emod_add_emod, Int.add_assoc]

theorem next_start {start count capacity : Int} :
    ((start + 1) % capacity + (count - 1)) % capacity = (start + count) % capacity := by
  rw [Int.emod_add_emod]
  congr 1
  omega

end Tracefs.Ring
