import Mathlib.Data.List.GetD
import Mathlib.Tactic.Common

/-!
# Byte-addressed memory

One object of a C program is a total map from offsets to bytes.  The map is
total on purpose: a store past the end of the allocated object is not lost, so
that a proof can say where it landed.  Bounds are stated by the client.
-/

namespace Tracefs.Bytes

/-- The bytes of one object and of what happens to lie behind it. -/
abbrev Memory := Nat → UInt8

namespace Memory

def store (memory : Memory) (offset : Nat) (bytes : List UInt8) : Memory :=
  fun address =>
    if offset ≤ address then bytes.getD (address - offset) (memory address)
    else memory address

def load (memory : Memory) (offset count : Nat) : List UInt8 :=
  (List.range count).map fun index => memory (offset + index)

theorem store_of_outside (memory : Memory) (offset : Nat) (bytes : List UInt8)
    {address : Nat} (outside : address < offset ∨ offset + bytes.length ≤ address) :
    memory.store offset bytes address = memory address := by
  unfold store
  split
  · rw [List.getD_eq_default]
    omega
  · rfl

theorem store_of_inside (memory : Memory) (offset : Nat) (bytes : List UInt8)
    {index : Nat} (inside : index < bytes.length) :
    memory.store offset bytes (offset + index) = bytes[index] := by
  simp [store, inside]

/-- A second store of the same bytes changes nothing. -/
theorem store_store (memory : Memory) (offset : Nat) (bytes : List UInt8) :
    (memory.store offset bytes).store offset bytes = memory.store offset bytes := by
  funext address
  by_cases inside : offset ≤ address ∧ address < offset + bytes.length
  · obtain ⟨index, rfl⟩ := Nat.exists_eq_add_of_le inside.1
    have short : index < bytes.length := by omega
    rw [store_of_inside _ _ _ short, store_of_inside _ _ _ short]
  · rw [store_of_outside _ _ _ (by omega)]

@[simp] theorem length_load (memory : Memory) (offset count : Nat) :
    (memory.load offset count).length = count := by
  simp [load]

@[simp] theorem getElem_load (memory : Memory) (offset count index : Nat)
    (bound : index < (memory.load offset count).length) :
    (memory.load offset count)[index] = memory (offset + index) := by
  simp [load]

@[simp] theorem load_zero (memory : Memory) (offset : Nat) :
    memory.load offset 0 = [] := rfl

theorem load_congr {first second : Memory} {offset count : Nat}
    (agree : ∀ index, index < count → first (offset + index) = second (offset + index)) :
    first.load offset count = second.load offset count := by
  apply List.map_congr_left
  intro index membership
  exact agree index (List.mem_range.mp membership)

theorem load_add (memory : Memory) (offset first second : Nat) :
    memory.load offset (first + second) =
      memory.load offset first ++ memory.load (offset + first) second := by
  simp [load, List.range_add, Nat.add_assoc, Function.comp_def]

theorem load_succ (memory : Memory) (offset count : Nat) :
    memory.load offset (count + 1) = memory offset :: memory.load (offset + 1) count := by
  rw [Nat.add_comm, load_add]
  rfl

theorem load_store_same (memory : Memory) (offset : Nat) (bytes : List UInt8) :
    (memory.store offset bytes).load offset bytes.length = bytes := by
  apply List.ext_getElem
  · simp
  · intro index _ bound
    simp [store_of_inside memory offset bytes bound]

theorem load_store_disjoint (memory : Memory) {offset start count : Nat}
    {bytes : List UInt8}
    (disjoint : start + count ≤ offset ∨ offset + bytes.length ≤ start) :
    (memory.store offset bytes).load start count = memory.load start count := by
  apply load_congr
  intro index bound
  exact store_of_outside memory offset bytes (by omega)

theorem take_load (memory : Memory) (offset count shorter : Nat) (bound : shorter ≤ count) :
    (memory.load offset count).take shorter = memory.load offset shorter := by
  obtain ⟨rest, rfl⟩ := Nat.exists_eq_add_of_le bound
  rw [load_add, List.take_left' (by simp)]

theorem drop_load (memory : Memory) (offset count skipped : Nat) (bound : skipped ≤ count) :
    (memory.load offset count).drop skipped =
      memory.load (offset + skipped) (count - skipped) := by
  obtain ⟨rest, rfl⟩ := Nat.exists_eq_add_of_le bound
  rw [load_add, List.drop_left' (by simp), Nat.add_sub_cancel_left]

/-- Two memories that agree on a range agree on every range inside it. -/
theorem load_within {first second : Memory} {offset base count start inner : Nat}
    (agree : first.load offset count = second.load base count)
    (bound : start + inner ≤ count) :
    first.load (offset + start) inner = second.load (base + start) inner := by
  have tails := congrArg (fun bytes => (bytes.drop start).take inner) agree
  simp only [drop_load _ _ _ _ (Nat.le_of_add_right_le bound)] at tails
  rwa [take_load _ _ _ _ (by omega), take_load _ _ _ _ (by omega)] at tails

theorem apply_within {first second : Memory} {offset base count index : Nat}
    (agree : first.load offset count = second.load base count) (bound : index < count) :
    first (offset + index) = second (base + index) := by
  have single : first.load (offset + index) 1 = second.load (base + index) 1 :=
    load_within agree bound
  simpa [load] using single

end Memory

end Tracefs.Bytes
