import Tracefs.Record.Emission

/-!
# Sequences of stores

What a byte of the buffer is after a sequence of stores: decided by a store that
covers it, otherwise what it was before.  Stores to disjoint places can all be
read back.
-/

namespace Tracefs

open Bytes

namespace Store

variable (decl : StructDecl Field)

def Covers (store : Store) (index : Nat) : Prop :=
  store.offset decl ≤ index ∧ index < store.offset decl + (store.bytes decl).length

theorem apply_of_covers {store : Store} {index : Nat} (covers : store.Covers decl index)
    (first second : Memory) : store.apply decl first index = store.apply decl second index := by
  obtain ⟨displacement, rfl⟩ := Nat.exists_eq_add_of_le covers.1
  have inside : displacement < (store.bytes decl).length := by
    have upper := covers.2
    omega
  rw [apply, apply, Memory.store_of_inside _ _ _ inside, Memory.store_of_inside _ _ _ inside]

theorem apply_of_not_covers {store : Store} {index : Nat} (uncovered : ¬ store.Covers decl index)
    (memory : Memory) : store.apply decl memory index = memory index := by
  apply Memory.store_of_outside
  rw [Covers] at uncovered
  omega

theorem foldl_of_not_covers {stores : List Store} {index : Nat}
    (uncovered : ∀ store ∈ stores, ¬ store.Covers decl index) (memory : Memory) :
    stores.foldl (Store.apply decl) memory index = memory index := by
  induction stores generalizing memory with
  | nil => rfl
  | cons store stores inductionHypothesis =>
      rw [List.foldl_cons, inductionHypothesis fun s hs => uncovered s (by simp [hs])]
      exact apply_of_not_covers decl (uncovered store (by simp)) memory

/-- Stores keep two memories equal where they are. -/
theorem foldl_congr (stores : List Store) {first second : Memory} {index : Nat}
    (same : first index = second index) :
    stores.foldl (Store.apply decl) first index = stores.foldl (Store.apply decl) second index := by
  induction stores generalizing first second with
  | nil => exact same
  | cons store stores inductionHypothesis =>
      apply inductionHypothesis
      by_cases covers : store.Covers decl index
      · exact apply_of_covers decl covers first second
      · rw [apply_of_not_covers decl covers, apply_of_not_covers decl covers, same]

/-- A byte that some store covers does not depend on what was there before. -/
theorem foldl_of_covers {stores : List Store} {index : Nat}
    (covered : ∃ store ∈ stores, store.Covers decl index) (first second : Memory) :
    stores.foldl (Store.apply decl) first index = stores.foldl (Store.apply decl) second index := by
  induction stores generalizing first second with
  | nil => simp at covered
  | cons store stores inductionHypothesis =>
      rw [List.foldl_cons, List.foldl_cons]
      by_cases later : ∃ store ∈ stores, store.Covers decl index
      · exact inductionHypothesis later _ _
      · have here : store.Covers decl index := by
          obtain ⟨other, membership, covers⟩ := covered
          rcases List.mem_cons.mp membership with rfl | behind
          · exact covers
          · exact absurd ⟨other, behind, covers⟩ later
        exact foldl_congr decl stores (apply_of_covers decl here first second)

/-- The two stores touch no byte in common. -/
def Apart (first second : Store) : Prop :=
  first.offset decl + (first.bytes decl).length ≤ second.offset decl ∨
    second.offset decl + (second.bytes decl).length ≤ first.offset decl

theorem not_covers_of_apart {first second : Store} (apart : first.Apart decl second) {index : Nat}
    (inside : index < (first.bytes decl).length) :
    ¬ second.Covers decl (first.offset decl + index) := by
  rintro ⟨lower, upper⟩
  rcases apart with before | behind
  · omega
  · omega

/-- What is stored to disjoint places can be read back; by induction on the
stores, those behind the one in question leaving its place alone. -/
theorem load_foldl_of_apart {stores : List Store} (apart : stores.Pairwise (Store.Apart decl))
    {store : Store} (membership : store ∈ stores) (memory : Memory) :
    (stores.foldl (Store.apply decl) memory).load (store.offset decl) (store.bytes decl).length =
      store.bytes decl := by
  induction stores generalizing memory with
  | nil => simp at membership
  | cons first stores inductionHypothesis =>
      obtain ⟨firstApart, restApart⟩ := List.pairwise_cons.mp apart
      rw [List.foldl_cons]
      rcases List.mem_cons.mp membership with rfl | later
      · have kept : (stores.foldl (Store.apply decl) (store.apply decl memory)).load
            (store.offset decl) (store.bytes decl).length =
              (store.apply decl memory).load (store.offset decl) (store.bytes decl).length := by
          apply Memory.load_congr
          intro index inside
          exact foldl_of_not_covers decl
            (fun other present => not_covers_of_apart decl (firstApart other present) inside) _
        rw [kept]
        exact Memory.load_store_same _ _ _
      · exact inductionHypothesis restApart later _

end Store

end Tracefs
