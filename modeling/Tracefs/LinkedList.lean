import Mathlib.Data.List.Nodup
import Mathlib.Logic.Function.Basic
import Mathlib.Tactic.Common

/-!
# Singly linked lists in a heap

A heap maps pointers to cells, a cell holds a value and a link, and a pointer that maps to nothing
is not allocated.  `Segment` says which nodes lie on the way from one link to another.  A list is a
segment that ends at the null link and visits no pointer twice, so that a change of one cell leaves
the segments before and behind it alone.
-/

namespace Tracefs.LinkedList

universe u v

variable {Ptr : Type u} {Value : Type v}

structure Cell (Ptr : Type u) (Value : Type v) where
  value : Value
  next : Option Ptr

abbrev Heap (Ptr : Type u) (Value : Type v) := Ptr → Option (Cell Ptr Value)

section Edits

variable [DecidableEq Ptr]

def store (heap : Heap Ptr Value) (ptr : Ptr) (cell : Cell Ptr Value) : Heap Ptr Value :=
  Function.update heap ptr (some cell)

def release (heap : Heap Ptr Value) (ptr : Ptr) : Heap Ptr Value := Function.update heap ptr none

/-- Write the link of a cell, if there is one. -/
def setNext (heap : Heap Ptr Value) (ptr : Ptr) (next : Option Ptr) : Option (Heap Ptr Value) :=
  (heap ptr).map fun cell => store heap ptr { cell with next := next }

@[simp] theorem store_same (heap : Heap Ptr Value) (ptr : Ptr) (cell : Cell Ptr Value) :
    store heap ptr cell ptr = some cell :=
  Function.update_self ..

theorem store_of_ne (heap : Heap Ptr Value) {ptr other : Ptr} (cell : Cell Ptr Value)
    (different : other ≠ ptr) : store heap ptr cell other = heap other :=
  Function.update_of_ne different ..

theorem release_of_ne (heap : Heap Ptr Value) {ptr other : Ptr} (different : other ≠ ptr) :
    release heap ptr other = heap other :=
  Function.update_of_ne different ..

theorem setNext_of_cell {heap : Heap Ptr Value} {ptr : Ptr} {cell : Cell Ptr Value}
    (allocated : heap ptr = some cell) (next : Option Ptr) :
    setNext heap ptr next = some (store heap ptr { cell with next := next }) := by
  rw [setNext, allocated, Option.map_some]

end Edits

/-- The nodes from a link up to the link `last`. -/
def Segment (heap : Heap Ptr Value) (last : Option Ptr) :
    Option Ptr → List (Ptr × Value) → Prop
  | link, [] => link = last
  | link, node :: nodes =>
      link = some node.1 ∧ ∃ next, heap node.1 = some ⟨node.2, next⟩ ∧ Segment heap last next nodes

variable {heap : Heap Ptr Value} {link last : Option Ptr} {nodes : List (Ptr × Value)}

theorem segment_append (first second : List (Ptr × Value)) :
    Segment heap last link (first ++ second) ↔
      ∃ middle, Segment heap middle link first ∧ Segment heap last middle second := by
  induction first generalizing link with
  | nil => simp [Segment]
  | cons node first inductionHypothesis =>
      simp only [List.cons_append, Segment, inductionHypothesis]
      constructor
      · rintro ⟨here, next, cell, middle, before, behind⟩
        exact ⟨middle, ⟨here, next, cell, before⟩, behind⟩
      · rintro ⟨middle, ⟨here, next, cell, before⟩, behind⟩
        exact ⟨here, next, cell, middle, before, behind⟩

/-- A segment only depends on the cells it passes. -/
theorem Segment.congr (segment : Segment heap last link nodes) {other : Heap Ptr Value}
    (same : ∀ node ∈ nodes, other node.1 = heap node.1) : Segment other last link nodes := by
  induction nodes generalizing link with
  | nil => exact segment
  | cons node nodes inductionHypothesis =>
      obtain ⟨here, next, cell, behind⟩ := segment
      refine ⟨here, next, ?_, inductionHypothesis behind ?_⟩
      · rw [same node (by simp), cell]
      · intro later member
        exact same later (List.mem_cons_of_mem node member)

/-- On the way to a node there is a first one. -/
theorem Segment.head {first rest : List (Ptr × Value)} {node : Ptr × Value}
    (segment : Segment heap last link (first ++ node :: rest)) :
    ∃ head ∈ first ++ [node], link = some head.1 ∧ ∃ next, heap head.1 = some ⟨head.2, next⟩ := by
  cases first with
  | nil =>
      obtain ⟨here, next, cell, _⟩ := segment
      exact ⟨node, by simp, here, next, cell⟩
  | cons head first =>
      obtain ⟨here, next, cell, _⟩ := segment
      exact ⟨head, by simp, here, next, cell⟩

theorem Segment.allocated (segment : Segment heap last link nodes) {node : Ptr × Value}
    (member : node ∈ nodes) : ∃ next, heap node.1 = some ⟨node.2, next⟩ := by
  obtain ⟨first, second, rfl⟩ := List.append_of_mem member
  obtain ⟨middle, _, _, next, cell, _⟩ := (segment_append first (node :: second)).mp segment
  exact ⟨next, cell⟩

structure IsList (heap : Heap Ptr Value) (head : Option Ptr) (nodes : List (Ptr × Value)) :
    Prop where
  segment : Segment heap none head nodes
  distinct : (nodes.map Prod.fst).Nodup

namespace IsList

variable {head : Option Ptr} {first rest : List (Ptr × Value)} {node : Ptr × Value}

/-- The way to a node of a list, its cell, and the way on. -/
theorem split (isList : IsList heap head (first ++ node :: rest)) :
    Segment heap (some node.1) head first ∧
      ∃ next, heap node.1 = some ⟨node.2, next⟩ ∧ Segment heap none next rest := by
  obtain ⟨middle, before, here, behind⟩ := (segment_append first (node :: rest)).mp isList.segment
  rw [here] at before
  exact ⟨before, behind⟩

/-- No other node of a list has the pointer of this one. -/
theorem apart (isList : IsList heap head (first ++ node :: rest)) :
    (∀ other ∈ first, other.1 ≠ node.1) ∧ ∀ other ∈ rest, other.1 ≠ node.1 := by
  have distinct := isList.distinct
  rw [List.map_append, List.map_cons, List.nodup_append] at distinct
  obtain ⟨_, behind, across⟩ := distinct
  constructor
  · intro other member
    exact across other.1 (List.mem_map_of_mem member) node.1 (by simp)
  · intro other member same
    apply (List.nodup_cons.mp behind).1
    rw [← same]
    exact List.mem_map_of_mem member

theorem not_mem_of_free (isList : IsList heap head nodes) {ptr : Ptr} (free : heap ptr = none) :
    ptr ∉ nodes.map Prod.fst := by
  intro member
  obtain ⟨node, inside, rfl⟩ := List.mem_map.mp member
  obtain ⟨next, cell⟩ := isList.segment.allocated inside
  rw [free] at cell
  cases cell

variable [DecidableEq Ptr]

theorem store_of_free (isList : IsList heap head nodes) {ptr : Ptr} (free : heap ptr = none)
    (cell : Cell Ptr Value) : IsList (store heap ptr cell) head nodes := by
  refine ⟨isList.segment.congr ?_, isList.distinct⟩
  intro node member
  apply store_of_ne
  intro same
  exact isList.not_mem_of_free free (List.mem_map.mpr ⟨node, member, same⟩)

theorem release_head (isList : IsList heap head (node :: rest)) {next : Option Ptr}
    (cell : heap node.1 = some ⟨node.2, next⟩) : IsList (release heap node.1) next rest := by
  obtain ⟨_, found, sameCell, behind⟩ := isList.segment
  rw [cell] at sameCell
  cases sameCell
  have distinct := List.nodup_cons.mp isList.distinct
  refine ⟨behind.congr ?_, distinct.2⟩
  intro later member
  apply release_of_ne
  intro same
  exact distinct.1 (List.mem_map.mpr ⟨later, member, same⟩)

/-- The last cell takes a link to a new one, which ends the list. -/
theorem link_last (isList : IsList heap head (first ++ [node])) (added : Ptr × Value)
    (fresh : added.1 ∉ (first ++ [node]).map Prod.fst) :
    IsList (store (store heap node.1 ⟨node.2, some added.1⟩) added.1 ⟨added.2, none⟩) head
      (first ++ [node] ++ [added]) := by
  have notAdded {other : Ptr × Value} (member : other ∈ first ++ [node]) : other.1 ≠ added.1 := by
    intro same
    exact fresh (same ▸ List.mem_map_of_mem member)
  refine ⟨?_, ?_⟩
  · rw [List.append_assoc]
    apply (segment_append first _).mpr
    refine ⟨some node.1, isList.split.1.congr ?_, rfl, some added.1, ?_, rfl, none,
      store_same .., rfl⟩
    · intro other member
      rw [store_of_ne _ _ (notAdded (List.mem_append_left _ member)),
        store_of_ne _ _ (isList.apart.1 other member)]
    · rw [store_of_ne _ _ (notAdded (by simp)), store_same]
  · rw [List.map_append, List.nodup_append]
    refine ⟨isList.distinct, List.nodup_singleton _, ?_⟩
    rintro ptr member _ single rfl
    rw [List.map_singleton, List.mem_singleton] at single
    exact fresh (single ▸ member)

/-- The cell before a node takes over its link. -/
theorem unlink {before : Ptr × Value} (isList : IsList heap head (first ++ before :: node :: rest))
    {next : Option Ptr} (cell : heap node.1 = some ⟨node.2, next⟩) :
    IsList (release (store heap before.1 ⟨before.2, next⟩) node.1) head
      (first ++ before :: rest) := by
  -- the list is split at both cells: one is written, the other is released
  have around : first ++ before :: node :: rest = (first ++ [before]) ++ node :: rest := by simp
  have isListAround := around ▸ isList
  obtain ⟨_, found, sameCell, behind⟩ := isListAround.split
  rw [cell] at sameCell
  cases sameCell
  obtain ⟨earlier, later⟩ := isList.apart
  obtain ⟨earlierNode, laterNode⟩ := isListAround.apart
  refine ⟨?_, ?_⟩
  · apply (segment_append first _).mpr
    refine ⟨some before.1, isList.split.1.congr ?_, rfl, next, ?_, behind.congr ?_⟩
    · intro other member
      rw [release_of_ne _ (earlierNode other (by simp [member])),
        store_of_ne _ _ (earlier other member)]
    · rw [release_of_ne _ (earlierNode before (by simp)), store_same]
    · intro other member
      rw [release_of_ne _ (laterNode other member),
        store_of_ne _ _ (later other (List.mem_cons_of_mem node member))]
  · have shorter : (first ++ before :: rest).Sublist (first ++ before :: node :: rest) :=
      (List.Sublist.refl first).append ((List.sublist_cons_self node rest).cons_cons before)
    exact List.Nodup.sublist (shorter.map Prod.fst) isList.distinct

end IsList

end Tracefs.LinkedList
