import Mathlib.Data.List.Basic
import Mathlib.Logic.Function.Basic
import Mathlib.Order.Nat

/-!
# Caches of directory entries

A cache holds nodes, each with a parent, a name and, unless it is negative, an inode.  A lookup
finds the hashed nodes only, and finds at most one because no two of them have the same place.
-/

namespace Tracefs.NameCache

universe u v

structure Node (Name : Type u) (Inode : Type v) where
  parent : Nat
  name : Name
  inode : Option Inode
  hashed : Bool

/-- Nodes are known by the order of their allocation.  The first is the root. -/
structure Cache (Name : Type u) (Inode : Type v) where
  count : Nat
  node : Nat → Node Name Inode

namespace Cache

variable {Name : Type u} {Inode : Type v}

/-- A cache with a root and nothing else. -/
def start (name : Name) (inode : Inode) : Cache Name Inode :=
  ⟨1, fun dentry => ⟨0, name, some inode, dentry = 0⟩⟩

/-- A lookup of `name` in `dir` may find `dentry`. -/
def Names (cache : Cache Name Inode) (dir : Nat) (name : Name) (dentry : Nat) : Prop :=
  dentry ≠ 0 ∧ (cache.node dentry).hashed = true ∧ (cache.node dentry).parent = dir ∧
    (cache.node dentry).name = name

instance [DecidableEq Name] (cache : Cache Name Inode) (dir : Nat) (name : Name) (dentry : Nat) :
    Decidable (cache.Names dir name dentry) := by
  unfold Names
  infer_instance

def dLookup [DecidableEq Name] (cache : Cache Name Inode) (dir : Nat) (name : Name) :
    Option Nat :=
  (List.range cache.count).find? fun dentry => cache.Names dir name dentry

/-- The node a path leads to. -/
def resolve [DecidableEq Name] (cache : Cache Name Inode) (path : List Name) : Option Nat :=
  path.foldlM cache.dLookup 0

/-- There is an entry under `dir` that exists. -/
def hasChild (cache : Cache Name Inode) (dir : Nat) : Bool :=
  (List.range cache.count).any fun dentry =>
    dentry ≠ 0 ∧ (cache.node dentry).hashed = true ∧ (cache.node dentry).inode.isSome ∧
      (cache.node dentry).parent = dir

def set (cache : Cache Name Inode) (dentry : Nat) (node : Node Name Inode) : Cache Name Inode :=
  { cache with node := Function.update cache.node dentry node }

/-- The new node is the last one. -/
def dAlloc (cache : Cache Name Inode) (dir : Nat) (name : Name) : Cache Name Inode :=
  ⟨cache.count + 1, Function.update cache.node cache.count ⟨dir, name, none, false⟩⟩

/-- `d_alloc`, then `d_add`. -/
def enter (cache : Cache Name Inode) (dir : Nat) (name : Name) (inode : Option Inode) :
    Cache Name Inode :=
  ⟨cache.count + 1, Function.update cache.node cache.count ⟨dir, name, inode, true⟩⟩

def dInstantiate (cache : Cache Name Inode) (dentry : Nat) (inode : Option Inode) :
    Cache Name Inode :=
  cache.set dentry { cache.node dentry with inode := inode }

def dAdd (cache : Cache Name Inode) (dentry : Nat) (inode : Option Inode) : Cache Name Inode :=
  cache.set dentry { cache.node dentry with inode := inode, hashed := true }

def dDrop (cache : Cache Name Inode) (dentry : Nat) : Cache Name Inode :=
  cache.set dentry { cache.node dentry with hashed := false }

/-- The node takes the place of the target, which is unhashed and gets the parent of the node. -/
def dMove (cache : Cache Name Inode) (dentry target : Nat) : Cache Name Inode :=
  (cache.set dentry { cache.node dentry with
    parent := (cache.node target).parent, name := (cache.node target).name, hashed := true }).set
    target { cache.node target with parent := (cache.node dentry).parent, hashed := false }

/-- Hashed nodes are allocated, and no two of them have the same place. -/
structure WellFormed (cache : Cache Name Inode) : Prop where
  root : (cache.node 0).hashed = true
  bounded : ∀ dentry, (cache.node dentry).hashed = true → dentry < cache.count
  unique : ∀ dir name first second, cache.Names dir name first → cache.Names dir name second →
    first = second

theorem wellFormed_start (name : Name) (inode : Inode) : (start name inode).WellFormed where
  root := rfl
  bounded := by
    intro dentry hashed
    simp only [start, decide_eq_true_eq] at hashed ⊢
    exact Nat.lt_one_iff.mpr hashed
  unique := by
    rintro dir place first second ⟨notRoot, hashed, -⟩ -
    exact absurd (of_decide_eq_true hashed) notRoot

variable {cache : Cache Name Inode}

theorem node_set (dentry other : Nat) (node : Node Name Inode) :
    (cache.set dentry node).node other = if other = dentry then node else cache.node other :=
  Function.update_apply _ _ _ _

theorem node_set_self (dentry : Nat) (node : Node Name Inode) :
    (cache.set dentry node).node dentry = node := by
  rw [node_set, if_pos rfl]

theorem node_set_of_ne {dentry other : Nat} (node : Node Name Inode) (ne : other ≠ dentry) :
    (cache.set dentry node).node other = cache.node other := by
  rw [node_set, if_neg ne]

theorem node_enter_self (dir : Nat) (name : Name) (inode : Option Inode) :
    (cache.enter dir name inode).node cache.count = ⟨dir, name, inode, true⟩ :=
  Function.update_self _ _ _

theorem node_enter_of_ne {dentry : Nat} (dir : Nat) (name : Name) (inode : Option Inode)
    (ne : dentry ≠ cache.count) : (cache.enter dir name inode).node dentry = cache.node dentry :=
  Function.update_of_ne ne _ _

theorem node_dAlloc_of_ne {dentry : Nat} (dir : Nat) (name : Name) (ne : dentry ≠ cache.count) :
    (cache.dAlloc dir name).node dentry = cache.node dentry :=
  Function.update_of_ne ne _ _

theorem node_dAlloc_self (dir : Nat) (name : Name) :
    (cache.dAlloc dir name).node cache.count = ⟨dir, name, none, false⟩ :=
  Function.update_self _ _ _

section Move

variable {dentry target : Nat}

theorem node_dMove (apart : dentry ≠ target) :
    (cache.dMove dentry target).node dentry = { cache.node dentry with
      parent := (cache.node target).parent, name := (cache.node target).name, hashed := true } := by
  rw [dMove, node_set_of_ne _ apart, node_set_self]

theorem node_dMove_target :
    (cache.dMove dentry target).node target = { cache.node target with
      parent := (cache.node dentry).parent, hashed := false } := by
  rw [dMove, node_set_self]

theorem node_dMove_of_ne {other : Nat} (notDentry : other ≠ dentry) (notTarget : other ≠ target) :
    (cache.dMove dentry target).node other = cache.node other := by
  rw [dMove, node_set_of_ne _ notTarget, node_set_of_ne _ notDentry]

end Move

/-! What is hashed after a change. -/

section Hashed

variable {dentry other : Nat}

theorem hashed_dDrop : ((cache.dDrop dentry).node other).hashed = true ↔
    other ≠ dentry ∧ (cache.node other).hashed = true := by
  rw [dDrop, node_set]
  split
  next same => simp [same]
  next different => simp [different]

theorem hashed_dAdd {inode : Option Inode} :
    ((cache.dAdd dentry inode).node other).hashed = true ↔
      other = dentry ∨ (cache.node other).hashed = true := by
  rw [dAdd, node_set]
  split
  next same => simp [same]
  next different => simp [different]

theorem hashed_dAlloc {dir : Nat} {name : Name} :
    ((cache.dAlloc dir name).node other).hashed = true ↔
      other ≠ cache.count ∧ (cache.node other).hashed = true := by
  by_cases new : other = cache.count
  · simp [new, node_dAlloc_self]
  · simp [new, node_dAlloc_of_ne]

theorem hashed_dMove {target : Nat} (apart : dentry ≠ target) :
    ((cache.dMove dentry target).node other).hashed = true ↔
      other ≠ target ∧ (other = dentry ∨ (cache.node other).hashed = true) := by
  by_cases isTarget : other = target
  · simp [isTarget, node_dMove_target]
  · by_cases isDentry : other = dentry
    · simp [isDentry, apart, node_dMove]
    · simp [isTarget, isDentry, node_dMove_of_ne]

end Hashed

theorem Names.congr {other : Cache Name Inode} {dir dentry : Nat} {name : Name}
    (names : cache.Names dir name dentry) (same : other.node dentry = cache.node dentry) :
    other.Names dir name dentry := by
  rw [Names, same]
  exact names

theorem names_of_dLookup [DecidableEq Name] {dir dentry : Nat} {name : Name}
    (found : cache.dLookup dir name = some dentry) : cache.Names dir name dentry := by
  have satisfied := List.find?_some found
  exact of_decide_eq_true satisfied

namespace WellFormed

variable (wellFormed : cache.WellFormed)

include wellFormed

theorem lt_count {dir dentry : Nat} {name : Name} (names : cache.Names dir name dentry) :
    dentry < cache.count := wellFormed.bounded dentry names.2.1

theorem count_pos : 0 < cache.count := wellFormed.bounded 0 wellFormed.root

section Lookup

variable [DecidableEq Name]

theorem dLookup_eq_some {dir dentry : Nat} {name : Name} :
    cache.dLookup dir name = some dentry ↔ cache.Names dir name dentry := by
  constructor
  · exact names_of_dLookup
  · intro names
    cases found : cache.dLookup dir name with
    | none =>
        have missed := List.find?_eq_none.mp found dentry
          (List.mem_range.mpr (wellFormed.lt_count names))
        exact absurd (decide_eq_true names) missed
    | some other =>
        rw [wellFormed.unique dir name other dentry (names_of_dLookup found) names]

theorem dLookup_eq_none {dir : Nat} {name : Name} :
    cache.dLookup dir name = none ↔ ∀ dentry, ¬ cache.Names dir name dentry := by
  rw [Option.eq_none_iff_forall_ne_some]
  exact forall_congr' fun dentry => not_congr wellFormed.dLookup_eq_some

end Lookup

theorem hasChild_of_mem {dir dentry : Nat} (notRoot : dentry ≠ 0)
    (hashed : (cache.node dentry).hashed = true) (positive : (cache.node dentry).inode.isSome)
    (parent : (cache.node dentry).parent = dir) : cache.hasChild dir = true := by
  rw [hasChild, List.any_eq_true]
  exact ⟨dentry, List.mem_range.mpr (wellFormed.bounded dentry hashed),
    decide_eq_true ⟨notRoot, hashed, positive, parent⟩⟩

/-- A change that hashes nothing new and moves nothing keeps a cache well-formed. -/
theorem of_places {other : Cache Name Inode} (grown : cache.count ≤ other.count)
    (root : (other.node 0).hashed = true)
    (places : ∀ dentry, (other.node dentry).hashed = true →
      (cache.node dentry).hashed = true ∧ (other.node dentry).parent = (cache.node dentry).parent ∧
        (other.node dentry).name = (cache.node dentry).name) : other.WellFormed where
  root := root
  bounded := fun dentry hashed =>
    Nat.lt_of_lt_of_le (wellFormed.bounded dentry (places dentry hashed).1) grown
  unique := by
    have back {dir dentry : Nat} {name : Name} (names : other.Names dir name dentry) :
        cache.Names dir name dentry := by
      obtain ⟨notRoot, hashed, parent, named⟩ := names
      obtain ⟨before, sameParent, sameName⟩ := places dentry hashed
      exact ⟨notRoot, before, sameParent.symm.trans parent, sameName.symm.trans named⟩
    exact fun dir name first second one two =>
      wellFormed.unique dir name first second (back one) (back two)

theorem dInstantiate (dentry : Nat) (inode : Option Inode) :
    (cache.dInstantiate dentry inode).WellFormed := by
  refine wellFormed.of_places le_rfl ?_ fun other hashed => ?_
  · rw [Cache.dInstantiate, node_set]
    split
    next same => exact same ▸ wellFormed.root
    next => exact wellFormed.root
  · rw [Cache.dInstantiate, node_set] at hashed ⊢
    split at hashed
    next same =>
      subst same
      exact ⟨hashed, by simp⟩
    next different =>
      rw [if_neg different]
      exact ⟨hashed, rfl, rfl⟩

theorem dDrop {dentry : Nat} (notRoot : dentry ≠ 0) : (cache.dDrop dentry).WellFormed := by
  refine wellFormed.of_places le_rfl ?_ fun other hashed => ?_
  · rw [Cache.dDrop, node_set_of_ne _ notRoot.symm]
    exact wellFormed.root
  · obtain ⟨different, before⟩ := hashed_dDrop.mp hashed
    rw [Cache.dDrop, node_set_of_ne _ different]
    exact ⟨before, rfl, rfl⟩

theorem dAlloc (dir : Nat) (name : Name) : (cache.dAlloc dir name).WellFormed := by
  refine wellFormed.of_places (Nat.le_succ _) ?_ fun other hashed => ?_
  · rw [node_dAlloc_of_ne _ _ wellFormed.count_pos.ne]
    exact wellFormed.root
  · obtain ⟨different, before⟩ := hashed_dAlloc.mp hashed
    rw [node_dAlloc_of_ne _ _ different]
    exact ⟨before, rfl, rfl⟩

/-- Nodes may be hashed at a place where there is none. -/
theorem of_placed (other : Cache Name Inode) (grown : cache.count ≤ other.count) {placed : Nat}
    (allocated : placed < other.count) (notRoot : placed ≠ 0)
    (free : ∀ dentry, cache.Names (other.node placed).parent (other.node placed).name dentry →
      dentry = placed ∨ (other.node dentry).hashed = false)
    (same : ∀ dentry, dentry ≠ placed → (other.node dentry).hashed = true →
      other.node dentry = cache.node dentry)
    (root : (other.node 0).hashed = true) : other.WellFormed where
  root := root
  bounded := by
    intro dentry hashed
    by_cases isPlaced : dentry = placed
    · exact isPlaced ▸ allocated
    · rw [same dentry isPlaced hashed] at hashed
      exact Nat.lt_of_lt_of_le (wellFormed.bounded dentry hashed) grown
  unique := by
    -- another node at the place of `placed` was there before
    have only {dir dentry : Nat} {name : Name} (atPlace : other.Names dir name placed)
        (names : other.Names dir name dentry) : dentry = placed := by
      by_contra different
      obtain ⟨-, -, rfl, rfl⟩ := atPlace
      rcases free dentry (names.congr (same dentry different names.2.1).symm) with
        rfl | unhashed
      · exact different rfl
      · exact absurd names.2.1 (Bool.eq_false_iff.mp unhashed)
    intro dir name first second one two
    by_cases firstPlaced : first = placed
    · subst firstPlaced
      exact (only one two).symm
    · by_cases secondPlaced : second = placed
      · subst secondPlaced
        exact only two one
      · exact wellFormed.unique dir name first second
          (one.congr (same first firstPlaced one.2.1).symm)
          (two.congr (same second secondPlaced two.2.1).symm)

theorem enter {dir : Nat} {name : Name} (free : ∀ dentry, ¬ cache.Names dir name dentry)
    (inode : Option Inode) : (cache.enter dir name inode).WellFormed := by
  apply wellFormed.of_placed (cache.enter dir name inode) (Nat.le_succ _) (Nat.lt_succ_self _)
    wellFormed.count_pos.ne'
  · intro dentry names
    rw [node_enter_self] at names
    exact absurd names (free dentry)
  · exact fun dentry different _ => node_enter_of_ne _ _ _ different
  · rw [node_enter_of_ne _ _ _ wellFormed.count_pos.ne]
    exact wellFormed.root

theorem names_enter (dir : Nat) (name : Name) (inode : Option Inode) :
    (cache.enter dir name inode).Names dir name cache.count := by
  rw [Names, node_enter_self]
  exact ⟨wellFormed.count_pos.ne', rfl, rfl, rfl⟩

theorem dAdd {dentry : Nat} (notRoot : dentry ≠ 0) (allocated : dentry < cache.count)
    (sole : ∀ other, cache.Names (cache.node dentry).parent (cache.node dentry).name other →
      other = dentry) (inode : Option Inode) : (cache.dAdd dentry inode).WellFormed := by
  apply wellFormed.of_placed (cache.dAdd dentry inode) le_rfl allocated notRoot
  · intro other names
    rw [Cache.dAdd, node_set_self] at names
    exact .inl (sole other names)
  · exact fun other different _ => node_set_of_ne _ different
  · rw [Cache.dAdd, node_set_of_ne _ notRoot.symm]
    exact wellFormed.root

theorem dMove {dentry target : Nat} (notRoot : dentry ≠ 0) (allocated : dentry < cache.count)
    (targetNotRoot : target ≠ 0) (apart : dentry ≠ target)
    (sole : ∀ other, cache.Names (cache.node target).parent (cache.node target).name other →
      other = target) : (cache.dMove dentry target).WellFormed := by
  apply wellFormed.of_placed (cache.dMove dentry target) le_rfl allocated notRoot
  · intro other names
    rw [node_dMove apart] at names
    obtain rfl := sole other names
    exact .inr (by rw [node_dMove_target])
  · intro other different hashed
    exact node_dMove_of_ne different ((hashed_dMove apart).mp hashed).1
  · rw [node_dMove_of_ne notRoot.symm targetNotRoot.symm]
    exact wellFormed.root

end WellFormed

end Cache

end Tracefs.NameCache
