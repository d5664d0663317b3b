import Tracefs.Balance
import Tracefs.Vfs.Operations
import Mathlib.Tactic.Abel

/-!
# References on lower inodes

A trfs inode keeps one reference on its lower inode, from `trfs_iget` until it is
evicted.  The callers of `trfs_iget` lend it the lower inode, but for the NFS
support, which has looked it up and owns a reference.
-/

namespace Tracefs

open Balance Transition

namespace Err

def eacces : Err := BitVec.ofInt 32 (-13)

def estale : Err := BitVec.ofInt 32 (-116)

def exdev : Err := BitVec.ofInt 32 (-18)

end Err

/-- Whether `iget5_locked` can allocate an inode, if it needs one, and whether
`igrab` succeeds. -/
structure InodeOutcomes where
  allocated : Bool
  grabbed : Bool

/-- The `lower_inode` of every trfs inode, and how many references trfs has taken
and not dropped on each lower inode. -/
structure InodeTable (Lower : Type) where
  inodes : List (Option Lower)
  held : Lower → Int

/-- What `iget5_locked` returns: nothing, an inode it has found or a new one. -/
inductive Iget5 where
  | null
  | cached (inode : Nat)
  | new

namespace InodeTable

variable {Lower : Type} [DecidableEq Lower]

def empty : InodeTable Lower := ⟨[], fun _ => 0⟩

def igrab (table : InodeTable Lower) (lower : Lower) : InodeTable Lower :=
  { table with held := table.held + unit lower }

def iput (table : InodeTable Lower) : Option Lower → InodeTable Lower
  | none => table
  | some lower => { table with held := table.held - unit lower }

def newInode (table : InodeTable Lower) (lower : Option Lower) : InodeTable Lower :=
  { table with inodes := table.inodes ++ [lower] }

/-- `trfs_inode_test` asks for the same `lower_inode`. -/
def iget5Locked (table : InodeTable Lower) (lower : Lower) (allocated : Bool) : Iget5 :=
  match table.inodes.idxOf? (some lower) with
  | some inode => .cached inode
  | none => if allocated then .new else .null

/-- A new inode whose lower inode cannot be grabbed stays, without a `lower_inode`. -/
def trfsIget (table : InodeTable Lower) (lower : Lower) (outcomes : InodeOutcomes) :
    Except Err Nat × InodeTable Lower :=
  match table.iget5Locked lower outcomes.allocated with
  | .null => (.error .eacces, table.iput lower)
  | .cached inode => (.ok inode, table)
  | .new =>
      if outcomes.grabbed then
        (.ok table.inodes.length, (table.igrab lower).newInode (some lower))
      else (.error .estale, table.newInode none)

/-- `__trfs_interpose` up to `d_splice_alias`, which gets the inode.  `crossed`
says that the lower inode belongs to another superblock. -/
def trfsInterpose (table : InodeTable Lower) (lower : Lower) (crossed : Bool)
    (outcomes : InodeOutcomes) : Except Err Nat × InodeTable Lower :=
  if crossed then (.error .exdev, table) else table.trfsIget lower outcomes

def trfsEvictInode (table : InodeTable Lower) (inode : Nat) : InodeTable Lower :=
  let lower := table.inodes.getD inode none
  InodeTable.iput { table with inodes := table.inodes.set inode none } lower

/-- `ilookup` takes a reference on what it finds.  Without a lower inode
`trfs_iget` reads the inode number through a null pointer. -/
def trfsNfsGetInode (table : InodeTable Lower) (found : Option Lower)
    (outcomes : InodeOutcomes) : Option (Except Err Nat × InodeTable Lower) :=
  found.map fun lower => (table.igrab lower).trfsIget lower outcomes

end InodeTable

/-- The calls that touch references on lower inodes: at a mount, at an
interposition, at an eviction and for a file handle. -/
inductive InodeCall (Lower : Type) where
  | root (lower : Lower) (outcomes : InodeOutcomes)
  | interpose (lower : Lower) (crossed : Bool) (outcomes : InodeOutcomes)
  | evict (inode : Nat)
  | nfs (found : Option Lower) (outcomes : InodeOutcomes)

namespace InodeTable

variable {Lower : Type} [DecidableEq Lower]

/-- The table after a call, unless the call dereferences a null pointer. -/
def perform (table : InodeTable Lower) : InodeCall Lower → Option (InodeTable Lower)
  | .root lower outcomes => some (table.trfsIget lower outcomes).2
  | .interpose lower crossed outcomes => some (table.trfsInterpose lower crossed outcomes).2
  | .evict inode => some (table.trfsEvictInode inode)
  | .nfs found outcomes => (table.trfsNfsGetInode found outcomes).map Prod.snd

def step (table : InodeTable Lower) (call : InodeCall Lower) : InodeTable Lower :=
  (table.perform call).getD table

/-- References beyond one for each trfs inode. -/
def excess (table : InodeTable Lower) : Lower → Int := table.held - stored table.inodes

/-- One reference for each trfs inode that has the lower inode. -/
def Balanced (table : InodeTable Lower) : Prop :=
  ∀ lower, table.held lower = table.inodes.count (some lower)

/-- The call dereferences no null pointer and leaves the references balanced. -/
def KeepsBalance (table : InodeTable Lower) (call : InodeCall Lower) : Prop :=
  ∃ next, table.perform call = some next ∧ next.Balanced

/-- A lent inode is found or there is memory for a new one.  A file handle names a
lower inode that is neither known nor gets an inode. -/
def Sound (table : InodeTable Lower) : InodeCall Lower → Prop
  | .root lower outcomes => some lower ∈ table.inodes ∨ outcomes.allocated
  | .interpose lower crossed outcomes =>
      crossed ∨ some lower ∈ table.inodes ∨ outcomes.allocated
  | .evict _ => True
  | .nfs found outcomes =>
      ∃ lower, found = some lower ∧ ¬ (some lower ∈ table.inodes ∨ outcomes.allocated)

theorem balanced_iff_excess {table : InodeTable Lower} : table.Balanced ↔ table.excess = 0 := by
  rw [excess, sub_eq_zero]
  exact funext_iff.symm

@[simp] theorem inodes_igrab (table : InodeTable Lower) (lower : Lower) :
    (table.igrab lower).inodes = table.inodes := rfl

@[simp] theorem excess_igrab (table : InodeTable Lower) (lower : Lower) :
    (table.igrab lower).excess = table.excess + unit lower := by
  simp only [excess, igrab]
  abel

@[simp] theorem excess_iput (table : InodeTable Lower) (lower : Option Lower) :
    (table.iput lower).excess = table.excess - lower.elim 0 unit := by
  cases lower with
  | none => simp [iput]
  | some lower =>
      simp only [excess, iput, Option.elim_some]
      abel

@[simp] theorem excess_newInode (table : InodeTable Lower) (lower : Option Lower) :
    (table.newInode lower).excess = table.excess - lower.elim 0 unit := by
  simp only [excess, newInode, stored_append]
  abel

theorem iget5Locked_cases (table : InodeTable Lower) (lower : Lower) (allocated : Bool) :
    (some lower ∈ table.inodes ∧ ∃ inode, table.iget5Locked lower allocated = .cached inode) ∨
      (some lower ∉ table.inodes ∧ allocated = true ∧
        table.iget5Locked lower allocated = .new) ∨
      (some lower ∉ table.inodes ∧ allocated = false ∧
        table.iget5Locked lower allocated = .null) := by
  cases found : table.inodes.idxOf? (some lower) with
  | none =>
      have missing : some lower ∉ table.inodes := List.idxOf?_eq_none_iff.mp found
      cases allocated <;> simp [iget5Locked, found, missing]
  | some inode =>
      have present : some lower ∈ table.inodes := by
        by_contra missing
        rw [List.idxOf?_eq_none_iff.mpr missing] at found
        cases found
      exact .inl ⟨present, inode, by rw [iget5Locked, found]⟩

/-- `trfs_iget` loses a reference exactly when there is no inode to return. -/
theorem excess_trfsIget (table : InodeTable Lower) (lower : Lower) (outcomes : InodeOutcomes) :
    (table.trfsIget lower outcomes).2.excess =
      table.excess - if some lower ∈ table.inodes ∨ outcomes.allocated then 0 else unit lower := by
  rcases table.iget5Locked_cases lower outcomes.allocated with
    ⟨present, inode, found⟩ | ⟨missing, allocated, new⟩ | ⟨missing, unallocated, null⟩
  · rw [trfsIget, found]
    simp [present]
  · rw [trfsIget, new]
    cases outcomes.grabbed with
    | true => simp [allocated]
    | false => simp [allocated]
  · rw [trfsIget, null]
    simp [missing, unallocated]

theorem excess_trfsEvictInode (table : InodeTable Lower) (inode : Nat) :
    (table.trfsEvictInode inode).excess = table.excess := by
  rw [trfsEvictInode, excess_iput]
  simp only [excess, stored_clear]
  abel

theorem perform_excess (table : InodeTable Lower) {call : InodeCall Lower}
    (sound : table.Sound call) :
    ∃ next, table.perform call = some next ∧ next.excess = table.excess := by
  cases call with
  | root lower outcomes =>
      have available : some lower ∈ table.inodes ∨ outcomes.allocated := sound
      exact ⟨_, rfl, by simp [excess_trfsIget, available]⟩
  | interpose lower crossed outcomes =>
      refine ⟨_, rfl, ?_⟩
      cases crossed with
      | true => rfl
      | false =>
          have available : some lower ∈ table.inodes ∨ outcomes.allocated = true := by
            simpa [Sound] using sound
          simp [trfsInterpose, excess_trfsIget, available]
  | evict inode => exact ⟨_, rfl, table.excess_trfsEvictInode inode⟩
  | nfs found outcomes =>
      obtain ⟨lower, rfl, unavailable⟩ := sound
      refine ⟨_, rfl, ?_⟩
      -- the reference of the look-up is the one that the failed call drops
      simp [excess_trfsIget, unavailable]

/-- A call that is not sound changes what is held on the inode it is about. -/
theorem not_keepsBalance {table : InodeTable Lower} (balanced : table.Balanced)
    {call : InodeCall Lower} (unsound : ¬ table.Sound call) : ¬ table.KeepsBalance call := by
  rintro ⟨next, performed, nextBalanced⟩
  rw [balanced_iff_excess] at balanced nextBalanced
  cases call with
  | root lower outcomes =>
      cases performed
      have unavailable : ¬ (some lower ∈ table.inodes ∨ outcomes.allocated) := unsound
      rw [excess_trfsIget, balanced, if_neg unavailable, zero_sub, neg_eq_zero] at nextBalanced
      exact unit_ne_zero lower nextBalanced
  | interpose lower crossed outcomes =>
      cases performed
      obtain ⟨inside, unavailable⟩ := not_or.mp unsound
      rw [trfsInterpose, if_neg inside, excess_trfsIget, balanced, if_neg unavailable, zero_sub,
        neg_eq_zero] at nextBalanced
      exact unit_ne_zero lower nextBalanced
  | evict inode => exact unsound trivial
  | nfs found outcomes =>
      cases found with
      | none => cases performed
      | some lower =>
          cases performed
          have available : some lower ∈ table.inodes ∨ outcomes.allocated := by
            by_contra unavailable
            exact unsound ⟨lower, rfl, unavailable⟩
          simp only [excess_trfsIget, inodes_igrab, available, if_true, excess_igrab, balanced,
            zero_add, sub_zero] at nextBalanced
          exact unit_ne_zero lower nextBalanced

/-- The references stay balanced, and no null pointer is dereferenced, in exactly
the runs whose calls are sound. -/
theorem keepsBalance_along_iff (calls : List (InodeCall Lower)) :
    Along step KeepsBalance (empty : InodeTable Lower) calls ↔
      Along step Sound (empty : InodeTable Lower) calls := by
  have initially : (empty : InodeTable Lower).Balanced := fun _ => rfl
  refine along_iff Balanced ?_ ?_ initially calls
  · intro table call balanced
    refine ⟨fun keeps => by_contra fun unsound => not_keepsBalance balanced unsound keeps, ?_⟩
    intro sound
    obtain ⟨next, performed, unchanged⟩ := table.perform_excess sound
    rw [balanced_iff_excess] at balanced
    exact ⟨next, performed, balanced_iff_excess.mpr (unchanged.trans balanced)⟩
  · rintro table call - ⟨next, performed, balanced⟩
    rwa [step, performed, Option.getD_some]

/-- A file handle whose inode is not in memory is a null pointer, one whose inode
is found keeps the reference of the look-up, and a mount without memory for the
root inode drops a reference of the lower file system. -/
theorem not_keepsBalance_handle :
    (empty : InodeTable Nat).perform (.nfs none ⟨true, true⟩) = none ∧
      ((empty : InodeTable Nat).step (.nfs (some 7) ⟨true, true⟩)).held 7 = 2 ∧
      ((empty : InodeTable Nat).step (.nfs (some 7) ⟨true, true⟩)).inodes = [some 7] ∧
      ((empty : InodeTable Nat).step (.root 7 ⟨false, true⟩)).held 7 = -1 ∧
      ¬ Along step KeepsBalance (empty : InodeTable Nat) [.nfs none ⟨true, true⟩] := by
  refine ⟨rfl, by decide, by decide, by decide, ?_⟩
  rintro ⟨⟨next, performed, -⟩, -⟩
  cases performed

end InodeTable

end Tracefs
