import Tracefs.Balance
import Tracefs.Vfs.Steps
import Mathlib.Data.List.Count
import Mathlib.Tactic.Abel

/-!
# References on lower paths

A dentry of trfs keeps one reference on the lower path it stores, from its lookup
until it is released.  Every other reference and lock that an operation takes is
dropped before the operation returns.
-/

namespace Tracefs

open Balance Transition

theorem Err.enoent_ne_zero : Err.enoent ≠ 0 := by decide

structure LowerPath (Dentry Mount : Type) where
  dentry : Dentry
  mnt : Mount
  deriving DecidableEq

/-- What trfs takes: a lower path, a lower dentry or mount alone, the lock of a
lower directory, the locks of a rename, and a dentry of its own, known by its
address or as a parent by its place in the table. -/
inductive Ref (Dentry Mount : Type) where
  | path (path : LowerPath Dentry Mount)
  | dentry (dentry : Dentry)
  | mount (mnt : Mount)
  | lock (dentry : Dentry)
  | renameLock (first second : Dentry)
  | upper (dentry : BitVec 64)
  | parent (dentry : Nat)
  deriving DecidableEq

/-- A dentry that is neither the null pointer nor an error. -/
def isAlias (retDentry : BitVec 64) : Bool := retDentry ≠ 0 ∧ isErr retDentry = false

/-- The lower paths of the operands, and the parent of each lower dentry. -/
structure Operands (Dentry Mount : Type) where
  path : Operand → LowerPath Dentry Mount
  parentOf : Dentry → Dentry

namespace Operands

variable {Dentry Mount : Type} (operands : Operands Dentry Mount)

def dentry : LowerDentry → Dentry
  | .of operand => (operands.path operand).dentry
  | .parentOf operand => operands.parentOf (operands.path operand).dentry

/-- An alias comes with a reference on it. -/
def entries : Step → List (Entry (Ref Dentry Mount))
  | .pathGet operand => [.take (.path (operands.path operand))]
  | .pathPut operand => [.drop (.path (operands.path operand))]
  | .dget dentry => [.take (.dentry (operands.dentry dentry))]
  | .dput dentry => [.drop (.dentry (operands.dentry dentry))]
  | .inodeLock dentry => [.take (.lock (operands.dentry dentry))]
  | .inodeUnlock dentry => [.drop (.lock (operands.dentry dentry))]
  | .lockRename first second =>
      [.take (.renameLock (operands.dentry first) (operands.dentry second))]
  | .unlockRename first second =>
      [.drop (.renameLock (operands.dentry first) (operands.dentry second))]
  | .splice _ retDentry => if isAlias retDentry then [.take (.upper retDentry)] else []
  | _ => []

end Operands

/-- The result of `vfs_path_lookup`. -/
inductive PathLookup (Dentry Mount : Type) where
  | found (path : LowerPath Dentry Mount)
  | failed (err : Err) (nonzero : err ≠ 0)

/-- The outcomes of the calls inside `trfs_lookup`. -/
structure LookupOutcomes (Dentry Mount : Type) where
  newPrivateData : Err
  isRoot : Bool
  vfsPathLookup : PathLookup Dentry Mount
  retDentry : BitVec 64
  dLookup : Option Dentry
  dAlloc : Option Dentry

/-- What a lookup takes and drops, the lower path it stores and its error. -/
structure LookupResult (Dentry Mount : Type) where
  entries : List (Entry (Ref Dentry Mount))
  lowerPath : Option (LowerPath Dentry Mount)
  err : Err

section Lookup

variable {Dentry Mount : Type}

/-- A negative dentry: the references on the dentry and on the mount become the one
on the path. -/
def setupLower (lowerDentry : Dentry) (lowerDirMnt : Mount) : LookupResult Dentry Mount :=
  let lowerPath := ⟨lowerDentry, lowerDirMnt⟩
  ⟨[.take (.dentry lowerDentry), .take (.mount lowerDirMnt),
    .drop (.dentry lowerDentry), .drop (.mount lowerDirMnt), .take (.path lowerPath)],
    some lowerPath, 0⟩

/-- `__trfs_lookup`.  The alias that an interposition finds is returned to the VFS
with its reference. -/
def lookupBelow (lowerParentPath : LowerPath Dentry Mount)
    (outcomes : LookupOutcomes Dentry Mount) : LookupResult Dentry Mount :=
  if outcomes.isRoot then ⟨[], none, 0⟩
  else match outcomes.vfsPathLookup with
    | .found lowerPath =>
        let ret := outcomes.retDentry
        if isErr ret then ⟨[.take (.path lowerPath), .drop (.path lowerPath)], none, ptrErr ret⟩
        else
          let given : List (Entry (Ref Dentry Mount)) :=
            if isAlias ret then [.take (.upper ret), .drop (.upper ret)] else []
          ⟨.take (.path lowerPath) :: given, some lowerPath, 0⟩
    | .failed err _ =>
        if err ≠ .enoent then ⟨[], none, err⟩
        else match outcomes.dLookup, outcomes.dAlloc with
          | some lowerDentry, _ => setupLower lowerDentry lowerParentPath.mnt
          | none, some lowerDentry => setupLower lowerDentry lowerParentPath.mnt
          | none, none => ⟨[], none, .enomem⟩

def trfsLookup (parent : Nat) (lowerParentPath : LowerPath Dentry Mount)
    (outcomes : LookupOutcomes Dentry Mount) : LookupResult Dentry Mount :=
  let below :=
    if outcomes.newPrivateData ≠ 0 then ⟨[], none, outcomes.newPrivateData⟩
    else lookupBelow lowerParentPath outcomes
  { below with
    entries := .take (.parent parent) :: .take (.path lowerParentPath) :: below.entries ++
      [.drop (.path lowerParentPath), .drop (.parent parent)] }

end Lookup

/-- The dentry that exists already, if the interposition of a new entry finds one. -/
def Operation.foundAlias : Operation → Option (BitVec 64)
  | create lower retDentry | symlink _ _ lower retDentry | mkdir _ _ lower retDentry
  | mknod _ lower retDentry => if lower = 0 ∧ isAlias retDentry then some retDentry else none
  | link _ _ lower hasInode retDentry =>
      if lower = 0 ∧ hasInode ∧ isAlias retDentry then some retDentry else none
  | _ => none

/-- The lower path each dentry of a mounted trfs stores, and what trfs holds. -/
structure DentryTable (Dentry Mount : Type) where
  lowerPaths : List (Option (LowerPath Dentry Mount))
  held : Ref Dentry Mount → Int

/-- A call of the VFS on dentries given by their places in the table. -/
inductive PathCall (Dentry Mount : Type) where
  | lookup (parent : Nat) (outcomes : LookupOutcomes Dentry Mount)
  | operate (operation : Operation) (dentries : Operand → Nat) (parentOf : Dentry → Dentry)
  | release (dentry : Nat)

namespace DentryTable

variable {Dentry Mount : Type} [DecidableEq Dentry] [DecidableEq Mount]

def lowerPath (table : DentryTable Dentry Mount) (dentry : Nat) :
    Option (LowerPath Dentry Mount) :=
  table.lowerPaths.getD dentry none

/-- After the mount there is the root, with the path that was mounted. -/
def mounted (root : LowerPath Dentry Mount) : DentryTable Dentry Mount :=
  ⟨[some root], unit (.path root)⟩

/-- The lower paths of the operands, if the dentries all have one. -/
def operands (table : DentryTable Dentry Mount) (dentries : Operand → Nat)
    (parentOf : Dentry → Dentry) : Option (Operands Dentry Mount) :=
  match table.lowerPath (dentries .dentry), table.lowerPath (dentries .oldDentry),
    table.lowerPath (dentries .newDentry) with
  | some dentry, some oldDentry, some newDentry => some
      { path := fun
          | .dentry => dentry
          | .oldDentry => oldDentry
          | .newDentry => newDentry
        parentOf := parentOf }
  | _, _, _ => none

/-- The VFS calls operations only on dentries that have a lower path. -/
def step (table : DentryTable Dentry Mount) : PathCall Dentry Mount → DentryTable Dentry Mount
  | .lookup parent outcomes =>
      match table.lowerPath parent with
      | none => table
      | some lowerParentPath =>
          let result := trfsLookup parent lowerParentPath outcomes
          ⟨table.lowerPaths ++ [result.lowerPath], table.held + balance result.entries⟩
  | .operate operation dentries parentOf =>
      match table.operands dentries parentOf with
      | none => table
      | some operands =>
          { table with held := table.held + total operands.entries operation.trail.steps }
  | .release dentry =>
      match table.lowerPath dentry with
      | none => table
      | some lowerPath =>
          ⟨table.lowerPaths.set dentry none, table.held + balance [.drop (.path lowerPath)]⟩

/-- One reference on a lower path for each dentry that stores it, and nothing else. -/
def Balanced (table : DentryTable Dentry Mount) : Prop :=
  ∀ ref, table.held ref = match ref with
    | .path path => (table.lowerPaths.count (some path) : Int)
    | _ => 0

/-- The call leaves the references balanced, and a lookup stores no path when it
fails. -/
def KeepsReferences (table : DentryTable Dentry Mount) (call : PathCall Dentry Mount) : Prop :=
  (table.step call).Balanced ∧
    match call with
    | .lookup parent outcomes => ∀ path,
        let result := trfsLookup parent path outcomes
        result.err ≠ 0 → result.lowerPath = none
    | _ => True

/-- No new entry is interposed on a dentry that exists already. -/
def NewEntry (table : DentryTable Dentry Mount) : PathCall Dentry Mount → Prop
  | .operate operation dentries parentOf =>
      (table.operands dentries parentOf).isSome → operation.foundAlias = none
  | _ => True

end DentryTable

namespace Operands

variable {Dentry Mount : Type} [DecidableEq Dentry] [DecidableEq Mount]
variable (operands : Operands Dentry Mount)

@[simp] theorem total_trfsGetLowerPath (operand : Operand) :
    total operands.entries (Trail.trfsGetLowerPath operand) =
      unit (.path (operands.path operand)) := by
  simp [Trail.trfsGetLowerPath, entries, Entry.amount]

@[simp] theorem total_trfsPutLowerPath (operand : Operand) :
    total operands.entries (Trail.trfsPutLowerPath operand) =
      -unit (.path (operands.path operand)) := by
  simp [Trail.trfsPutLowerPath, entries, Entry.amount]

@[simp] theorem total_unlockDir (operand : Operand) :
    total operands.entries (Trail.unlockDir operand) =
      -total operands.entries (Trail.lockParent operand) := by
  simp [Trail.unlockDir, Trail.lockParent, entries, Entry.amount]

@[simp] theorem total_unlockRename :
    total operands.entries Trail.unlockRename = -total operands.entries Trail.lockRename := by
  simp only [Trail.unlockRename, Trail.lockRename, total_cons, total_nil, entries, balance_cons,
    balance_nil, Entry.amount]
  abel

@[simp] theorem total_lowerCallIf (supported : Bool) :
    total operands.entries (Trail.lowerCallIf supported) = 0 := by
  cases supported <;> rfl

@[simp] theorem total_trace (traced : TracedCall) :
    total operands.entries (Trail.trace traced) = 0 := rfl

@[simp] theorem total_copyDir (operand : Operand) :
    total operands.entries (Trail.copyDir operand) = 0 := rfl

@[simp] theorem balance_splice (operand : Operand) (retDentry : BitVec 64) :
    balance (operands.entries (.splice operand retDentry)) =
      if isAlias retDentry then unit (.upper retDentry) else 0 := by
  rw [entries, apply_ite balance]
  simp [Entry.amount]

theorem total_createLike (lower : Err) (retDentry : BitVec 64) {hook : Err → List Step}
    (silent : ∀ err, total operands.entries (hook err) = 0) :
    total operands.entries (Trail.createLike lower retDentry hook).steps =
      if lower = 0 ∧ isAlias retDentry then unit (.upper retDentry) else 0 := by
  have copies : total operands.entries
      (if ptrErr retDentry ≠ 0 then []
        else [.copyAttrTimes (.dir .dentry) (.lowerOf (.dir .dentry)),
          .copyInodeSize (.dir .dentry) (.dInode (.parentOf .dentry))]) = 0 := by
    split <;> rfl
  simp only [Trail.createLike, total_append, silent, total_trfsGetLowerPath,
    total_trfsPutLowerPath, total_unlockDir, total_lowerCallIf]
  by_cases created : lower = 0
  · rw [if_neg (not_not.mpr created), total_cons, copies, balance_splice]
    simp only [created, true_and]
    abel
  · rw [if_pos created, total_nil, if_neg fun both => created both.1]
    abel

theorem total_trfsLink (oldName newName : Name) (vfsLink : Err) (hasInode : Bool)
    (retDentry : BitVec 64) :
    total operands.entries (Trail.trfsLink oldName newName vfsLink hasInode retDentry).steps =
      if vfsLink = 0 ∧ hasInode ∧ isAlias retDentry then unit (.upper retDentry) else 0 := by
  have copies : total operands.entries
      (if ptrErr retDentry ≠ 0 then []
        else [.copyAttrTimes (.dir .newDentry) (.dInode (.of .newDentry)),
          .copyInodeSize (.dir .newDentry) (.dInode (.of .newDentry)),
          .iSizeWrite (.inode .newDentry) (.inode .oldDentry)]) = 0 := by
    split <;> rfl
  simp only [Trail.trfsLink, total_append, total_trfsGetLowerPath, total_trfsPutLowerPath,
    total_unlockDir, total_lowerCallIf, total_trace]
  by_cases early : vfsLink ≠ 0 ∨ hasInode = false
  · rw [if_pos early, total_nil, if_neg]
    · abel
    · rintro ⟨linked, present, -⟩
      rcases early with failed | absent
      · exact failed linked
      · rw [absent] at present
        cases present
  · rw [if_neg early, total_cons, copies, balance_splice]
    obtain ⟨linked, present⟩ := not_or.mp early
    simp only [not_not.mp linked, Bool.eq_true_of_not_eq_false present, true_and]
    abel

theorem total_xattrLike (supported : Bool) (missing lower : Err) {copy : Step}
    (silent : operands.entries copy = []) (hook : Err → TracedCall) :
    total operands.entries (Trail.xattrLike supported missing lower copy hook).steps = 0 := by
  simp [Trail.xattrLike, apply_ite (total operands.entries), silent]

end Operands

namespace Operation

variable {Dentry Mount : Type} [DecidableEq Dentry] [DecidableEq Mount]

/-- An operation drops all that it takes, but for an alias. -/
theorem total_trail (operation : Operation) (operands : Operands Dentry Mount) :
    total operands.entries operation.trail.steps =
      operation.foundAlias.elim 0 fun retDentry => unit (.upper retDentry) := by
  have elim_ite (found : Prop) [Decidable found] (retDentry : BitVec 64) :
      (if found then unit (.upper retDentry) else 0 : Ref Dentry Mount → Int) =
        (if found then some retDentry else none).elim 0 fun address => unit (.upper address) := by
    split <;> rfl
  cases operation with
  | create | symlink | mkdir | mknod =>
      refine (operands.total_createLike _ _ fun _ => rfl).trans ?_
      exact elim_ite _ _
  | link => exact (operands.total_trfsLink _ _ _ _ _).trans (elim_ite _ _)
  | setxattr | getxattr | listxattr | removexattr => exact operands.total_xattrLike _ _ _ rfl _
  | unlink | rmdir | rename | readlink | getattr | read | write | release | statfs =>
      show total operands.entries _ = 0
      simp [trail, Trail.trfsUnlink, Trail.trfsRmdir, Trail.trfsRename, Trail.trfsReadlink,
        Trail.trfsGetattr, Trail.trfsRead, Trail.trfsWrite, Trail.trfsFileRelease,
        Trail.trfsStatfs, apply_ite (total operands.entries), Operands.entries, Entry.amount]
  | setattr =>
      show total operands.entries _ = 0
      rw [trail, Trail.trfsSetattr]
      split
      · rfl
      · split <;> simp [apply_ite (total operands.entries), Operands.entries, Entry.amount]
  | fsync =>
      show total operands.entries _ = 0
      rw [trail, Trail.trfsFsync]
      split <;> simp
  | dRevalidate rcu =>
      show total operands.entries _ = 0
      cases rcu <;> simp [trail, Trail.trfsDRevalidate]
  | openFile =>
      show total operands.entries _ = 0
      simp [trail, Trail.trfsOpen, apply_ite (total operands.entries), Operands.entries,
        Entry.amount]

end Operation

section Lookup

variable {Dentry Mount : Type} [DecidableEq Dentry] [DecidableEq Mount]

/-- A lookup keeps a reference on the path that it stores. -/
theorem balance_lookupBelow (path : LowerPath Dentry Mount)
    (outcomes : LookupOutcomes Dentry Mount) :
    balance (lookupBelow path outcomes).entries =
      ((lookupBelow path outcomes).lowerPath.map Ref.path).elim 0 unit := by
  have setup (lowerDentry : Dentry) : balance (setupLower lowerDentry path.mnt).entries =
      unit (.path ⟨lowerDentry, path.mnt⟩) := by
    simp only [setupLower, balance_cons, balance_nil, Entry.amount]
    abel
  obtain ⟨_, isRoot, vfsPathLookup, retDentry, dLookup, dAlloc⟩ := outcomes
  cases isRoot with
  | true => rfl
  | false =>
      cases vfsPathLookup with
      | found lowerPath =>
          cases failed : isErr retDentry with
          | true => simp [lookupBelow, failed, Entry.amount]
          | false =>
              cases found : isAlias retDentry <;>
                simp [lookupBelow, failed, found, Entry.amount]
      | failed err nonzero =>
          by_cases absent : err = .enoent
          · subst absent
            cases dLookup with
            | some lowerDentry => exact setup lowerDentry
            | none =>
                cases dAlloc with
                | some lowerDentry => exact setup lowerDentry
                | none => rfl
          · simp only [lookupBelow, if_pos absent]
            rfl

theorem balance_trfsLookup (parent : Nat) (path : LowerPath Dentry Mount)
    (outcomes : LookupOutcomes Dentry Mount) :
    balance (trfsLookup parent path outcomes).entries =
      ((trfsLookup parent path outcomes).lowerPath.map Ref.path).elim 0 unit := by
  rw [trfsLookup]
  split
  · simp [Entry.amount]
  · simp only [balance_cons, balance_append, balance_lookupBelow, balance_nil, Entry.amount]
    abel

omit [DecidableEq Dentry] [DecidableEq Mount] in
theorem lowerPath_of_err {parent : Nat} {path : LowerPath Dentry Mount}
    {outcomes : LookupOutcomes Dentry Mount} (failed : (trfsLookup parent path outcomes).err ≠ 0) :
    (trfsLookup parent path outcomes).lowerPath = none := by
  rw [trfsLookup] at failed ⊢
  split at failed
  next unallocated =>
    rw [if_pos unallocated]
  next allocated =>
    rw [if_neg allocated]
    obtain ⟨_, isRoot, vfsPathLookup, retDentry, dLookup, dAlloc⟩ := outcomes
    cases isRoot with
    | true => rfl
    | false =>
        cases vfsPathLookup with
        | found lowerPath =>
            cases error : isErr retDentry with
            | true => simp [lookupBelow, error]
            | false => simp [lookupBelow, error] at failed
        | failed err nonzero =>
            by_cases absent : err = .enoent
            · subst absent
              cases dLookup with
              | some lowerDentry => exact absurd rfl failed
              | none =>
                  cases dAlloc with
                  | some lowerDentry => exact absurd rfl failed
                  | none => rfl
            · simp only [lookupBelow, if_pos absent]
              rfl

end Lookup

namespace DentryTable

variable {Dentry Mount : Type} [DecidableEq Dentry] [DecidableEq Mount]

def slots (table : DentryTable Dentry Mount) : List (Option (Ref Dentry Mount)) :=
  table.lowerPaths.map (Option.map Ref.path)

theorem stored_slots_of_ne (table : DentryTable Dentry Mount) {ref : Ref Dentry Mount}
    (other : ∀ path, ref ≠ .path path) : stored table.slots ref = 0 := by
  have absent : some ref ∉ table.slots := by
    intro present
    obtain ⟨slot, -, kept⟩ := List.mem_map.mp present
    obtain ⟨path, -, same⟩ := Option.map_eq_some_iff.mp kept
    exact other path same.symm
  rw [stored, List.count_eq_zero.mpr absent]
  rfl

theorem balanced_iff {table : DentryTable Dentry Mount} :
    table.Balanced ↔ table.held = stored table.slots := by
  refine Iff.trans (forall_congr' fun ref => ?_) funext_iff.symm
  cases ref with
  | path path =>
      have injective :
          Function.Injective (Option.map (Ref.path : LowerPath Dentry Mount → Ref Dentry Mount)) :=
        Option.map_injective fun _ _ same => Ref.path.inj same
      have counted := List.count_map_of_injective table.lowerPaths _ injective (some path)
      simp only [stored, slots]
      rw [← counted]
      rfl
  | dentry | mount | lock | renameLock | upper | parent =>
      rw [stored_slots_of_ne _ fun path same => by cases same]

variable {table : DentryTable Dentry Mount}

theorem balanced_lookup (balanced : table.Balanced) (parent : Nat)
    (outcomes : LookupOutcomes Dentry Mount) : (table.step (.lookup parent outcomes)).Balanced := by
  rw [step]
  split
  next => exact balanced
  next lowerParentPath _ =>
    rw [balanced_iff] at balanced ⊢
    simp only [slots, List.map_append, List.map_cons, List.map_nil, stored_append, balanced,
      balance_trfsLookup]

/-- A dentry is released with the path it stores. -/
theorem balanced_release (balanced : table.Balanced) (dentry : Nat) :
    (table.step (.release dentry)).Balanced := by
  rw [step]
  split
  next => exact balanced
  next lowerPath kept =>
    rw [balanced_iff] at balanced ⊢
    have slot : table.slots.getD dentry none = some (.path lowerPath) := by
      rw [slots, ← Option.map_none Ref.path, List.getD_map]
      exact congrArg (Option.map Ref.path) kept
    have cleared := stored_clear table.slots dentry
    rw [slot] at cleared
    simp only [slots, List.map_set, Option.map_none] at cleared ⊢
    rw [cleared, balanced]
    simp [slots, Entry.amount, sub_eq_add_neg]

theorem balanced_operate_iff (balanced : table.Balanced) (operation : Operation)
    (dentries : Operand → Nat) (parentOf : Dentry → Dentry) :
    (table.step (.operate operation dentries parentOf)).Balanced ↔
      ((table.operands dentries parentOf).isSome → operation.foundAlias = none) := by
  rw [step]
  cases given : table.operands dentries parentOf with
  | none => exact iff_of_true balanced fun impossible => by cases impossible
  | some operands =>
      rw [balanced_iff] at balanced ⊢
      simp only [operation.total_trail operands, balanced, slots, Option.isSome_some, true_imp_iff]
      cases operation.foundAlias with
      | none => simp
      | some retDentry =>
          -- the reference on the alias is the one that nothing stores
          refine iff_of_false (fun same => ?_) (by simp)
          exact unit_ne_zero _ (add_eq_left.mp same)

theorem keepsReferences_iff (balanced : table.Balanced) (call : PathCall Dentry Mount) :
    table.KeepsReferences call ↔ table.NewEntry call := by
  cases call with
  | lookup parent outcomes =>
      refine iff_of_true ⟨balanced_lookup balanced parent outcomes, ?_⟩ trivial
      exact fun path failed => lowerPath_of_err failed
  | operate operation dentries parentOf =>
      exact (and_iff_left trivial).trans
        (balanced_operate_iff balanced operation dentries parentOf)
  | release dentry => exact iff_of_true ⟨balanced_release balanced dentry, trivial⟩ trivial

/-- References and locks stay balanced through a sequence of calls exactly when no
new entry is interposed on a dentry that exists already. -/
theorem keepsReferences_along_iff (root : LowerPath Dentry Mount)
    (calls : List (PathCall Dentry Mount)) :
    Along step KeepsReferences (mounted root) calls ↔ Along step NewEntry (mounted root) calls := by
  have initially : (mounted root).Balanced := by
    rw [balanced_iff]
    exact ((stored_append [] (some (Ref.path root))).trans (zero_add _)).symm
  refine along_iff Balanced ?_ ?_ initially calls
  · exact fun table call balanced => keepsReferences_iff balanced call
  · exact fun table call _ keeps => keeps.1

/-- A directory is made under a name looked up before, and its inode already has a
dentry: the reference on that dentry stays. -/
theorem not_keepsReferences_alias :
    let absent : LookupOutcomes Nat Nat :=
      ⟨0, false, .failed .enoent Err.enoent_ne_zero, 0, none, some 1⟩
    let calls : List (PathCall Nat Nat) :=
      [.lookup 0 absent, .operate (.mkdir .a 0 0 0xffff888012345680) (fun _ => 1) fun _ => 0]
    (run step (mounted ⟨0, 0⟩) calls).held (.upper 0xffff888012345680) = 1 ∧
      (run step (mounted ⟨0, 0⟩) calls).held (.path ⟨1, 0⟩) = 1 ∧
      ¬ Along step KeepsReferences (mounted ⟨0, 0⟩) calls := by
  intro absent calls
  have leaked : (run step (mounted ⟨0, 0⟩) calls).held (.upper 0xffff888012345680) = 1 := by decide
  refine ⟨leaked, by decide, ?_⟩
  rintro ⟨-, ⟨balanced, -⟩, -⟩
  have none := balanced (.upper 0xffff888012345680)
  exact absurd (leaked.symm.trans none) (by decide)

end DentryTable

end Tracefs
