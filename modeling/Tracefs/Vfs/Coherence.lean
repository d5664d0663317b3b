import Mathlib.Logic.Function.Basic
import Tracefs.Vfs.Steps

/-!
# Cached attributes of parent directories

A namespace operation changes a lower directory and then copies times and size
to the trfs inode of that directory.  Each operation names the inode it copies
from by hand.
-/

namespace Tracefs

/-- The attributes of an inode that a namespace operation changes. -/
structure InodeAttr where
  atime : Nat
  mtime : Nat
  ctime : Nat
  size : Nat
  deriving DecidableEq

/-- The inodes that the names in the steps stand for.  The parent of a lower dentry
is the lower directory, and no directory is an entry of its own. -/
structure InodeNames (Upper Lower : Type) where
  upper : UpperInode → Upper
  dInode : LowerDentry → Lower
  lowerOf : Upper → Lower
  ofFile : Lower
  parent : ∀ operand, dInode (.parentOf operand) = lowerOf (upper (.dir operand))
  apart : ∀ operand, upper (.inode operand) ≠ upper (.dir operand)

/-- The attributes cached in trfs inodes, and those of the lower inodes. -/
structure Attributes (Upper Lower : Type) where
  cached : Upper → InodeAttr
  lower : Lower → InodeAttr

namespace InodeNames

variable {Upper Lower : Type} [DecidableEq Upper] (names : InodeNames Upper Lower)

def lower : LowerInode → Lower
  | .dInode dentry => names.dInode dentry
  | .lowerOf inode => names.lowerOf (names.upper inode)
  | .ofFile => names.ofFile

def modify (state : Attributes Upper Lower) (dest : UpperInode)
    (change : InodeAttr → InodeAttr) : Attributes Upper Lower :=
  let inode := names.upper dest
  { state with cached := Function.update state.cached inode (change (state.cached inode)) }

/-- One step on the attributes.  `start` is the state the operation began in and
`after` are the lower attributes once the lower call has returned. -/
def perform (start : Attributes Upper Lower) (after : Lower → InodeAttr)
    (state : Attributes Upper Lower) : Step → Attributes Upper Lower
  | .lowerCall => { state with lower := after }
  | .copyAttrTimes dest src | .copyAttrAll dest src =>
      let lower := state.lower (names.lower src)
      names.modify state dest fun attr =>
        { attr with atime := lower.atime, mtime := lower.mtime, ctime := lower.ctime }
  | .copyAttrAtime dest src =>
      names.modify state dest fun attr =>
        { attr with atime := (state.lower (names.lower src)).atime }
  | .copyInodeSize dest src =>
      names.modify state dest fun attr =>
        { attr with size := (state.lower (names.lower src)).size }
  | .iSizeWrite dest saved =>
      names.modify state dest fun attr =>
        { attr with size := (start.cached (names.upper saved)).size }
  | .copyCtime dest src =>
      names.modify state dest fun attr =>
        { attr with ctime := (state.cached (names.upper src)).ctime }
  | _ => state

def run (start : Attributes Upper Lower) (after : Lower → InodeAttr) (trail : Trail) :
    Attributes Upper Lower :=
  trail.steps.foldl (names.perform start after) start

end InodeNames

namespace Operation

/-- The operands of a namespace operation whose directories it changes. -/
def changedIn : Operation → List Operand
  | create .. | unlink .. | symlink .. | mkdir .. | rmdir .. | mknod .. => [.dentry]
  | link .. => [.newDentry]
  | rename .. => [.oldDentry, .newDentry]
  | _ => []

variable {Upper Lower : Type} [DecidableEq Upper]

/-- The test whether both directories are the same has the right outcome. -/
def Fits (names : InodeNames Upper Lower) : Operation → Prop
  | rename _ _ sameDir _ _ =>
      sameDir = decide (names.upper (.dir .oldDentry) = names.upper (.dir .newDentry))
  | _ => True

/-- After a success the attributes of every directory involved are those of its
lower directory. -/
def Coherent (operation : Operation) (names : InodeNames Upper Lower)
    (start : Attributes Upper Lower) (after : Lower → InodeAttr) : Prop :=
  operation.Fits names → operation.trail.err = 0 → ∀ operand ∈ operation.changedIn,
    let dir := names.upper (.dir operand)
    let final := names.run start after operation.trail
    final.cached dir = final.lower (names.lowerOf dir)

/-- What a successful link leaves in the directory is right by chance: the linked
file has the attributes of the directory, or there is no new lower inode and the
cached attributes are those the directory has now. -/
def LinksAlike (names : InodeNames Upper Lower) (start : Attributes Upper Lower)
    (after : Lower → InodeAttr) : Operation → Prop
  | link _ _ vfsLink hasInode retDentry =>
      let dir := names.upper (.dir .newDentry)
      if hasInode then
        vfsLink = 0 → ptrErr retDentry = 0 →
          after (names.dInode (.of .newDentry)) = after (names.lowerOf dir)
      else vfsLink = 0 → start.cached dir = after (names.lowerOf dir)
  | _ => True

end Operation

theorem firstError_eq_zero {lower interpose : Err} (none : firstError lower interpose = 0) :
    lower = 0 ∧ interpose = 0 := by
  rw [firstError] at none
  split at none
  next failed => exact absurd none failed
  next passed => exact ⟨not_not.mp passed, none⟩

namespace InodeNames

variable {Upper Lower : Type} [DecidableEq Upper] (names : InodeNames Upper Lower)
variable (start : Attributes Upper Lower) (after : Lower → InodeAttr)

/-- The steps that neither reach the lower file system nor touch an attribute. -/
@[simp] theorem foldl_trfsGetLowerPath (state : Attributes Upper Lower) (operand : Operand) :
    (Trail.trfsGetLowerPath operand).foldl (names.perform start after) state = state := rfl

@[simp] theorem foldl_trfsPutLowerPath (state : Attributes Upper Lower) (operand : Operand) :
    (Trail.trfsPutLowerPath operand).foldl (names.perform start after) state = state := rfl

@[simp] theorem foldl_lockParent (state : Attributes Upper Lower) (operand : Operand) :
    (Trail.lockParent operand).foldl (names.perform start after) state = state := rfl

@[simp] theorem foldl_unlockDir (state : Attributes Upper Lower) (operand : Operand) :
    (Trail.unlockDir operand).foldl (names.perform start after) state = state := rfl

@[simp] theorem foldl_lockRename (state : Attributes Upper Lower) :
    Trail.lockRename.foldl (names.perform start after) state = state := rfl

@[simp] theorem foldl_unlockRename (state : Attributes Upper Lower) :
    Trail.unlockRename.foldl (names.perform start after) state = state := rfl

@[simp] theorem foldl_trace (state : Attributes Upper Lower) (traced : TracedCall) :
    (Trail.trace traced).foldl (names.perform start after) state = state := rfl

@[simp] theorem foldl_lowerCall (state : Attributes Upper Lower) :
    (Trail.lowerCallIf true).foldl (names.perform start after) state =
      { state with lower := after } := rfl

@[simp] theorem lower_modify (state : Attributes Upper Lower) (dest : UpperInode)
    (change : InodeAttr → InodeAttr) : (names.modify state dest change).lower = state.lower := rfl

@[simp] theorem cached_modify (state : Attributes Upper Lower) (dest : UpperInode)
    (change : InodeAttr → InodeAttr) :
    (names.modify state dest change).cached (names.upper dest) =
      change (state.cached (names.upper dest)) := by
  simp [modify]

theorem cached_modify_of_ne (state : Attributes Upper Lower) {dest : UpperInode} {other : Upper}
    (apart : names.upper dest ≠ other) (change : InodeAttr → InodeAttr) :
    (names.modify state dest change).cached other = state.cached other := by
  simp [modify, apart.symm]

theorem run_createLike {lower : Err} {retDentry : BitVec 64} {hook : Err → List Step}
    (silent : ∀ err state, (hook err).foldl (names.perform start after) state = state)
    (success : (Trail.createLike lower retDentry hook).err = 0) :
    let final := names.run start after (Trail.createLike lower retDentry hook)
    let dir := names.upper (.dir .dentry)
    final.cached dir = final.lower (names.lowerOf dir) := by
  obtain ⟨created, interposed⟩ := firstError_eq_zero success
  simp [run, Trail.createLike, created, interposed, silent, perform, InodeNames.lower, names.parent]

theorem run_copyDir (state : Attributes Upper Lower) (operand : Operand) :
    let dir := names.upper (.dir operand)
    let final := (Trail.copyDir operand).foldl (names.perform start after) state
    final.cached dir = state.lower (names.lowerOf dir) ∧ final.lower = state.lower ∧
      ∀ other, dir ≠ other → final.cached other = state.cached other := by
  refine ⟨?_, rfl, fun other apart => ?_⟩
  · simp [Trail.copyDir, perform, lower, names.parent]
  · simp [Trail.copyDir, perform, cached_modify_of_ne _ _ apart]

theorem run_trfsUnlink {name : Name} {vfsUnlink : Err} {nfsRenamed : Bool}
    (success : (Trail.trfsUnlink name vfsUnlink nfsRenamed).err = 0) :
    let final := names.run start after (Trail.trfsUnlink name vfsUnlink nfsRenamed)
    let dir := names.upper (.dir .dentry)
    final.cached dir = final.lower (names.lowerOf dir) := by
  have removed : (if vfsUnlink = .ebusy ∧ nfsRenamed then 0 else vfsUnlink) = 0 := success
  simp only [run, Trail.trfsUnlink, removed]
  -- the change time goes to the removed inode, not to its directory
  simp [perform, lower, cached_modify_of_ne _ _ (names.apart .dentry)]

theorem run_trfsRmdir {name : Name} :
    let final := names.run start after (Trail.trfsRmdir name 0)
    let dir := names.upper (.dir .dentry)
    final.cached dir = final.lower (names.lowerOf dir) := by
  simp [run, Trail.trfsRmdir, perform, lower, names.parent]

/-- The directory gets the attributes of the linked file. -/
theorem run_trfsLink (oldName newName : Name) {retDentry : BitVec 64}
    (interposed : ptrErr retDentry = 0) :
    let final := names.run start after (Trail.trfsLink oldName newName 0 true retDentry)
    final.cached (names.upper (.dir .newDentry)) = after (names.dInode (.of .newDentry)) ∧
      final.lower = after := by
  simp [run, Trail.trfsLink, interposed, perform, lower,
    cached_modify_of_ne _ _ (names.apart .newDentry)]

theorem run_trfsLink_noInode (oldName newName : Name) (retDentry : BitVec 64) :
    let final := names.run start after (Trail.trfsLink oldName newName 0 false retDentry)
    final.cached = start.cached ∧ final.lower = after := by
  simp [run, Trail.trfsLink]

theorem run_trfsRename {oldName newName : Name} {sameDir : Bool}
    (fits : sameDir = decide (names.upper (.dir .oldDentry) = names.upper (.dir .newDentry)))
    {operand : Operand} (involved : operand = .oldDentry ∨ operand = .newDentry) :
    let final := names.run start after (Trail.trfsRename oldName newName sameDir .nothing 0)
    let dir := names.upper (.dir operand)
    final.cached dir = final.lower (names.lowerOf dir) := by
  obtain ⟨newCopied, newLower, -⟩ :=
    names.run_copyDir start after { start with lower := after } .newDentry
  cases sameDir with
  | true =>
      have same := of_decide_eq_true fits.symm
      have target : names.upper (.dir operand) = names.upper (.dir .newDentry) := by
        rcases involved with rfl | rfl
        · exact same
        · rfl
      simp only [run, Trail.trfsRename, target]
      simp [newCopied, newLower]
  | false =>
      have apart := of_decide_eq_false fits.symm
      obtain ⟨oldCopied, oldLower, kept⟩ := names.run_copyDir start after
        ((Trail.copyDir .newDentry).foldl (names.perform start after)
          { start with lower := after }) .oldDentry
      rcases involved with rfl | rfl
      · simp [run, Trail.trfsRename, oldCopied, oldLower]
      · simp [run, Trail.trfsRename, kept _ apart, oldLower, newCopied, newLower]

end InodeNames

namespace Operation

variable {Upper Lower : Type} [DecidableEq Upper]

/-- Coherence of the operations that work on a single directory. -/
theorem coherent_single_iff {operation : Operation} {names : InodeNames Upper Lower}
    {start : Attributes Upper Lower} {after : Lower → InodeAttr} {operand : Operand}
    (single : operation.changedIn = [operand]) :
    operation.Coherent names start after ↔
      (operation.trail.err = 0 →
        let dir := names.upper (.dir operand)
        let final := names.run start after operation.trail
        final.cached dir = final.lower (names.lowerOf dir)) := by
  have fits : operation.Fits names := by
    cases operation with
    | rename => cases single
    | _ => trivial
  simp only [Coherent, single, List.mem_singleton, forall_eq]
  exact forall_prop_of_true fits

theorem coherent_link_iff {oldName newName : Name} {vfsLink : Err} {hasInode : Bool}
    {retDentry : BitVec 64} (names : InodeNames Upper Lower) (start : Attributes Upper Lower)
    (after : Lower → InodeAttr) :
    (link oldName newName vfsLink hasInode retDentry).Coherent names start after ↔
      (link oldName newName vfsLink hasInode retDentry).LinksAlike names start after := by
  rw [coherent_single_iff rfl]
  by_cases linked : vfsLink = 0
  · subst linked
    cases hasInode with
    | false =>
        obtain ⟨cached, lower⟩ := names.run_trfsLink_noInode start after oldName newName retDentry
        simp only [trail, cached, lower]
        exact ⟨fun coherent _ => coherent rfl, fun alike _ => alike rfl⟩
    | true =>
        have copied (interposed : ptrErr retDentry = 0) :=
          names.run_trfsLink start after oldName newName interposed
        constructor
        · intro coherent _ interposed
          have same := coherent interposed
          simp only [trail, (copied interposed).1, (copied interposed).2] at same
          exact same
        · intro alike interposed
          simp only [trail, (copied interposed).1, (copied interposed).2]
          exact alike rfl interposed
  · have failed : (link oldName newName vfsLink hasInode retDentry).trail.err = vfsLink := by
      simp only [trail, Trail.trfsLink]
      exact if_pos (.inl linked)
    rw [failed]
    refine iff_of_true (fun success => absurd success linked) ?_
    cases hasInode
    · exact fun success => absurd success linked
    · exact fun success => absurd success linked

/-- A namespace operation leaves the directories it changes as their lower
directories are, but for a link. -/
theorem coherent_iff (operation : Operation) (names : InodeNames Upper Lower)
    (start : Attributes Upper Lower) (after : Lower → InodeAttr) :
    operation.Coherent names start after ↔ operation.LinksAlike names start after := by
  cases operation with
  | link oldName newName vfsLink hasInode retDentry => exact coherent_link_iff names start after
  | create | symlink | mkdir | mknod =>
      refine iff_of_true ((coherent_single_iff rfl).mpr fun success => ?_) trivial
      exact names.run_createLike start after (fun _ _ => rfl) success
  | unlink =>
      refine iff_of_true ((coherent_single_iff rfl).mpr fun success => ?_) trivial
      exact names.run_trfsUnlink start after success
  | rmdir name vfsRmdir =>
      refine iff_of_true ((coherent_single_iff rfl).mpr fun success => ?_) trivial
      obtain rfl : vfsRmdir = 0 := success
      exact names.run_trfsRmdir start after
  | rename oldName newName sameDir trap vfsRename =>
      refine iff_of_true ?_ trivial
      intro fits success operand involved
      cases trap with
      | oldDentry =>
          have failed : Err.einval ≠ 0 := by decide
          exact absurd success failed
      | newDentry =>
          have failed : Err.enotempty ≠ 0 := by decide
          exact absurd success failed
      | nothing =>
          obtain rfl : vfsRename = 0 := success
          exact names.run_trfsRename start after fits (by simpa [changedIn] using involved)
  | readlink | setattr | getattr | setxattr | getxattr | listxattr | removexattr | read | write
  | openFile | release | fsync | statfs | dRevalidate =>
      refine iff_of_true ?_ trivial
      intro _ _ operand involved
      cases involved

/-- One directory and one file in it: 0 and 1 on both levels. -/
def oneFile : InodeNames Nat Nat where
  upper
    | .dir _ => 0
    | .inode _ => 1
  dInode
    | .parentOf _ => 0
    | .of _ => 1
  lowerOf := id
  ofFile := 1
  parent := fun _ => rfl
  apart := fun _ => Nat.one_ne_zero

/-- A second name for a file of five bytes in a directory of 4096: the link
succeeds and the directory has five bytes. -/
theorem not_coherent_link :
    let after : Nat → InodeAttr := fun inode => if inode = 0 then ⟨9, 9, 9, 4096⟩ else ⟨3, 3, 9, 5⟩
    let start : Attributes Nat Nat := ⟨after, after⟩
    let made : Operation := link .a .a 0 true 0
    made.trail.err = 0 ∧ (oneFile.run start after made.trail).cached 0 = ⟨3, 3, 9, 5⟩ ∧
      (oneFile.run start after made.trail).lower 0 = ⟨9, 9, 9, 4096⟩ ∧
      ¬ made.Coherent oneFile start after := by
  intro after start made
  have cached : (oneFile.run start after made.trail).cached 0 = ⟨3, 3, 9, 5⟩ := by decide
  have lower : (oneFile.run start after made.trail).lower 0 = ⟨9, 9, 9, 4096⟩ := rfl
  refine ⟨rfl, cached, lower, fun coherent => ?_⟩
  have same := coherent trivial rfl .newDentry (List.mem_singleton_self _)
  exact absurd (cached.symm.trans (same.trans lower)) (by decide)

end Operation

end Tracefs
