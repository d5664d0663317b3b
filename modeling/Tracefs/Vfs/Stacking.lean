import Tracefs.NameCache.Mirror
import Tracefs.Transition
import Tracefs.Vfs.Dentry
import Tracefs.Vfs.References

/-!
# The dentries of a mount and the lower dentries

Every dentry of trfs stores the lower dentry it stands for.  The operations on names find the lower
directory in different ways: `trfs_unlink` takes the lower inode of the directory it is given, the
others take the parent of the lower dentry.

The dentry caches are those of the kernel, which the VFS and the lower file system change as they do
in any mount.  Nobody else works on the lower directories, and these have no mounts on them.  A
lower call that fails leaves the dentries as they are.
-/

namespace Tracefs

open NameCache Transition

def Err.eisdir : Err := BitVec.ofInt 32 (-21)

/-- What the lower file system says about a name that is not in its cache.  A name that does not
exist may be kept there as a negative dentry. -/
inductive Fetched (Inode : Type) where
  | present (inode : Inode)
  | absent (cached : Bool)
  | failed (err : Err) (nonzero : err ≠ 0)

/-- What `__trfs_interpose` returns.  `d_splice_alias` returns another dentry if a directory has one
that is out of the cache and still in use; such aliases are left out here. -/
structure Interposed where
  retDentry : BitVec 64
  noAlias : isAlias retDentry = false

/-- The outcomes of the calls inside a lookup that the caches do not decide. -/
structure LookupInputs (Inode : Type) where
  newPrivateData : Err
  fetched : Fetched Inode
  interposed : Interposed
  dAlloc : Bool

section Lower

variable {Inode : Type}

/-- `vfs_path_lookup` of one component in the lower file system. -/
def vfsPathLookup (lower : Cache Name Inode) (dir : Nat) (name : Name) (fetched : Fetched Inode) :
    Cache Name Inode × PathLookup Nat Unit :=
  match lower.dLookup dir name with
  | some low =>
      (lower,
        if (lower.node low).inode.isSome then .found ⟨low, ()⟩
        else .failed .enoent Err.enoent_ne_zero)
  | none =>
      match fetched with
      | .present inode => (lower.enter dir name (some inode), .found ⟨lower.count, ()⟩)
      | .absent true => (lower.enter dir name none, .failed .enoent Err.enoent_ne_zero)
      | .absent false => (lower, .failed .enoent Err.enoent_ne_zero)
      | .failed err nonzero => (lower, .failed err nonzero)

def PathLookup.isEnoent : PathLookup Nat Unit → Bool
  | .found _ => false
  | .failed err _ => err = .enoent

/-- What the calls of `__trfs_lookup` on the lower file system do and return.  A negative dentry is
allocated only if the name does not exist and is not in the cache. -/
def consult (lower : Cache Name Inode) (dir : Nat) (name : Name) (inputs : LookupInputs Inode) :
    Cache Name Inode × LookupOutcomes Nat Unit :=
  let seen := vfsPathLookup lower dir name inputs.fetched
  let cached := seen.1.dLookup dir name
  (if seen.2.isEnoent ∧ cached = none ∧ inputs.dAlloc then seen.1.enter dir name none else seen.1,
    ⟨inputs.newPrivateData, false, seen.2, inputs.interposed.retDentry, cached,
      if inputs.dAlloc then some seen.1.count else none⟩)

/-- `d_splice_alias`, which is called for a name that exists. -/
def dSpliceAlias (upper : Cache Name Inode) (dentry : Nat) (inode : Option Inode) :
    PathLookup Nat Unit → Cache Name Inode
  | .found _ => upper.dAdd dentry inode
  | .failed _ _ => upper

end Lower

/-- The dentries of the mount, those of the lower file system, and for every dentry of the mount the
lower dentry in its private data. -/
structure Stack (Inode : Type) where
  upper : Cache Name Inode
  lower : Cache Name Inode
  below : Nat → Option Nat

/-- What the lower file system sees of a dentry it is given. -/
structure LowerOperand (Inode : Type) where
  parent : Nat
  /-- The inode of the parent. -/
  dir : Option Inode
  name : Name
  inode : Option Inode

inductive MakeKind where
  | create
  | symlink (symname : LinkTarget)
  | mkdir (mode : BitVec 32)
  | mknod

inductive LowerCall (Inode : Type) where
  | vfsMake (kind : MakeKind) (dir : Option Inode) (dentry : LowerOperand Inode)
  | vfsLink (old : LowerOperand Inode) (dir : Option Inode) (new : LowerOperand Inode)
  | vfsUnlink (dir : Option Inode) (dentry : LowerOperand Inode)
  | vfsRmdir (dir : Option Inode) (dentry : LowerOperand Inode)
  | vfsRename (oldDir : Option Inode) (old : LowerOperand Inode) (newDir : Option Inode)
      (new : LowerOperand Inode)

/-- What `vfs_unlink` does in the lower file system.  NFS gives a file that is in use an unused name
instead of removing it; asked to unlink it again, it fails with `-EBUSY`.  `nfsRenamed` is the flag
`DCACHE_NFSFS_RENAMED` of the dentry after a call that fails. -/
inductive LowerUnlink where
  | removed
  | sillyRenamed (hidden : Name)
  | failed (err : Err) (nonzero : err ≠ 0) (nfsRenamed : Bool)

namespace LowerUnlink

def err : LowerUnlink → Err
  | removed | sillyRenamed _ => 0
  | failed err _ _ => err

def nfsRenamed : LowerUnlink → Bool
  | removed => false
  | sillyRenamed _ => true
  | failed _ _ nfsRenamed => nfsRenamed

variable {Inode : Type}

/-- A directory with entries is not unlinked, and NFS takes no name that exists. -/
def admitted (outcome : LowerUnlink) (lower : Cache Name Inode) (low : Nat) : LowerUnlink :=
  if lower.hasChild low then .failed .eisdir (by decide) false
  else
    match outcome with
    | sillyRenamed hidden =>
        match lower.dLookup (lower.node low).parent hidden with
        | some target =>
            if (lower.node target).inode.isSome then .failed .ebusy (by decide) false
            else sillyRenamed hidden
        | none => sillyRenamed hidden
    | outcome => outcome

end LowerUnlink

/-- A call of the VFS on the mount: the directories and names it works on, with the outcomes of the
lower calls.  Unused dentries leave the caches at any time. -/
inductive StackEvent (Inode : Type) where
  | walk (dir : Nat) (name : Name) (inputs : LookupInputs Inode)
  | make (dir : Nat) (name : Name) (inputs : LookupInputs Inode) (kind : MakeKind) (vfsMake : Err)
      (inode : Inode) (interposed : Interposed)
  | link (oldDir : Nat) (oldName : Name) (oldInputs : LookupInputs Inode) (newDir : Nat)
      (newName : Name) (newInputs : LookupInputs Inode) (vfsLink : Err) (hasInode : Bool)
      (interposed : Interposed)
  | unlink (dir : Nat) (name : Name) (inputs : LookupInputs Inode) (vfsUnlink : LowerUnlink)
  | rmdir (dir : Nat) (name : Name) (inputs : LookupInputs Inode) (vfsRmdir : Err)
  | rename (oldDir : Nat) (oldName : Name) (oldInputs : LookupInputs Inode) (newDir : Nat)
      (newName : Name) (newInputs : LookupInputs Inode) (trap : Trap) (vfsRename : Err)
  | prune (dentry : Nat)
  | pruneLower (low : Nat)

/-- The directories an event names. -/
def StackEvent.dirs {Inode : Type} : StackEvent Inode → List Nat
  | walk dir _ _ | make dir _ _ _ _ _ _ | unlink dir _ _ _ | rmdir dir _ _ _ => [dir]
  | link oldDir _ _ newDir _ _ _ _ _ | rename oldDir _ _ newDir _ _ _ _ => [oldDir, newDir]
  | prune _ | pruneLower _ => []

namespace Stack

variable {Inode : Type}

/-- The mount when `trfs_read_super` has returned. -/
def mounted (lowerName : Name) (inode : Inode) : Stack Inode where
  upper := .start .slash inode
  lower := .start lowerName inode
  below := fun dentry => if dentry = 0 then some 0 else none

def operand (stack : Stack Inode) (low : Nat) : LowerOperand Inode where
  parent := (stack.lower.node low).parent
  dir := (stack.lower.node (stack.lower.node low).parent).inode
  name := (stack.lower.node low).name
  inode := (stack.lower.node low).inode

/-- The dentry for a name: the one in the cache, or one that `trfs_lookup` fills in.  Of a name
that does not exist `trfs_lookup` hashes the lower dentry, but not the one it is given.  Nothing is
looked up in a directory that is gone. -/
def lookup (stack : Stack Inode) (dir : Nat) (name : Name) (inputs : LookupInputs Inode) :
    Option Nat × Stack Inode :=
  match stack.upper.dLookup dir name, stack.below dir, (stack.upper.node dir).hashed with
  | some dentry, _, _ => (some dentry, stack)
  | none, some lowerDir, true =>
      let (lower, outcomes) :=
        if inputs.newPrivateData ≠ 0 then
          (stack.lower, ⟨inputs.newPrivateData, false, .failed .enoent Err.enoent_ne_zero,
            inputs.interposed.retDentry, none, none⟩)
        else consult stack.lower lowerDir name inputs
      match (trfsLookup dir ⟨lowerDir, ()⟩ outcomes).lowerPath with
      | none => (none, { stack with lower := lower })
      | some path =>
          let dentry := stack.upper.count
          (some dentry,
            { upper := dSpliceAlias (stack.upper.dAlloc dir name) dentry
                (lower.node path.dentry).inode outcomes.vfsPathLookup
              lower := lower
              below := Function.update stack.below dentry (some path.dentry) })
  | _, _, _ => (none, stack)

/-- `trfs_create`, `trfs_symlink`, `trfs_mkdir` and `trfs_mknod`. -/
def make (stack : Stack Inode) (dentry : Nat) (kind : MakeKind) (vfsMake : Err) (inode : Inode)
    (interposed : Interposed) : Stack Inode × List (LowerCall Inode) :=
  match stack.below dentry with
  | none => (stack, [])
  | some low =>
      let calls := [.vfsMake kind (stack.operand low).dir (stack.operand low)]
      if vfsMake ≠ 0 then (stack, calls)
      else
        let lower := stack.lower.dInstantiate low (some inode)
        if isErr interposed.retDentry then ({ stack with lower := lower }, calls)
        else (⟨stack.upper.dAdd dentry (some inode), lower, stack.below⟩, calls)

/-- `trfs_link`.  The lower file system may leave the new dentry without an inode. -/
def link (stack : Stack Inode) (old new : Nat) (vfsLink : Err) (hasInode : Bool)
    (interposed : Interposed) : Stack Inode × List (LowerCall Inode) :=
  match stack.below old, stack.below new with
  | some oldLow, some newLow =>
      let calls := [.vfsLink (stack.operand oldLow) (stack.operand newLow).dir
        (stack.operand newLow)]
      if vfsLink ≠ 0 ∨ hasInode = false then (stack, calls)
      else
        let inode := (stack.lower.node oldLow).inode
        let lower := stack.lower.dInstantiate newLow inode
        if isErr interposed.retDentry then ({ stack with lower := lower }, calls)
        else (⟨stack.upper.dAdd new inode, lower, stack.below⟩, calls)
  | _, _ => (stack, [])

/-- The dentry for a name that does not exist. -/
def lookupFree (lower : Cache Name Inode) (dir : Nat) (name : Name) : Cache Name Inode × Nat :=
  match lower.dLookup dir name with
  | some target => (lower, target)
  | none => (lower.enter dir name none, lower.count)

/-- The lower dentries after `vfs_unlink`.  The dentry is in use, so that `d_delete` unhashes it. -/
def afterUnlink (lower : Cache Name Inode) (low : Nat) : LowerUnlink → Cache Name Inode
  | .removed => lower.dDrop low
  | .sillyRenamed hidden =>
      let free := lookupFree lower (lower.node low).parent hidden
      free.1.dMove low free.2
  | .failed _ _ _ => lower

/-- `trfs_unlink`. -/
def unlink (stack : Stack Inode) (dir dentry : Nat) (vfsUnlink : LowerUnlink) :
    Stack Inode × List (LowerCall Inode) :=
  match stack.below dentry with
  | none => (stack, [])
  | some low =>
      let calls := [.vfsUnlink (stack.upper.node dir).inode (stack.operand low)]
      let outcome := vfsUnlink.admitted stack.lower low
      if (trfsUnlink (stack.operand low).name outcome.err outcome.nfsRenamed).err ≠ 0 then
        (stack, calls)
      else (⟨stack.upper.dDrop dentry, afterUnlink stack.lower low outcome, stack.below⟩, calls)

/-- `trfs_rmdir`. -/
def rmdir (stack : Stack Inode) (dentry : Nat) (vfsRmdir : Err) :
    Stack Inode × List (LowerCall Inode) :=
  match stack.below dentry with
  | none => (stack, [])
  | some low =>
      let calls := [.vfsRmdir (stack.operand low).dir (stack.operand low)]
      let vfsRmdir := if stack.lower.hasChild low then .enotempty else vfsRmdir
      if vfsRmdir ≠ 0 then (stack, calls)
      else (⟨stack.upper.dDrop dentry, stack.lower.dDrop low, stack.below⟩, calls)

/-- `trfs_rename`, after which the VFS moves the dentry as `vfs_rename` has moved the lower one. -/
def rename (stack : Stack Inode) (old new : Nat) (trap : Trap) (vfsRename : Err) :
    Stack Inode × List (LowerCall Inode) :=
  match stack.below old, stack.below new with
  | some oldLow, some newLow =>
      let calls := if trap = .nothing then
          [.vfsRename (stack.operand oldLow).dir (stack.operand oldLow) (stack.operand newLow).dir
            (stack.operand newLow)]
        else []
      let vfsRename := if stack.lower.hasChild newLow then .enotempty else vfsRename
      if (trfsRename (stack.operand oldLow).name (stack.operand newLow).name trap vfsRename).err ≠ 0
      then (stack, calls)
      else (⟨stack.upper.dMove old new, stack.lower.dMove oldLow newLow, stack.below⟩, calls)
  | _, _ => (stack, [])

/-- `trfs_d_release` of a dentry that nothing uses, not even a dentry under it. -/
def prune (stack : Stack Inode) (dentry : Nat) : Stack Inode :=
  if dentry = 0 ∨ ∃ other < stack.upper.count,
      other ≠ 0 ∧ (stack.upper.node other).parent = dentry ∧ (stack.below other).isSome then stack
  else
    { stack with
      upper := stack.upper.dDrop dentry
      below := Function.update stack.below dentry none }

/-- The lower cache forgets a dentry that neither trfs nor another dentry refers to. -/
def pruneLower (stack : Stack Inode) (low : Nat) : Stack Inode :=
  if low = 0 ∨ (∃ dentry < stack.upper.count, stack.below dentry = some low) ∨
      ∃ other < stack.lower.count, (stack.lower.node other).parent = low then stack
  else { stack with lower := stack.lower.dDrop low }

/-- An operation on the dentry for a name. -/
def onName (stack : Stack Inode) (dir : Nat) (name : Name) (inputs : LookupInputs Inode)
    (operate : Nat → Stack Inode → Stack Inode × List (LowerCall Inode)) :
    Stack Inode × List (LowerCall Inode) :=
  match stack.lookup dir name inputs with
  | (none, looked) => (looked, [])
  | (some dentry, looked) => operate dentry looked

/-- An operation on the dentries for two names, of which the first exists.  Both directories are
found before either name is looked up. -/
def onNames (stack : Stack Inode) (oldDir : Nat) (oldName : Name) (oldInputs : LookupInputs Inode)
    (newDir : Nat) (newName : Name) (newInputs : LookupInputs Inode)
    (operate : Nat → Nat → Stack Inode → Stack Inode × List (LowerCall Inode)) :
    Stack Inode × List (LowerCall Inode) :=
  if (stack.upper.node newDir).hashed = false then (stack, [])
  else
    stack.onName oldDir oldName oldInputs fun old looked =>
      if (looked.upper.node old).inode = none then (looked, [])
      else looked.onName newDir newName newInputs (operate old)

/-- A call of the VFS and the calls it leads to in the lower file system.  The VFS makes no entry
where there is one, removes and moves only what exists, and does not move a file onto itself. -/
def perform [DecidableEq Inode] (stack : Stack Inode) :
    StackEvent Inode → Stack Inode × List (LowerCall Inode)
  | .walk dir name inputs => stack.onName dir name inputs fun _ looked => (looked, [])
  | .make dir name inputs kind vfsMake inode interposed =>
      stack.onName dir name inputs fun dentry looked =>
        if (looked.upper.node dentry).inode = none then
          looked.make dentry kind vfsMake inode interposed
        else (looked, [])
  | .link oldDir oldName oldInputs newDir newName newInputs vfsLink hasInode interposed =>
      stack.onNames oldDir oldName oldInputs newDir newName newInputs fun old new looked =>
        if (looked.upper.node new).inode = none then
          looked.link old new vfsLink hasInode interposed
        else (looked, [])
  | .unlink dir name inputs vfsUnlink =>
      stack.onName dir name inputs fun dentry looked =>
        if (looked.upper.node dentry).inode = none then (looked, [])
        else looked.unlink dir dentry vfsUnlink
  | .rmdir dir name inputs vfsRmdir =>
      stack.onName dir name inputs fun dentry looked =>
        if (looked.upper.node dentry).inode = none then (looked, [])
        else looked.rmdir dentry vfsRmdir
  | .rename oldDir oldName oldInputs newDir newName newInputs trap vfsRename =>
      stack.onNames oldDir oldName oldInputs newDir newName newInputs fun old new looked =>
        if (looked.upper.node old).inode = (looked.upper.node new).inode then (looked, [])
        else looked.rename old new trap vfsRename
  | .prune dentry => (stack.prune dentry, [])
  | .pruneLower low => (stack.pruneLower low, [])

def step [DecidableEq Inode] (stack : Stack Inode) (event : StackEvent Inode) : Stack Inode :=
  (stack.perform event).1

end Stack

end Tracefs
