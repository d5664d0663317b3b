import Tracefs.Vfs.Operations

/-!
# The operations step by step

What an operation does besides its result: the references and locks it takes and
drops, its calls into the lower file system, the attributes it copies and its
hook, in the order of the source.
-/

namespace Tracefs

open Bytes

def Err.echild : Err := BitVec.ofInt 32 (-10)

/-- The dentries that an operation is given. -/
inductive Operand where
  | dentry
  | oldDentry
  | newDentry
  deriving DecidableEq

/-- The dentry of the lower path of an operand, and the parent of that dentry. -/
inductive LowerDentry where
  | of (operand : Operand)
  | parentOf (operand : Operand)
  deriving DecidableEq

/-- `d_inode` of an operand, and the inode of the directory it is in. -/
inductive UpperInode where
  | inode (operand : Operand)
  | dir (operand : Operand)
  deriving DecidableEq

/-- `d_inode` of a lower dentry, `trfs_lower_inode` of an inode, `file_inode` of
the lower file. -/
inductive LowerInode where
  | dInode (dentry : LowerDentry)
  | lowerOf (inode : UpperInode)
  | ofFile
  deriving DecidableEq

inductive Step where
  | pathGet (operand : Operand)
  | pathPut (operand : Operand)
  | dget (dentry : LowerDentry)
  | dput (dentry : LowerDentry)
  | inodeLock (dentry : LowerDentry)
  | inodeUnlock (dentry : LowerDentry)
  | lockRename (first second : LowerDentry)
  | unlockRename (first second : LowerDentry)
  | lowerCall
  /-- `d_splice_alias` for an operand, with the dentry that it returns -/
  | splice (operand : Operand) (retDentry : BitVec 64)
  | copyAttrTimes (dest : UpperInode) (src : LowerInode)
  | copyAttrAtime (dest : UpperInode) (src : LowerInode)
  | copyAttrAll (dest : UpperInode) (src : LowerInode)
  | copyInodeSize (dest : UpperInode) (src : LowerInode)
  /-- the size that the second inode had when the operation began -/
  | iSizeWrite (dest saved : UpperInode)
  | copyCtime (dest src : UpperInode)
  | hook (call : TracedCall)

/-- What an operation does, and what it returns. -/
structure Trail where
  steps : List Step
  err : Err

/-- `PTR_ERR` of the dentry that `__trfs_interpose` returns, as an `int`: 0 for the
null pointer, the error number for an error, and some digits of any other address. -/
def ptrErr (retDentry : BitVec 64) : Err := retDentry.setWidth 32

/-- `IS_ERR` -/
def isErr (pointer : BitVec 64) : Bool := BitVec.ofInt 64 (-4095) ≤ pointer

namespace Trail

def trfsGetLowerPath (operand : Operand) : List Step := [.pathGet operand]

def trfsPutLowerPath (operand : Operand) : List Step := [.pathPut operand]

def trace (call : TracedCall) : List Step := [.hook call]

/-- A call into the lower file system that is made only if the lower object has the
operation. -/
def lowerCallIf (supported : Bool) : List Step := if supported then [.lowerCall] else []

def lockParent (operand : Operand) : List Step :=
  [.dget (.parentOf operand), .inodeLock (.parentOf operand)]

def unlockDir (operand : Operand) : List Step :=
  [.inodeUnlock (.parentOf operand), .dput (.parentOf operand)]

/-- `trfs_create`, `trfs_symlink`, `trfs_mkdir` and `trfs_mknod` differ in their
lower call and their hook. -/
def createLike (lower : Err) (retDentry : BitVec 64) (hook : Err → List Step) : Trail :=
  let err := firstError lower (ptrErr retDentry)
  let interposition : List Step :=
    if lower ≠ 0 then []
    else .splice .dentry retDentry ::
      if ptrErr retDentry ≠ 0 then []
      else [.copyAttrTimes (.dir .dentry) (.lowerOf (.dir .dentry)),
        .copyInodeSize (.dir .dentry) (.dInode (.parentOf .dentry))]
  ⟨trfsGetLowerPath .dentry ++ lockParent .dentry ++ lowerCallIf true ++ interposition ++
    hook err ++ unlockDir .dentry ++ trfsPutLowerPath .dentry, err⟩

def trfsCreate (vfsCreate : Err) (retDentry : BitVec 64) : Trail :=
  createLike vfsCreate retDentry fun _ => []

/-- Times and size of the directory come from the inode of the new entry. -/
def trfsLink (oldName newName : Name) (vfsLink : Err) (hasInode : Bool)
    (retDentry : BitVec 64) : Trail :=
  let early := vfsLink ≠ 0 ∨ hasInode = false
  let err := if early then vfsLink else ptrErr retDentry
  let interposition : List Step :=
    if early then []
    else .splice .newDentry retDentry ::
      if ptrErr retDentry ≠ 0 then []
      else [.copyAttrTimes (.dir .newDentry) (.dInode (.of .newDentry)),
        .copyInodeSize (.dir .newDentry) (.dInode (.of .newDentry)),
        .iSizeWrite (.inode .newDentry) (.inode .oldDentry)]
  ⟨trfsGetLowerPath .oldDentry ++ trfsGetLowerPath .newDentry ++ lockParent .newDentry ++
    lowerCallIf true ++ interposition ++ trace (.link oldName newName err) ++
    unlockDir .newDentry ++ trfsPutLowerPath .oldDentry ++ trfsPutLowerPath .newDentry, err⟩

def trfsUnlink (name : Name) (vfsUnlink : Err) (nfsRenamed : Bool) : Trail :=
  let err := if vfsUnlink = .ebusy ∧ nfsRenamed then 0 else vfsUnlink
  let copies : List Step :=
    if err ≠ 0 then []
    else [.copyAttrTimes (.dir .dentry) (.lowerOf (.dir .dentry)),
      .copyInodeSize (.dir .dentry) (.lowerOf (.dir .dentry)),
      .copyCtime (.inode .dentry) (.dir .dentry)]
  ⟨trfsGetLowerPath .dentry ++ .dget (.of .dentry) :: lockParent .dentry ++ lowerCallIf true ++
    copies ++ trace (.unlink name err) ++ unlockDir .dentry ++
    .dput (.of .dentry) :: trfsPutLowerPath .dentry, err⟩

def trfsSymlink (name : Name) (symname : LinkTarget) (vfsSymlink : Err)
    (retDentry : BitVec 64) : Trail :=
  createLike vfsSymlink retDentry fun err => trace (.symlink name symname err)

def trfsMkdir (name : Name) (mode : BitVec 32) (vfsMkdir : Err) (retDentry : BitVec 64) : Trail :=
  createLike vfsMkdir retDentry fun err => trace (.mkdir name mode err)

def trfsRmdir (name : Name) (vfsRmdir : Err) : Trail :=
  let copies : List Step :=
    if vfsRmdir ≠ 0 then []
    else [.copyAttrTimes (.dir .dentry) (.dInode (.parentOf .dentry)),
      .copyInodeSize (.dir .dentry) (.dInode (.parentOf .dentry))]
  ⟨trfsGetLowerPath .dentry ++ lockParent .dentry ++ lowerCallIf true ++ copies ++
    trace (.rmdir name vfsRmdir) ++ unlockDir .dentry ++ trfsPutLowerPath .dentry, vfsRmdir⟩

def trfsMknod (name : Name) (vfsMknod : Err) (retDentry : BitVec 64) : Trail :=
  createLike vfsMknod retDentry fun err => trace (.mknod name err)

def lockRename : List Step :=
  [.dget (.parentOf .oldDentry), .dget (.parentOf .newDentry),
    .lockRename (.parentOf .oldDentry) (.parentOf .newDentry)]

def unlockRename : List Step :=
  [.unlockRename (.parentOf .oldDentry) (.parentOf .newDentry),
    .dput (.parentOf .oldDentry), .dput (.parentOf .newDentry)]

def copyDir (operand : Operand) : List Step :=
  [.copyAttrAll (.dir operand) (.dInode (.parentOf operand)),
    .copyInodeSize (.dir operand) (.dInode (.parentOf operand))]

/-- `sameDir` says that `new_dir` is `old_dir`. -/
def trfsRename (oldName newName : Name) (sameDir : Bool) (trap : Trap) (vfsRename : Err) : Trail :=
  let err : Err := match trap with
    | .oldDentry => .einval
    | .newDentry => .enotempty
    | .nothing => vfsRename
  let copies : List Step :=
    if err ≠ 0 then [] else copyDir .newDentry ++ if sameDir then [] else copyDir .oldDentry
  ⟨trfsGetLowerPath .oldDentry ++ trfsGetLowerPath .newDentry ++ lockRename ++
    lowerCallIf (trap = .nothing) ++ copies ++ trace (.rename oldName newName err) ++
    unlockRename ++ trfsPutLowerPath .oldDentry ++ trfsPutLowerPath .newDentry, err⟩

def trfsReadlink (supported : Bool) (readlink : Err) : Trail :=
  let err := ifSupported supported .einval readlink
  let copies : List Step :=
    if err.toInt < 0 then [] else [.copyAttrAtime (.inode .dentry) (.dInode (.of .dentry))]
  ⟨trfsGetLowerPath .dentry ++ lowerCallIf supported ++ copies ++ trfsPutLowerPath .dentry, err⟩

@[inherit_doc Tracefs.trfsSetattr]
def trfsSetattr (inodeChangeOk : Err) (newsizeOk : Option Err) (notifyChange : Err) : Trail :=
  if inodeChangeOk ≠ 0 then ⟨[], inodeChangeOk⟩
  else if newsizeOk.getD 0 ≠ 0 then
    ⟨trfsGetLowerPath .dentry ++ trfsPutLowerPath .dentry, newsizeOk.getD 0⟩
  else
    let copies : List Step :=
      if notifyChange ≠ 0 then []
      else [.copyAttrAll (.inode .dentry) (.lowerOf (.inode .dentry))]
    ⟨trfsGetLowerPath .dentry ++ .inodeLock (.of .dentry) :: lowerCallIf true ++
      .inodeUnlock (.of .dentry) :: copies ++ trfsPutLowerPath .dentry, notifyChange⟩

def trfsGetattr (vfsGetattr : Err) : Trail :=
  let copies : List Step :=
    if vfsGetattr ≠ 0 then [] else [.copyAttrAll (.inode .dentry) (.dInode (.of .dentry))]
  ⟨trfsGetLowerPath .dentry ++ lowerCallIf true ++ copies ++ trfsPutLowerPath .dentry, vfsGetattr⟩

/-- The four operations on extended attributes differ in the error for a missing
lower operation, in the copy after a success and in the hook. -/
def xattrLike (supported : Bool) (missing lower : Err) (copy : Step)
    (hook : Err → TracedCall) : Trail :=
  let err := ifSupported supported missing lower
  let copies : List Step := if err ≠ 0 then [] else [copy]
  ⟨trfsGetLowerPath .dentry ++ lowerCallIf supported ++ copies ++ trace (hook err) ++
    trfsPutLowerPath .dentry, err⟩

def trfsSetxattr (name : Name) (supported : Bool) (vfsSetxattr : Err) : Trail :=
  xattrLike supported .eopnotsupp vfsSetxattr
    (.copyAttrAll (.inode .dentry) (.dInode (.of .dentry))) (.setxattr name)

def trfsGetxattr (name : Name) (supported : Bool) (vfsGetxattr : Err) : Trail :=
  xattrLike supported .eopnotsupp vfsGetxattr
    (.copyAttrAtime (.inode .dentry) (.dInode (.of .dentry))) (.getxattr name)

def trfsListxattr (name : Name) (supported : Bool) (vfsListxattr : Err) : Trail :=
  xattrLike supported .eopnotsupp vfsListxattr
    (.copyAttrAtime (.inode .dentry) (.dInode (.of .dentry))) (.listxattr name)

def trfsRemovexattr (name : Name) (supported : Bool) (vfsRemovexattr : Err) : Trail :=
  xattrLike supported .einval vfsRemovexattr
    (.copyAttrAll (.inode .dentry) (.dInode (.of .dentry))) (.removexattr name)

def trfsRead (file : OpenedFile) (count : BitVec 64) (vfsRead : Err) (ppos : BitVec 64) : Trail :=
  let copies : List Step :=
    if vfsRead.toInt < 0 then [] else [.copyAttrAtime (.inode .dentry) .ofFile]
  ⟨lowerCallIf true ++ copies ++ trace (.read file.name count ppos file.addr vfsRead), vfsRead⟩

def trfsWrite (file : OpenedFile) (buf : Payload) (vfsWrite : Err) (ppos : BitVec 64) : Trail :=
  let copies : List Step :=
    if vfsWrite.toInt < 0 then []
    else [.copyInodeSize (.inode .dentry) .ofFile, .copyAttrTimes (.inode .dentry) .ofFile]
  ⟨lowerCallIf true ++ copies ++ trace (.write file.name buf ppos file.addr vfsWrite), vfsWrite⟩

@[inherit_doc Tracefs.trfsOpen]
def trfsOpen (file : OpenedFile) (flags mode : BitVec 32) (unhashed allocated : Bool)
    (dentryOpen : Err) : Trail :=
  let err : Err := if unhashed then .enoent else if allocated then dentryOpen else .enomem
  let opening : List Step :=
    if unhashed ∨ allocated = false then []
    else trfsGetLowerPath .dentry ++ lowerCallIf true ++ .pathPut .dentry ::
      if dentryOpen ≠ 0 then [] else [.copyAttrAll (.inode .dentry) (.lowerOf (.inode .dentry))]
  ⟨opening ++ trace (.openFile file.name flags mode file.addr err), err⟩

/-- The lower operation is the `fput`, if there is a lower file. -/
def trfsFileRelease (file : OpenedFile) (hasLower : Bool) : Trail :=
  ⟨lowerCallIf hasLower ++ trace (.close file.name file.addr 0), 0⟩

def trfsFsync (genericFsync vfsFsyncRange : Err) : Trail :=
  if genericFsync ≠ 0 then ⟨[], genericFsync⟩
  else
    ⟨trfsGetLowerPath .dentry ++ lowerCallIf true ++ trfsPutLowerPath .dentry, vfsFsyncRange⟩

def trfsStatfs (vfsStatfs : Err) : Trail :=
  ⟨trfsGetLowerPath .dentry ++ lowerCallIf true ++ trfsPutLowerPath .dentry, vfsStatfs⟩

/-- The lower dentry may have no operation to revalidate it. -/
def trfsDRevalidate (rcu : Bool) (lowerRevalidate : Option Err) : Trail :=
  if rcu then ⟨[], .echild⟩
  else
    ⟨trfsGetLowerPath .dentry ++ lowerCallIf lowerRevalidate.isSome ++ trfsPutLowerPath .dentry,
      lowerRevalidate.getD 1⟩

end Trail

/-- The operations that take lower paths or call a hook, with their arguments and
the outcomes of the calls inside them. -/
inductive Operation where
  | create (vfsCreate : Err) (retDentry : BitVec 64)
  | link (oldName newName : Name) (vfsLink : Err) (hasInode : Bool) (retDentry : BitVec 64)
  | unlink (name : Name) (vfsUnlink : Err) (nfsRenamed : Bool)
  | symlink (name : Name) (symname : LinkTarget) (vfsSymlink : Err) (retDentry : BitVec 64)
  | mkdir (name : Name) (mode : BitVec 32) (vfsMkdir : Err) (retDentry : BitVec 64)
  | rmdir (name : Name) (vfsRmdir : Err)
  | mknod (name : Name) (vfsMknod : Err) (retDentry : BitVec 64)
  | rename (oldName newName : Name) (sameDir : Bool) (trap : Trap) (vfsRename : Err)
  | readlink (supported : Bool) (lower : Err)
  | setattr (inodeChangeOk : Err) (newsizeOk : Option Err) (notifyChange : Err)
  | getattr (vfsGetattr : Err)
  | setxattr (name : Name) (supported : Bool) (vfsSetxattr : Err)
  | getxattr (name : Name) (supported : Bool) (vfsGetxattr : Err)
  | listxattr (name : Name) (supported : Bool) (vfsListxattr : Err)
  | removexattr (name : Name) (supported : Bool) (vfsRemovexattr : Err)
  | read (file : OpenedFile) (count : BitVec 64) (vfsRead : Err) (ppos : BitVec 64)
  | write (file : OpenedFile) (buf : Payload) (vfsWrite : Err) (ppos : BitVec 64)
  | openFile (file : OpenedFile) (flags mode : BitVec 32) (unhashed allocated : Bool)
      (dentryOpen : Err)
  | release (file : OpenedFile) (hasLower : Bool)
  | fsync (genericFsync vfsFsyncRange : Err)
  | statfs (vfsStatfs : Err)
  | dRevalidate (rcu : Bool) (lowerRevalidate : Option Err)

namespace Operation

def trail : Operation → Trail
  | create vfsCreate retDentry => .trfsCreate vfsCreate retDentry
  | link oldName newName vfsLink hasInode retDentry =>
      .trfsLink oldName newName vfsLink hasInode retDentry
  | unlink name vfsUnlink nfsRenamed => .trfsUnlink name vfsUnlink nfsRenamed
  | symlink name symname vfsSymlink retDentry => .trfsSymlink name symname vfsSymlink retDentry
  | mkdir name mode vfsMkdir retDentry => .trfsMkdir name mode vfsMkdir retDentry
  | rmdir name vfsRmdir => .trfsRmdir name vfsRmdir
  | mknod name vfsMknod retDentry => .trfsMknod name vfsMknod retDentry
  | rename oldName newName sameDir trap vfsRename =>
      .trfsRename oldName newName sameDir trap vfsRename
  | readlink supported lower => .trfsReadlink supported lower
  | setattr inodeChangeOk newsizeOk notifyChange =>
      .trfsSetattr inodeChangeOk newsizeOk notifyChange
  | getattr vfsGetattr => .trfsGetattr vfsGetattr
  | setxattr name supported vfsSetxattr => .trfsSetxattr name supported vfsSetxattr
  | getxattr name supported vfsGetxattr => .trfsGetxattr name supported vfsGetxattr
  | listxattr name supported vfsListxattr => .trfsListxattr name supported vfsListxattr
  | removexattr name supported vfsRemovexattr => .trfsRemovexattr name supported vfsRemovexattr
  | read file count vfsRead ppos => .trfsRead file count vfsRead ppos
  | write file buf vfsWrite ppos => .trfsWrite file buf vfsWrite ppos
  | openFile file flags mode unhashed allocated dentryOpen =>
      .trfsOpen file flags mode unhashed allocated dentryOpen
  | release file hasLower => .trfsFileRelease file hasLower
  | fsync genericFsync vfsFsyncRange => .trfsFsync genericFsync vfsFsyncRange
  | statfs vfsStatfs => .trfsStatfs vfsStatfs
  | dRevalidate rcu lowerRevalidate => .trfsDRevalidate rcu lowerRevalidate

/-- The call whose result is modelled, for the operations that may be traced. -/
def call : Operation → Option VfsCall
  | create vfsCreate retDentry => some (.create vfsCreate (ptrErr retDentry))
  | link oldName newName vfsLink hasInode retDentry =>
      some (.link oldName newName vfsLink hasInode (ptrErr retDentry))
  | unlink name vfsUnlink nfsRenamed => some (.unlink name vfsUnlink nfsRenamed)
  | symlink name symname vfsSymlink retDentry =>
      some (.symlink name symname vfsSymlink (ptrErr retDentry))
  | mkdir name mode vfsMkdir retDentry => some (.mkdir name mode vfsMkdir (ptrErr retDentry))
  | rmdir name vfsRmdir => some (.rmdir name vfsRmdir)
  | mknod name vfsMknod retDentry => some (.mknod name vfsMknod (ptrErr retDentry))
  | rename oldName newName _ trap vfsRename => some (.rename oldName newName trap vfsRename)
  | setattr inodeChangeOk newsizeOk notifyChange =>
      some (.setattr inodeChangeOk newsizeOk notifyChange)
  | setxattr name supported vfsSetxattr => some (.setxattr name supported vfsSetxattr)
  | getxattr name supported vfsGetxattr => some (.getxattr name supported vfsGetxattr)
  | listxattr name supported vfsListxattr => some (.listxattr name supported vfsListxattr)
  | removexattr name supported vfsRemovexattr =>
      some (.removexattr name supported vfsRemovexattr)
  | read file count vfsRead ppos => some (.read file count vfsRead ppos)
  | write file buf vfsWrite ppos => some (.write file buf vfsWrite ppos)
  | openFile file flags mode unhashed allocated dentryOpen =>
      some (.openFile file flags mode unhashed allocated dentryOpen)
  | release file _ => some (.release file)
  | readlink .. | getattr .. | fsync .. | statfs .. | dRevalidate .. => none

end Operation

end Tracefs
