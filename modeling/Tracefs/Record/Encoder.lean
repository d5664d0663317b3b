import Tracefs.Bytes.CString
import Tracefs.Record.Structs

/-!
# The kernel record encoders

Each `trfs_log_*_op` function computes a size, allocates a buffer of that size,
fills it by a fixed sequence of stores and hands buffer and size to
`TRFS_WRITE`.  The buffer comes from `kmalloc`, so the stores run over whatever
the heap held before.
-/

namespace Tracefs

open Bytes

/-- A directory entry name: one component, without the terminator. -/
@[ext] structure Name where
  text : List UInt8
  clean : 0 ∉ text
  nonempty : 1 ≤ text.length
  bounded : text.length ≤ 255
  deriving DecidableEq

def Name.a : Name := ⟨[97], by decide, by decide, by decide⟩

/-- A symbolic link target: a path below `PATH_MAX`. -/
structure LinkTarget where
  text : List UInt8
  clean : 0 ∉ text
  nonempty : 1 ≤ text.length
  bounded : text.length ≤ 4095

/-- `MAX_RW_COUNT`, the largest transfer the VFS passes on. -/
def maxRwCount : Nat := 0x7ffff000

structure Payload where
  bytes : List UInt8
  bounded : bytes.length ≤ maxRwCount

/-- One store of an encoder into its buffer. -/
inductive Store where
  /-- `op->field = value` -/
  | assign (field : Field) (value : Nat)
  /-- `strcpy` or `memcpy` to `op->field + displacement` -/
  | copy (field : Field) (displacement : Nat) (bytes : List UInt8)

namespace Store

def field : Store → Field
  | assign field _ => field
  | copy field _ _ => field

def offset (decl : StructDecl Field) : Store → Nat
  | assign field _ => decl.offsetOf field
  | copy field displacement _ => decl.offsetOf field + displacement

def bytes (decl : StructDecl Field) : Store → List UInt8
  | assign field value => wordBytes (decl.widthOf field) value
  | copy _ _ bytes => bytes

def apply (decl : StructDecl Field) (memory : Memory) (store : Store) : Memory :=
  memory.store (store.offset decl) (store.bytes decl)

end Store

/-- All record structures begin with `r_id`, `r_size` and `r_type`. -/
def HeaderPlaced (decl : StructDecl Field) : Prop :=
  decl.offsetOf .rId = 0 ∧ decl.widthOf .rId = 4 ∧
    decl.offsetOf .rSize = 4 ∧ decl.widthOf .rSize = 2 ∧
    decl.offsetOf .rType = 6 ∧ decl.widthOf .rType = 1

instance (decl : StructDecl Field) : Decidable (HeaderPlaced decl) := by
  unfold HeaderPlaced
  infer_instance

/-- What distinguishes one `trfs_log_*_op` function, at given arguments, from
the others.  `body` lists the stores that follow those of the header. -/
structure Encoder where
  /-- bit of the bitmap tested by `IS_TRACE_ENABLED` -/
  gate : TrfsOps
  rType : TrfsOps
  decl : StructDecl Field
  /-- the C variable `size`, an `int` -/
  size : Int
  body : List Store
  header : HeaderPlaced decl
  pastHeader : ∀ field ∈ body.map Store.field, 7 ≤ decl.offsetOf field

/-- `size = sizeof(..) + ..`: a `size_t` sum stored in an `int`. -/
def recordSize (decl : StructDecl Field) (variablePart : Nat) : Int :=
  toInt32 (decl.sizeof + variablePart)

def trfsLogMkdirOp (name : Name) (mode ret : BitVec 32) : Encoder where
  gate := .mkdir
  rType := .mkdir
  decl := Kernel.trfsMkdirOp
  size := recordSize Kernel.trfsMkdirOp name.text.length
  body :=
    [.assign .mode mode.toNat, .assign .len name.text.length, .assign .ret ret.toNat,
     .copy .pathname 0 (terminated name.text)]
  header := by decide
  pastHeader := by
    show ∀ field ∈ [Field.mode, .len, .ret, .pathname], _
    decide

/-- `trfs_log_rmdir_op` and `trfs_log_unlink_op` differ in type and structure only. -/
def dentryEncoder (op : TrfsOps) (decl : StructDecl Field) (header : HeaderPlaced decl)
    (pastHeader : ∀ field ∈ [Field.len, .ret, .pathname], 7 ≤ decl.offsetOf field)
    (name : Name) (ret : BitVec 32) : Encoder where
  gate := op
  rType := op
  decl := decl
  size := recordSize decl name.text.length
  body :=
    [.assign .len name.text.length, .assign .ret ret.toNat,
     .copy .pathname 0 (terminated name.text)]
  header := header
  pastHeader := pastHeader

def trfsLogRmdirOp (name : Name) (ret : BitVec 32) : Encoder :=
  dentryEncoder .rmdir Kernel.trfsRmdirOp (by decide) (by decide) name ret

def trfsLogUnlinkOp (name : Name) (ret : BitVec 32) : Encoder :=
  dentryEncoder .unlink Kernel.trfsUnlinkOp (by decide) (by decide) name ret

/-- Both path lengths are taken from `old_dentry`. -/
def trfsLogLinkOp (oldName newName : Name) (ret : BitVec 32) : Encoder where
  gate := .link
  rType := .link
  decl := Kernel.trfsLinkOp
  size := recordSize Kernel.trfsLinkOp (oldName.text.length + oldName.text.length)
  body :=
    [.assign .plen oldName.text.length, .assign .hlen oldName.text.length,
     .assign .ret ret.toNat, .copy .pathname 0 (terminated oldName.text),
     .copy .pathname oldName.text.length (terminated newName.text)]
  header := by decide
  pastHeader := by
    show ∀ field ∈ [Field.plen, .hlen, .ret, .pathname, .pathname], _
    decide

def trfsLogSymlinkOp (name : Name) (target : LinkTarget) (ret : BitVec 32) : Encoder where
  gate := .symlink
  rType := .symlink
  decl := Kernel.trfsSymlinkOp
  size := recordSize Kernel.trfsSymlinkOp (name.text.length + target.text.length)
  body :=
    [.assign .plen name.text.length, .assign .slen target.text.length,
     .assign .ret ret.toNat, .copy .pathname 0 (terminated name.text),
     .copy .pathname name.text.length (terminated target.text)]
  header := by decide
  pastHeader := by
    show ∀ field ∈ [Field.plen, .slen, .ret, .pathname, .pathname], _
    decide

def trfsLogRenameOp (oldName newName : Name) (ret : BitVec 32) : Encoder where
  gate := .rename
  rType := .rename
  decl := Kernel.trfsRenameOp
  size := recordSize Kernel.trfsRenameOp (oldName.text.length + newName.text.length)
  body :=
    [.assign .len1 oldName.text.length, .assign .len2 newName.text.length,
     .assign .ret ret.toNat, .copy .pathname1 0 (terminated oldName.text),
     .copy .pathname1 oldName.text.length (terminated newName.text)]
  header := by decide
  pastHeader := by
    show ∀ field ∈ [Field.len1, .len2, .ret, .pathname1, .pathname1], _
    decide

def trfsLogOpenOp (pid : BitVec 32) (name : Name) (flags mode : BitVec 32)
    (file : BitVec 64) (ret : BitVec 32) : Encoder where
  gate := .openFile
  rType := .openFile
  decl := Kernel.trfsOpenOp
  size := recordSize Kernel.trfsOpenOp name.text.length
  body :=
    [.assign .pid pid.toNat, .assign .flags flags.toNat, .assign .mode mode.toNat,
     .assign .len name.text.length, .assign .ret ret.toNat,
     .copy .addr 0 (wordBytes 8 file.toNat), .copy .pathname 0 (terminated name.text)]
  header := by decide
  pastHeader := by
    show ∀ field ∈ [Field.pid, .flags, .mode, .len, .ret, .addr, .pathname], _
    decide

def trfsLogReadOp (pid : BitVec 32) (name : Name) (count ppos file : BitVec 64)
    (ret : BitVec 32) : Encoder where
  gate := .read
  rType := .read
  decl := Kernel.trfsReadOp
  size := recordSize Kernel.trfsReadOp name.text.length
  body :=
    [.assign .pid pid.toNat, .assign .len name.text.length, .assign .count count.toNat,
     .assign .ppos ppos.toNat, .assign .ret ret.toNat,
     .copy .addr 0 (wordBytes 8 file.toNat), .copy .pathname 0 (terminated name.text)]
  header := by decide
  pastHeader := by
    show ∀ field ∈ [Field.pid, .len, .count, .ppos, .ret, .addr, .pathname], _
    decide

/-- The name is copied without its terminator, the data right behind it. -/
def trfsLogWriteOp (pid : BitVec 32) (name : Name) (buf : Payload)
    (ppos file : BitVec 64) (ret : BitVec 32) : Encoder where
  gate := .write
  rType := .write
  decl := Kernel.trfsWriteOp
  size := recordSize Kernel.trfsWriteOp (name.text.length + buf.bytes.length)
  body :=
    [.assign .pid pid.toNat, .assign .len name.text.length, .assign .count buf.bytes.length,
     .assign .ppos ppos.toNat, .assign .ret ret.toNat,
     .copy .addr 0 (wordBytes 8 file.toNat), .copy .pathname 0 name.text,
     .copy .pathname name.text.length buf.bytes]
  header := by decide
  pastHeader := by
    show ∀ field ∈ [Field.pid, .len, .count, .ppos, .ret, .addr, .pathname, .pathname], _
    decide

def trfsLogCloseOp (pid : BitVec 32) (name : Name) (file : BitVec 64)
    (ret : BitVec 32) : Encoder where
  gate := .close
  rType := .close
  decl := Kernel.trfsCloseOp
  size := recordSize Kernel.trfsCloseOp name.text.length
  body :=
    [.assign .pid pid.toNat, .assign .len name.text.length, .assign .ret ret.toNat,
     .copy .addr 0 (wordBytes 8 file.toNat), .copy .pathname 0 name.text]
  header := by decide
  pastHeader := by
    show ∀ field ∈ [Field.pid, .len, .ret, .addr, .pathname], _
    decide

/-- The shape shared by `mknod` and the extended-attribute functions. -/
def inodeEncoder (gate rType : TrfsOps) (decl : StructDecl Field) (header : HeaderPlaced decl)
    (pastHeader : ∀ field ∈ [Field.pid, .len, .ret, .pathname], 7 ≤ decl.offsetOf field)
    (pid : BitVec 32) (name : Name) (ret : BitVec 32) : Encoder where
  gate := gate
  rType := rType
  decl := decl
  size := recordSize decl name.text.length
  body :=
    [.assign .pid pid.toNat, .assign .len name.text.length, .assign .ret ret.toNat,
     .copy .pathname 0 name.text]
  header := header
  pastHeader := pastHeader

/-- Gate and type of `mknod` are those of `close`. -/
def trfsLogMknodOp (pid : BitVec 32) (name : Name) (ret : BitVec 32) : Encoder :=
  inodeEncoder .close .close Kernel.trfsMknodOp (by decide) (by decide) pid name ret

def trfsLogSetxattrOp (pid : BitVec 32) (name : Name) (ret : BitVec 32) : Encoder :=
  inodeEncoder .setxattr .setxattr Kernel.trfsSetxattrOp (by decide) (by decide) pid name ret

def trfsLogGetxattrOp (pid : BitVec 32) (name : Name) (ret : BitVec 32) : Encoder :=
  inodeEncoder .getxattr .getxattr Kernel.trfsGetxattrOp (by decide) (by decide) pid name ret

def trfsLogListxattrOp (pid : BitVec 32) (name : Name) (ret : BitVec 32) : Encoder :=
  inodeEncoder .listxattr .listxattr Kernel.trfsListxattrOp (by decide) (by decide) pid name ret

def trfsLogRemovexattrOp (pid : BitVec 32) (name : Name) (ret : BitVec 32) : Encoder :=
  inodeEncoder .removexattr .removexattr Kernel.trfsRemovexattrOp (by decide) (by decide)
    pid name ret

end Tracefs
