import Tracefs.Bytes.Layout

/-!
# Record types and record structures

The operation numbers of `trfs_ops.h` and the two sets of structure
declarations: `Kernel` from `trfs/structs.h`, `Userland` from
`Userland/structs.h`.  The two are maintained by hand and differ in the types
of `r_type` and `ppos`.
-/

namespace Tracefs

open Bytes

inductive TrfsOps where
  | create | lookup | link | unlink | symlink | mkdir | rmdir | mknod | truncate
  | rename | permission | setattr | getattr | setxattr | getxattr | listxattr
  | removexattr | dRevalidate | dRelease | read | write | mmap | openFile | close
  | flush | fsync | fasync | readIter | writeIter | fileRelease
  deriving DecidableEq, Repr

/-- The numbers of the enumeration in `trfs/trfs_ops.h`. -/
def TrfsOps.code : TrfsOps → Nat
  | create => 1
  | lookup => 2
  | link => 3
  | unlink => 4
  | symlink => 5
  | mkdir => 6
  | rmdir => 7
  | mknod => 8
  | truncate => 9
  | rename => 10
  | permission => 11
  | setattr => 12
  | getattr => 13
  | setxattr => 14
  | getxattr => 15
  | listxattr => 16
  | removexattr => 17
  | dRevalidate => 18
  | dRelease => 19
  | read => 20
  | write => 21
  | mmap => 22
  | openFile => 23
  | close => 24
  | flush => 25
  | fsync => 26
  | fasync => 27
  | readIter => 28
  | writeIter => 29
  | fileRelease => 30

theorem TrfsOps.code_lt (op : TrfsOps) : op.code < 256 := by
  cases op <;> decide

inductive Field where
  | rId | rSize | rType | flags | mode | pid | addr | count | ppos | ret
  | len | pathname | len1 | len2 | pathname1 | pathname2 | plen | hlen | slen
  deriving DecidableEq, Repr

namespace Kernel

def trfsOpenOp : StructDecl Field :=
  [(.rId, .unsignedInt), (.rSize, .unsignedShort), (.rType, .uint8), (.flags, .int),
   (.mode, .modeT), (.pid, .unsignedInt), (.addr, .uint64), (.ret, .int),
   (.len, .unsignedShort), (.pathname, .chars 1)]

def trfsReadOp : StructDecl Field :=
  [(.rId, .unsignedInt), (.rSize, .unsignedShort), (.rType, .uint8), (.pid, .unsignedInt),
   (.addr, .uint64), (.count, .sizeT), (.ppos, .unsignedShort), (.ret, .int),
   (.len, .unsignedShort), (.pathname, .chars 1)]

def trfsWriteOp : StructDecl Field :=
  [(.rId, .unsignedInt), (.rSize, .unsignedShort), (.rType, .uint8), (.pid, .unsignedInt),
   (.addr, .uint64), (.count, .sizeT), (.ppos, .unsignedShort), (.ret, .int),
   (.len, .unsignedShort), (.pathname, .chars 1)]

def trfsCloseOp : StructDecl Field :=
  [(.rId, .unsignedInt), (.rSize, .unsignedShort), (.rType, .uint8), (.pid, .unsignedInt),
   (.addr, .uint64), (.ret, .int), (.len, .unsignedShort), (.pathname, .chars 1)]

def trfsMkdirOp : StructDecl Field :=
  [(.rId, .unsignedInt), (.rSize, .unsignedShort), (.rType, .uint8), (.pid, .unsignedInt),
   (.mode, .int), (.ret, .int), (.len, .unsignedShort), (.pathname, .chars 1)]

def trfsRmdirOp : StructDecl Field :=
  [(.rId, .unsignedInt), (.rSize, .unsignedShort), (.rType, .uint8), (.pid, .unsignedInt),
   (.ret, .int), (.len, .unsignedShort), (.pathname, .chars 1)]

def trfsUnlinkOp : StructDecl Field :=
  [(.rId, .unsignedInt), (.rSize, .unsignedShort), (.rType, .uint8), (.pid, .unsignedInt),
   (.ret, .int), (.len, .unsignedShort), (.pathname, .chars 1)]

def trfsRenameOp : StructDecl Field :=
  [(.rId, .unsignedInt), (.rSize, .unsignedShort), (.rType, .uint8), (.pid, .unsignedInt),
   (.ret, .int), (.len1, .unsignedShort), (.len2, .unsignedShort),
   (.pathname1, .chars 1), (.pathname2, .chars 1)]

def trfsLinkOp : StructDecl Field :=
  [(.rId, .unsignedInt), (.rSize, .unsignedShort), (.rType, .char), (.pid, .unsignedInt),
   (.ret, .int), (.plen, .unsignedShort), (.hlen, .unsignedShort), (.pathname, .chars 1)]

def trfsSymlinkOp : StructDecl Field :=
  [(.rId, .unsignedInt), (.rSize, .unsignedShort), (.rType, .char), (.pid, .unsignedInt),
   (.ret, .int), (.plen, .unsignedShort), (.slen, .unsignedShort), (.pathname, .chars 1)]

def trfsMknodOp : StructDecl Field :=
  [(.rId, .unsignedInt), (.rSize, .unsignedShort), (.rType, .char), (.pid, .unsignedInt),
   (.ret, .int), (.len, .unsignedShort), (.pathname, .chars 1)]

/-- The four extended-attribute structures have one and the same declaration. -/
def xattrOp : StructDecl Field :=
  [(.rId, .unsignedInt), (.rSize, .unsignedShort), (.rType, .uint8), (.pid, .unsignedInt),
   (.addr, .uint64), (.ret, .int), (.len, .unsignedShort), (.pathname, .chars 1)]

def trfsSetxattrOp : StructDecl Field := xattrOp

def trfsGetxattrOp : StructDecl Field := xattrOp

def trfsListxattrOp : StructDecl Field := xattrOp

def trfsRemovexattrOp : StructDecl Field := xattrOp

end Kernel

namespace Userland

def trfsOpenOp : StructDecl Field :=
  [(.rId, .unsignedInt), (.rSize, .unsignedShort), (.rType, .char), (.flags, .int),
   (.mode, .modeT), (.pid, .unsignedInt), (.addr, .uint64), (.ret, .int),
   (.len, .unsignedShort), (.pathname, .chars 1)]

def trfsReadOp : StructDecl Field :=
  [(.rId, .unsignedInt), (.rSize, .unsignedShort), (.rType, .char), (.pid, .unsignedInt),
   (.addr, .uint64), (.count, .sizeT), (.ppos, .int), (.ret, .int),
   (.len, .unsignedShort), (.pathname, .chars 1)]

def trfsWriteOp : StructDecl Field :=
  [(.rId, .unsignedInt), (.rSize, .unsignedShort), (.rType, .char), (.pid, .unsignedInt),
   (.addr, .uint64), (.count, .sizeT), (.ppos, .int), (.ret, .int),
   (.len, .unsignedShort), (.pathname, .chars 1)]

def trfsCloseOp : StructDecl Field :=
  [(.rId, .unsignedInt), (.rSize, .unsignedShort), (.rType, .char), (.pid, .unsignedInt),
   (.addr, .uint64), (.ret, .int), (.len, .unsignedShort), (.pathname, .chars 1)]

def trfsMkdirOp : StructDecl Field :=
  [(.rId, .unsignedInt), (.rSize, .unsignedShort), (.rType, .char), (.pid, .unsignedInt),
   (.mode, .int), (.ret, .int), (.len, .unsignedShort), (.pathname, .chars 1)]

def trfsRmdirOp : StructDecl Field :=
  [(.rId, .unsignedInt), (.rSize, .unsignedShort), (.rType, .char), (.pid, .unsignedInt),
   (.ret, .int), (.len, .unsignedShort), (.pathname, .chars 1)]

def trfsUnlinkOp : StructDecl Field :=
  [(.rId, .unsignedInt), (.rSize, .unsignedShort), (.rType, .char), (.pid, .unsignedInt),
   (.ret, .int), (.len, .unsignedShort), (.pathname, .chars 1)]

def trfsRenameOp : StructDecl Field :=
  [(.rId, .unsignedInt), (.rSize, .unsignedShort), (.rType, .char), (.pid, .unsignedInt),
   (.ret, .int), (.len1, .unsignedShort), (.len2, .unsignedShort),
   (.pathname1, .chars 1), (.pathname2, .chars 1)]

def trfsLinkOp : StructDecl Field :=
  [(.rId, .unsignedInt), (.rSize, .unsignedShort), (.rType, .char), (.pid, .unsignedInt),
   (.ret, .int), (.plen, .unsignedShort), (.hlen, .unsignedShort), (.pathname, .chars 1)]

def trfsSymlinkOp : StructDecl Field :=
  [(.rId, .unsignedInt), (.rSize, .unsignedShort), (.rType, .char), (.pid, .unsignedInt),
   (.ret, .int), (.plen, .unsignedShort), (.slen, .unsignedShort), (.pathname, .chars 1)]

def trfsTrunctOp : StructDecl Field :=
  [(.rId, .unsignedInt), (.rSize, .unsignedShort), (.rType, .char), (.pid, .unsignedInt),
   (.ret, .int), (.len, .unsignedShort), (.pathname, .chars 1)]

def xattrOp : StructDecl Field :=
  [(.rId, .unsignedInt), (.rSize, .unsignedShort), (.rType, .uint8), (.pid, .unsignedInt),
   (.addr, .uint64), (.ret, .int), (.len, .unsignedShort), (.pathname, .chars 1)]

def trfsSetxattrOp : StructDecl Field := xattrOp

def trfsGetxattrOp : StructDecl Field := xattrOp

def trfsListxattrOp : StructDecl Field := xattrOp

def trfsRemovexattrOp : StructDecl Field := xattrOp

end Userland

end Tracefs
