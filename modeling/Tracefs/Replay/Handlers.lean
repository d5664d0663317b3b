import Tracefs.Bytes.CString
import Tracefs.Record.Structs

/-!
# The replay handlers

Each `trfs_run_*_op` function reads a record in place, through the userland
structures, and makes one system call.  What the system answers and what the
uninitialised local arrays hold is left to an `Environment`.
-/

namespace Tracefs

open Bytes

inductive ReplayOp where
  | openFile | read | write | close | mkdir | rmdir | link | trunct | symlink | unlink
  | rename | setxattr | getxattr | listxattr | removexattr
  deriving DecidableEq, Repr

/-- A path as the system reads it: nothing when it does not end in time. -/
abbrev Path := Option (List UInt8)

/-- `PATH_MAX`: how far the system follows a path argument. -/
def pathMax : Nat := 4096

inductive Syscall where
  | mkdir (path : Path) (mode : Nat)
  | rmdir (path : Path)
  | link (oldPath newPath : Path)
  | symlink (target linkPath : Path)
  | unlink (path : Path)
  | rename (oldPath newPath : Path)
  | openFile (path : Path) (flags : Int) (mode : Nat)
  | read (fd : Int) (count : Nat)
  | write (fd : Int) (data : List UInt8)
  | close (fd : Int)
  deriving DecidableEq, Repr

/-- `trfs_omap_list`, without its link. -/
structure OmapNode where
  fd : Int
  addr : Nat
  pid : Int
  deriving DecidableEq, Repr

/-- The list `omap`, the system calls made and the outcomes reported by
`MAP_RETVAL`, oldest first. -/
structure Replay where
  omap : List OmapNode
  calls : List Syscall
  reports : List Bool

/-- The answer to the next system call, and the local arrays of the function
that makes it; both are numbered by the calls made before. -/
structure Environment where
  answer : Nat → Syscall → Int
  p1 : Nat → Memory
  p2 : Nat → Memory

/-- How a handler ends.  A store outside a local array has no defined effect. -/
inductive Outcome (State : Type) where
  | returned (state : State)
  | exited (state : State)
  | fault

/-- The state in which a handler leaves the replay, if it has a defined end. -/
def Outcome.state? {State : Type} : Outcome State → Option State
  | returned state | exited state => some state
  | fault => none

/-- `trfs_omap_add_op`, which always works on the global list. -/
def trfsOmapAddOp (omap : List OmapNode) (node : OmapNode) : List OmapNode := omap ++ [node]

def trfsOmapDeleteOp (omap : List OmapNode) (addr : Nat) (pid : Int) : List OmapNode :=
  omap.eraseP fun node => node.addr = addr ∧ node.pid = pid

def trfsOmapGetfd (omap : List OmapNode) (addr : Nat) (pid : Int) : Int :=
  ((omap.find? fun node => node.addr = addr ∧ node.pid = pid).map OmapNode.fd).getD (-1)

/-- Make a system call; its result is assigned to an `int`. -/
def Replay.call (env : Environment) (state : Replay) (syscall : Syscall) : Int × Replay :=
  (toInt32 (env.answer state.calls.length syscall),
    { state with calls := state.calls ++ [syscall] })

/-- `MAP_RETVAL`, after its comparison.  Only output follows it in a handler, so
that its early return makes no difference here. -/
def mapRetval (gflags : Nat) (same : Bool) (state : Replay) : Outcome Replay :=
  if same then .returned { state with reports := state.reports ++ [true] }
  else if gflags = 2 then .exited { state with reports := state.reports ++ [false] }
  else .returned { state with reports := state.reports ++ [false] }

/-- The report is made in any case. -/
theorem mapRetval_cases (gflags : Nat) (same : Bool) (state : Replay) :
    mapRetval gflags same state = .returned { state with reports := state.reports ++ [same] } ∨
      mapRetval gflags same state = .exited { state with reports := state.reports ++ [same] } := by
  cases same with
  | true => exact .inl rfl
  | false => by_cases strict : gflags = 2 <;> simp [mapRetval, strict]

/-- A call whose result is compared with the recorded one, both of type `int`. -/
def runCompared (env : Environment) (gflags : Nat) (syscall : Syscall) (recorded : Nat)
    (state : Replay) : Outcome Replay :=
  let called := state.call env syscall
  mapRetval gflags (called.1 = toInt32 recorded) called.2

/-- The path that starts at a member of the structure at `op`. -/
def pathAt (decl : StructDecl Field) (page : Memory) (op : Nat) (field : Field) : Path :=
  page.cString (op + decl.offsetOf field) pathMax

/-- The size of the local arrays `p1` and `p2`. -/
def localSize : Nat := 256

/-- `memcpy` to the start of a local array. -/
def copyLocal (array : Memory) (bytes : List UInt8) : Option Memory :=
  if bytes.length ≤ localSize then some (array.store 0 bytes) else none

def terminateLocal (array : Memory) (index : Nat) : Option Memory :=
  if index < localSize then some (array.store index [0]) else none

/-- The two arrays filled from `first` and `second` bytes that lie back to back
at `names`, both terminated.  This is the body shared by link and symlink. -/
def unpackNames (page p1 p2 : Memory) (names first second : Nat) : Option (Memory × Memory) := do
  let p1 ← copyLocal p1 (page.load names first)
  let p2 ← copyLocal p2 (page.load (names + first) second)
  let p1 ← terminateLocal p1 first
  let p2 ← terminateLocal p2 second
  return (p1, p2)

/-- The same without a terminator for the first array, as rename does it. -/
def unpackRename (page p1 p2 : Memory) (names first second : Nat) :
    Option (Memory × Memory) := do
  let p1 ← copyLocal p1 (page.load names first)
  let p2 ← copyLocal p2 (page.load (names + first) second)
  let p2 ← terminateLocal p2 second
  return (p1, p2)

def localPath (array : Memory) : Path := array.cString 0 localSize

/-- `MAX_BYTES`: the size of the local array `buf` of `trfs_run_read_op`. -/
def maxBytes : Nat := 4096

/-- The bytes that a `read` returns, and no more than were asked for, fit `buf`. -/
def Environment.ReadFits (env : Environment) (tick : Nat) (fd : Int) (count : Nat) : Prop :=
  min (count : Int) (env.answer tick (.read fd count)) ≤ maxBytes

instance (env : Environment) (tick : Nat) (fd : Int) (count : Nat) :
    Decidable (env.ReadFits tick fd count) :=
  inferInstanceAs (Decidable (_ ≤ _))

theorem Environment.readFits_of_count (env : Environment) (tick : Nat) (fd : Int) {count : Nat}
    (small : count ≤ maxBytes) : env.ReadFits tick fd count :=
  (min_le_left _ _).trans (by exact_mod_cast small)

theorem Environment.readFits_of_answer {env : Environment} {tick : Nat} {fd : Int} {count : Nat}
    (small : env.answer tick (.read fd count) ≤ maxBytes) : env.ReadFits tick fd count :=
  (min_le_right _ _).trans small

section Handlers

variable (env : Environment) (gflags : Nat) (page : Memory) (op : Nat) (state : Replay)

def trfsRunMkdirOp : Outcome Replay :=
  runCompared env gflags
    (.mkdir (pathAt Userland.trfsMkdirOp page op .pathname)
      (Userland.trfsMkdirOp.get page op .mode))
    (Userland.trfsMkdirOp.get page op .ret) state

def trfsRunRmdirOp : Outcome Replay :=
  runCompared env gflags (.rmdir (pathAt Userland.trfsRmdirOp page op .pathname))
    (Userland.trfsRmdirOp.get page op .ret) state

def trfsRunUnlinkOp : Outcome Replay :=
  runCompared env gflags (.unlink (pathAt Userland.trfsUnlinkOp page op .pathname))
    (Userland.trfsUnlinkOp.get page op .ret) state

def trfsRunLinkOp : Outcome Replay :=
  let tick := state.calls.length
  match unpackNames page (env.p1 tick) (env.p2 tick)
    (op + Userland.trfsLinkOp.offsetOf .pathname) (Userland.trfsLinkOp.get page op .plen)
    (Userland.trfsLinkOp.get page op .hlen) with
  | none => .fault
  | some (p1, p2) =>
      runCompared env gflags (.link (localPath p1) (localPath p2))
        (Userland.trfsLinkOp.get page op .ret) state

/-- The second name of the record is the target. -/
def trfsRunSymlinkOp : Outcome Replay :=
  let tick := state.calls.length
  match unpackNames page (env.p1 tick) (env.p2 tick)
    (op + Userland.trfsSymlinkOp.offsetOf .pathname) (Userland.trfsSymlinkOp.get page op .plen)
    (Userland.trfsSymlinkOp.get page op .slen) with
  | none => .fault
  | some (p1, p2) =>
      runCompared env gflags (.symlink (localPath p2) (localPath p1))
        (Userland.trfsSymlinkOp.get page op .ret) state

def trfsRunRenameOp : Outcome Replay :=
  let tick := state.calls.length
  match unpackRename page (env.p1 tick) (env.p2 tick)
    (op + Userland.trfsRenameOp.offsetOf .pathname1) (Userland.trfsRenameOp.get page op .len1)
    (Userland.trfsRenameOp.get page op .len2) with
  | none => .fault
  | some (p1, p2) =>
      runCompared env gflags (.rename (localPath p1) (localPath p2))
        (Userland.trfsRenameOp.get page op .ret) state

def trfsRunTrunctOp : Outcome Replay := .returned state

/-- The descriptor is entered in the list whether or not the call succeeded. -/
def trfsRunOpenOp : Outcome Replay :=
  let called := state.call env
    (.openFile (pathAt Userland.trfsOpenOp page op .pathname)
      (toInt32 (Userland.trfsOpenOp.get page op .flags))
      (Userland.trfsOpenOp.get page op .mode))
  .returned { called.2 with
    omap := trfsOmapAddOp called.2.omap
      ⟨called.1, Userland.trfsOpenOp.get page op .addr,
        toInt32 (Userland.trfsOpenOp.get page op .pid)⟩ }

/-- A call that puts more into the local buffer than it holds has left it before the comparison.
What lies in the buffer is not looked at. -/
def trfsRunReadOp : Outcome Replay :=
  let fd := trfsOmapGetfd state.omap (Userland.trfsReadOp.get page op .addr)
    (toInt32 (Userland.trfsReadOp.get page op .pid))
  let count := Userland.trfsReadOp.get page op .count
  if env.ReadFits state.calls.length fd count then
    runCompared env gflags (.read fd count) (Userland.trfsReadOp.get page op .ret) state
  else .fault

/-- The data lies behind the name.  The result is compared with `count`, as a
`size_t`. -/
def trfsRunWriteOp : Outcome Replay :=
  let fd := trfsOmapGetfd state.omap (Userland.trfsWriteOp.get page op .addr)
    (toInt32 (Userland.trfsWriteOp.get page op .pid))
  let count := Userland.trfsWriteOp.get page op .count
  let data := page.load (op + Userland.trfsWriteOp.offsetOf .pathname +
    Userland.trfsWriteOp.get page op .len) count
  let called := state.call env (.write fd data)
  mapRetval gflags (called.1 % 2 ^ 64 = count) called.2

def trfsRunCloseOp : Outcome Replay :=
  let addr := Userland.trfsCloseOp.get page op .addr
  let pid := toInt32 (Userland.trfsCloseOp.get page op .pid)
  let fd := trfsOmapGetfd state.omap addr pid
  let called := { state with omap := trfsOmapDeleteOp state.omap addr pid }.call env (.close fd)
  .returned called.2

/-- The four extended-attribute handlers make no call; their `ret` stays 0. -/
def runXattr (decl : StructDecl Field) : Outcome Replay :=
  mapRetval gflags (0 = toInt32 (decl.get page op .ret)) state

def trfsRunSetxattrOp : Outcome Replay := runXattr gflags page op state Userland.trfsSetxattrOp

def trfsRunGetxattrOp : Outcome Replay := runXattr gflags page op state Userland.trfsGetxattrOp

def trfsRunListxattrOp : Outcome Replay := runXattr gflags page op state Userland.trfsListxattrOp

def trfsRunRemovexattrOp : Outcome Replay :=
  runXattr gflags page op state Userland.trfsRemovexattrOp

end Handlers

/-- The userland table `log_ops`. -/
def ReplayOp.run (env : Environment) (gflags : Nat) (replayOp : ReplayOp) (page : Memory)
    (op : Nat) (state : Replay) : Outcome Replay :=
  match replayOp with
  | openFile => trfsRunOpenOp env page op state
  | read => trfsRunReadOp env gflags page op state
  | write => trfsRunWriteOp env gflags page op state
  | close => trfsRunCloseOp env page op state
  | mkdir => trfsRunMkdirOp env gflags page op state
  | rmdir => trfsRunRmdirOp env gflags page op state
  | link => trfsRunLinkOp env gflags page op state
  | trunct => trfsRunTrunctOp state
  | symlink => trfsRunSymlinkOp env gflags page op state
  | unlink => trfsRunUnlinkOp env gflags page op state
  | rename => trfsRunRenameOp env gflags page op state
  | setxattr => trfsRunSetxattrOp gflags page op state
  | getxattr => trfsRunGetxattrOp gflags page op state
  | listxattr => trfsRunListxattrOp gflags page op state
  | removexattr => trfsRunRemovexattrOp gflags page op state

end Tracefs
