import Tracefs.Record.Gate

/-!
# The file system operations and their hooks

Each operation of trfs calls the lower file system and then, in most cases, a
hook of the trace driver.  The results of the lower calls are arguments here.  A
mutation of the lower file system ought to leave one record; the operations that
have no hook leave none.
-/

namespace Tracefs

open Bytes Transition

/-- An `int` result. -/
abbrev Err := BitVec 32

namespace Err

def einval : Err := BitVec.ofInt 32 (-22)

def ebusy : Err := BitVec.ofInt 32 (-16)

def enotempty : Err := BitVec.ofInt 32 (-39)

def eopnotsupp : Err := BitVec.ofInt 32 (-95)

def enomem : Err := BitVec.ofInt 32 (-12)

def enoent : Err := BitVec.ofInt 32 (-2)

end Err

/-- What an operation returns, the hooks it calls with their arguments, and
whether it has changed the lower file system. -/
structure VfsResult where
  err : Err
  hooks : List TracedCall
  changed : Bool

/-- The first lower call that fails decides. -/
def firstError (lower interpose : Err) : Err := if lower ≠ 0 then lower else interpose

def trfsCreate (vfsCreate interpose : Err) : VfsResult :=
  ⟨firstError vfsCreate interpose, [], vfsCreate = 0⟩

/-- Without an inode for the new entry the function leaves early, with success. -/
def trfsLink (oldName newName : Name) (vfsLink : Err) (hasInode : Bool) (interpose : Err) :
    VfsResult :=
  let err := if vfsLink ≠ 0 ∨ hasInode = false then vfsLink else interpose
  ⟨err, [.link oldName newName err], vfsLink = 0⟩

/-- NFS refuses to unlink a file that it has renamed before instead of removing it; to trfs the file
counts as removed. -/
def trfsUnlink (name : Name) (vfsUnlink : Err) (nfsRenamed : Bool) : VfsResult :=
  let err := if vfsUnlink = .ebusy ∧ nfsRenamed then 0 else vfsUnlink
  ⟨err, [.unlink name err], vfsUnlink = 0⟩

def trfsSymlink (name : Name) (symname : LinkTarget) (vfsSymlink interpose : Err) : VfsResult :=
  let err := firstError vfsSymlink interpose
  ⟨err, [.symlink name symname err], vfsSymlink = 0⟩

def trfsMkdir (name : Name) (mode : BitVec 32) (vfsMkdir interpose : Err) : VfsResult :=
  let err := firstError vfsMkdir interpose
  ⟨err, [.mkdir name mode err], vfsMkdir = 0⟩

def trfsRmdir (name : Name) (vfsRmdir : Err) : VfsResult :=
  ⟨vfsRmdir, [.rmdir name vfsRmdir], vfsRmdir = 0⟩

def trfsMknod (name : Name) (vfsMknod interpose : Err) : VfsResult :=
  let err := firstError vfsMknod interpose
  ⟨err, [.mknod name err], vfsMknod = 0⟩

/-- What `lock_rename` returned: nothing, or one of the two entries. -/
inductive Trap where
  | nothing
  | oldDentry
  | newDentry
  deriving DecidableEq

def trfsRename (oldName newName : Name) (trap : Trap) (vfsRename : Err) : VfsResult :=
  let err := match trap with
    | .oldDentry => .einval
    | .newDentry => .enotempty
    | .nothing => vfsRename
  ⟨err, [.rename oldName newName err], trap = .nothing ∧ vfsRename = 0⟩

/-- `newsizeOk` is the result of `inode_newsize_ok` when `ATTR_SIZE` is given. -/
def trfsSetattr (inodeChangeOk : Err) (newsizeOk : Option Err) (notifyChange : Err) : VfsResult :=
  let err := firstError inodeChangeOk (firstError (newsizeOk.getD 0) notifyChange)
  ⟨err, [], err = 0⟩

/-- The lower inode may lack the operation. -/
def ifSupported (supported : Bool) (otherwise lower : Err) : Err :=
  if supported then lower else otherwise

def trfsSetxattr (name : Name) (supported : Bool) (vfsSetxattr : Err) : VfsResult :=
  let err := ifSupported supported .eopnotsupp vfsSetxattr
  ⟨err, [.setxattr name err], supported ∧ vfsSetxattr = 0⟩

def trfsGetxattr (name : Name) (supported : Bool) (vfsGetxattr : Err) : VfsResult :=
  let err := ifSupported supported .eopnotsupp vfsGetxattr
  ⟨err, [.getxattr name err], false⟩

def trfsListxattr (name : Name) (supported : Bool) (vfsListxattr : Err) : VfsResult :=
  let err := ifSupported supported .eopnotsupp vfsListxattr
  ⟨err, [.listxattr name err], false⟩

def trfsRemovexattr (name : Name) (supported : Bool) (vfsRemovexattr : Err) : VfsResult :=
  let err := ifSupported supported .einval vfsRemovexattr
  ⟨err, [.removexattr name err], supported ∧ vfsRemovexattr = 0⟩

/-- The open file that a call goes through: its name and its address. -/
structure OpenedFile where
  name : Name
  addr : BitVec 64

/-- `ppos` is what the offset is when `vfs_read` has returned. -/
def trfsRead (file : OpenedFile) (count : BitVec 64) (vfsRead : Err) (ppos : BitVec 64) :
    VfsResult :=
  ⟨vfsRead, [.read file.name count ppos file.addr vfsRead], false⟩

@[inherit_doc trfsRead]
def trfsWrite (file : OpenedFile) (buf : Payload) (vfsWrite : Err) (ppos : BitVec 64) : VfsResult :=
  ⟨vfsWrite, [.write file.name buf ppos file.addr vfsWrite], 0 < vfsWrite.toInt⟩

def trfsReadIter (supported : Bool) (readIter : Err) : VfsResult :=
  ⟨ifSupported supported .einval readIter, [], false⟩

def trfsWriteIter (supported : Bool) (writeIter : Err) : VfsResult :=
  ⟨ifSupported supported .einval writeIter, [], supported ∧ 0 < writeIter.toInt⟩

/-- `allocated` is the outcome of `kzalloc`, `dentryOpen` the error of
`dentry_open`, or 0. -/
def trfsOpen (file : OpenedFile) (flags mode : BitVec 32) (unhashed allocated : Bool)
    (dentryOpen : Err) : VfsResult :=
  let err := if unhashed then .enoent else if allocated then dentryOpen else .enomem
  ⟨err, [.openFile file.name flags mode file.addr err], false⟩

def trfsFileRelease (file : OpenedFile) : VfsResult :=
  ⟨0, [.close file.name file.addr 0], false⟩

/-- A call through `trfs_dir_iops`, `trfs_main_iops` or `trfs_main_fops`, with its
arguments and the results of its lower calls. -/
inductive VfsCall where
  | create (vfsCreate interpose : Err)
  | link (oldName newName : Name) (vfsLink : Err) (hasInode : Bool) (interpose : Err)
  | unlink (name : Name) (vfsUnlink : Err) (nfsRenamed : Bool)
  | symlink (name : Name) (symname : LinkTarget) (vfsSymlink interpose : Err)
  | mkdir (name : Name) (mode : BitVec 32) (vfsMkdir interpose : Err)
  | rmdir (name : Name) (vfsRmdir : Err)
  | mknod (name : Name) (vfsMknod interpose : Err)
  | rename (oldName newName : Name) (trap : Trap) (vfsRename : Err)
  | setattr (inodeChangeOk : Err) (newsizeOk : Option Err) (notifyChange : Err)
  | setxattr (name : Name) (supported : Bool) (vfsSetxattr : Err)
  | getxattr (name : Name) (supported : Bool) (vfsGetxattr : Err)
  | listxattr (name : Name) (supported : Bool) (vfsListxattr : Err)
  | removexattr (name : Name) (supported : Bool) (vfsRemovexattr : Err)
  | read (file : OpenedFile) (count : BitVec 64) (vfsRead : Err) (ppos : BitVec 64)
  | write (file : OpenedFile) (buf : Payload) (vfsWrite : Err) (ppos : BitVec 64)
  | readIter (supported : Bool) (lower : Err)
  | writeIter (supported : Bool) (lower : Err)
  | openFile (file : OpenedFile) (flags mode : BitVec 32) (unhashed allocated : Bool)
      (dentryOpen : Err)
  | release (file : OpenedFile)

namespace VfsCall

/-- The operation tables. -/
def result : VfsCall → VfsResult
  | create vfsCreate interpose => trfsCreate vfsCreate interpose
  | link oldName newName vfsLink hasInode interpose =>
      trfsLink oldName newName vfsLink hasInode interpose
  | unlink name vfsUnlink nfsRenamed => trfsUnlink name vfsUnlink nfsRenamed
  | symlink name symname vfsSymlink interpose => trfsSymlink name symname vfsSymlink interpose
  | mkdir name mode vfsMkdir interpose => trfsMkdir name mode vfsMkdir interpose
  | rmdir name vfsRmdir => trfsRmdir name vfsRmdir
  | mknod name vfsMknod interpose => trfsMknod name vfsMknod interpose
  | rename oldName newName trap vfsRename => trfsRename oldName newName trap vfsRename
  | setattr inodeChangeOk newsizeOk notifyChange =>
      trfsSetattr inodeChangeOk newsizeOk notifyChange
  | setxattr name supported vfsSetxattr => trfsSetxattr name supported vfsSetxattr
  | getxattr name supported vfsGetxattr => trfsGetxattr name supported vfsGetxattr
  | listxattr name supported vfsListxattr => trfsListxattr name supported vfsListxattr
  | removexattr name supported vfsRemovexattr => trfsRemovexattr name supported vfsRemovexattr
  | read file count vfsRead ppos => trfsRead file count vfsRead ppos
  | write file buf vfsWrite ppos => trfsWrite file buf vfsWrite ppos
  | readIter supported lower => trfsReadIter supported lower
  | writeIter supported lower => trfsWriteIter supported lower
  | openFile file flags mode unhashed allocated dentryOpen =>
      trfsOpen file flags mode unhashed allocated dentryOpen
  | release file => trfsFileRelease file

/-- A change of attributes counts as a mutation when it sets the size. -/
def setsContents : VfsCall → Bool
  | setattr _ newsizeOk _ => newsizeOk.isSome
  | _ => true

/-- The call returns success and has changed the lower file system. -/
def Mutates (call : VfsCall) : Prop :=
  call.setsContents ∧ call.result.changed ∧ 0 ≤ call.result.err.toInt

/-- The operations without a hook. -/
def unhooked : VfsCall → Bool
  | create .. | setattr .. | readIter .. | writeIter .. => true
  | _ => false

theorem length_hooks (call : VfsCall) :
    call.result.hooks.length = if call.unhooked then 0 else 1 := by
  cases call <;> rfl

end VfsCall

/-- A call together with what its hook finds, if it calls one: `allocated` says whether `kmalloc`
has a buffer for the record, and `heap` is what lies in it. -/
structure VfsEvent where
  call : VfsCall
  pid : BitVec 32
  rId : BitVec 32
  heap : Memory
  allocated : Bool

def VfsEvent.hooks (event : VfsEvent) : List TraceAction :=
  event.call.result.hooks.map fun traced =>
    .trace ⟨traced, event.pid, event.rId, event.heap⟩ event.allocated

namespace TrfsLogDriver

/-- The driver after a call of the VFS. -/
def serve (driver : TrfsLogDriver) (event : VfsEvent) : TrfsLogDriver :=
  run step driver event.hooks

/-- All operations are traced. -/
def allBits : TrfsLogDriver := ⟨BitVec.allOnes 32, []⟩

/-- A mutation offers exactly one record to the queue. -/
def OffersOne (driver : TrfsLogDriver) (event : VfsEvent) : Prop :=
  event.call.Mutates → ∃ record, (driver.serve event).queue = driver.queue ++ [record]

theorem run_trace_allOnes {driver : TrfsLogDriver} (all : driver.bitmap = BitVec.allOnes 32)
    (allocated : Bool) (records : List TraceRecord) :
    run step driver (records.map (.trace · allocated)) =
      { driver with queue := driver.queue ++ if allocated then records else [] } := by
  induction records generalizing driver with
  | nil => simp
  | cons record records inductionHypothesis =>
      have emitted : record.emitted driver.bitmap = some record := by
        rw [record.emitted_eq, all, BitVec.getLsbD_allOnes,
          decide_eq_true (TrfsOps.code_lt_width _), if_pos rfl]
      rw [List.map_cons, run_cons, inductionHypothesis (by exact all)]
      cases allocated <;> simp [step, emitted]

theorem serve_allOnes {driver : TrfsLogDriver} (all : driver.bitmap = BitVec.allOnes 32)
    (event : VfsEvent) :
    driver.serve event = { driver with
      queue := driver.queue ++ if event.allocated then event.call.result.hooks.map fun traced =>
        ⟨traced, event.pid, event.rId, event.heap⟩ else [] } := by
  rw [← run_trace_allOnes all, List.map_map]
  rfl

theorem offersOne_iff {driver : TrfsLogDriver} (all : driver.bitmap = BitVec.allOnes 32)
    (event : VfsEvent) :
    driver.OffersOne event ↔
      (event.call.Mutates → event.call.unhooked = false ∧ event.allocated = true) := by
  have length := event.call.length_hooks
  rw [OffersOne, serve_allOnes all]
  refine forall_congr' fun _ => ?_
  simp only [List.append_cancel_left_eq]
  rw [← List.length_eq_one_iff]
  cases event.allocated with
  | false => simp
  | true =>
      simp only [if_true, List.length_map, length]
      cases event.call.unhooked <;> simp

/-- With all bits set, a sequence of calls leaves one record for each mutation
exactly when every mutation goes through an operation with a hook and `kmalloc` has
a buffer for its record. -/
theorem offersOne_along_iff (events : List VfsEvent) :
    Along serve OffersOne allBits events ↔
      ∀ event ∈ events, event.call.Mutates →
        event.call.unhooked = false ∧ event.allocated = true := by
  rw [← along_forall_iff serve (fun event => event.call.Mutates →
    event.call.unhooked = false ∧ event.allocated = true) allBits]
  refine along_iff (fun driver => driver.bitmap = BitVec.allOnes 32) ?_ ?_ rfl events
  · exact fun driver event all => offersOne_iff all event
  · intro driver event all _
    rw [serve_allOnes all]
    exact all

/-- A write of five bytes leaves a record when it comes through `write` and none
when it comes through `write_iter`. -/
theorem not_offersOne_writeIter :
    (allBits.serve ⟨.write ⟨.a, 0⟩ ⟨[1, 2, 3, 4, 5], by decide⟩ 5 5, 1, 2, fun _ => 0,
        true⟩).queue.length = 1 ∧
      (allBits.serve ⟨.writeIter true 5, 1, 2, fun _ => 0, true⟩).queue.length = 0 ∧
      ¬ Along serve OffersOne allBits [⟨.writeIter true 5, 1, 2, fun _ => 0, true⟩] := by
  have nothing : (allBits.serve ⟨.writeIter true 5, 1, 2, fun _ => 0, true⟩).queue.length = 0 := by
    decide
  refine ⟨by decide, nothing, ?_⟩
  rintro ⟨offers, -⟩
  obtain ⟨record, queued⟩ := offers ⟨rfl, rfl, by decide⟩
  rw [queued] at nothing
  simp at nothing

end TrfsLogDriver

end Tracefs
