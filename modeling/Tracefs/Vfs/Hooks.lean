import Tracefs.Record.Pathnames
import Tracefs.Vfs.Steps

/-!
# One hook for each operation

Fifteen operations call a hook.  Whatever the calls inside an operation return,
it calls its hook once, with the value it then returns, and nothing reaches the
lower file system after that.
-/

namespace Tracefs

open Bytes

theorem TracedCall.assigns_ret (call : TracedCall) (pid : BitVec 32) :
    Store.assign .ret call.ret.toNat ∈ (call.encoder pid).body ∧
      (call.encoder pid).decl.widthOf .ret = 4 := by
  refine ⟨?_, by cases call <;> rfl⟩
  cases call <;>
    simp [encoder, ret, trfsLogOpenOp, trfsLogReadOp, trfsLogWriteOp, trfsLogCloseOp,
      trfsLogMkdirOp, trfsLogRmdirOp, trfsLogUnlinkOp, dentryEncoder, trfsLogLinkOp,
      trfsLogSymlinkOp, trfsLogRenameOp, trfsLogMknodOp, trfsLogSetxattrOp, trfsLogGetxattrOp,
      trfsLogListxattrOp, trfsLogRemovexattrOp, inodeEncoder]

theorem TraceRecord.member_ret_of_name {record : TraceRecord} {name : Name}
    (single : record.call.names = [name]) (notWrite : record.call.kind ≠ .write)
    (notSymlink : record.call.kind ≠ .symlink) : record.member .ret = record.call.ret.toNat := by
  obtain ⟨assigned, width⟩ := record.call.assigns_ret record.pid
  have stores := TracedCall.storesName record.pid single notWrite notSymlink
  apply member_of_assign stores.apart assigned
  rw [encoder, width]
  exact record.call.ret.isLt

/-- Every record holds the result its hook was given. -/
theorem TraceRecord.member_ret (record : TraceRecord) :
    record.member .ret = record.call.ret.toNat := by
  obtain ⟨call, pid, rId, heap⟩ := record
  cases call with
  | link oldName newName ret => exact (trfsLogLinkOp_holds ret rId heap oldName newName).1
  | rename oldName newName ret => exact (trfsLogRenameOp_holds ret rId heap oldName newName).1
  | symlink name target ret => exact (trfsLogSymlinkOp_holds ret rId heap name target).1
  | write name buf ppos file ret =>
      obtain ⟨-, -, -, held, -⟩ := trfsLogWriteOp_holds pid name file ret rId heap buf ppos
      exact held
  | openFile | read | mkdir | rmdir | unlink | close | mknod | setxattr | getxattr | listxattr
  | removexattr =>
      apply member_ret_of_name rfl
      · simp [TracedCall.kind]
      · simp [TracedCall.kind]

/-- The steps that reach the lower file system or the trace. -/
def Step.isEvent : Step → Bool
  | lowerCall | hook _ => true
  | _ => false

/-- `traced` is the only hook, and no lower call comes behind it. -/
def Trail.TracedOnce (trail : Trail) (traced : TracedCall) : Prop :=
  ∃ before behind, trail.steps = before ++ .hook traced :: behind ∧
    (∀ other, Step.hook other ∉ before) ∧ ∀ step ∈ behind, step.isEvent = false

namespace Trail

@[simp] theorem events_trfsGetLowerPath (operand : Operand) :
    (trfsGetLowerPath operand).filter Step.isEvent = [] := rfl

@[simp] theorem events_trfsPutLowerPath (operand : Operand) :
    (trfsPutLowerPath operand).filter Step.isEvent = [] := rfl

@[simp] theorem events_lockParent (operand : Operand) :
    (lockParent operand).filter Step.isEvent = [] := rfl

@[simp] theorem events_unlockDir (operand : Operand) :
    (unlockDir operand).filter Step.isEvent = [] := rfl

@[simp] theorem events_lockRename : lockRename.filter Step.isEvent = [] := rfl

@[simp] theorem events_unlockRename : unlockRename.filter Step.isEvent = [] := rfl

@[simp] theorem events_copyDir (operand : Operand) :
    (copyDir operand).filter Step.isEvent = [] := rfl

@[simp] theorem events_trace (traced : TracedCall) :
    (trace traced).filter Step.isEvent = [.hook traced] := rfl

@[simp] theorem events_lowerCallIf (supported : Bool) :
    (lowerCallIf supported).filter Step.isEvent = lowerCallIf supported := by
  cases supported <;> rfl

theorem events_createLike (lower : Err) (retDentry : BitVec 64) (hook : Err → List Step) :
    (createLike lower retDentry hook).steps.filter Step.isEvent =
      lowerCallIf true ++ (hook (createLike lower retDentry hook).err).filter Step.isEvent := by
  simp [createLike, apply_ite (List.filter Step.isEvent), Step.isEvent]

theorem events_xattrLike (supported : Bool) (missing lower : Err) {copy : Step}
    (silent : copy.isEvent = false) (hook : Err → TracedCall) :
    (xattrLike supported missing lower copy hook).steps.filter Step.isEvent =
      lowerCallIf supported ++ [.hook (hook (ifSupported supported missing lower))] := by
  simp [xattrLike, apply_ite (List.filter Step.isEvent), silent]

theorem events_trfsFsync (genericFsync vfsFsyncRange : Err) :
    (trfsFsync genericFsync vfsFsyncRange).steps.filter Step.isEvent =
      lowerCallIf (genericFsync = 0) := by
  by_cases synced : genericFsync = 0
  · rw [trfsFsync, if_neg (not_not.mpr synced), decide_eq_true synced]
    rfl
  · rw [trfsFsync, if_pos synced, decide_eq_false synced]
    rfl

theorem events_trfsOpen (file : OpenedFile) (flags mode : BitVec 32) (unhashed allocated : Bool)
    (dentryOpen : Err) :
    (trfsOpen file flags mode unhashed allocated dentryOpen).steps.filter Step.isEvent =
      lowerCallIf (¬ (unhashed ∨ allocated = false)) ++
        trace (.openFile file.name flags mode file.addr
          (trfsOpen file flags mode unhashed allocated dentryOpen).err) := by
  by_cases early : unhashed ∨ allocated = false
  · rw [trfsOpen, if_pos early, decide_eq_false (not_not.mpr early)]
    rfl
  · rw [trfsOpen, if_neg early, decide_eq_true early]
    by_cases opened : dentryOpen = 0
    · rw [if_neg (not_not.mpr opened)]
      rfl
    · rw [if_pos opened]
      rfl

theorem events_trfsSetattr (inodeChangeOk : Err) (newsizeOk : Option Err) (notifyChange : Err) :
    (trfsSetattr inodeChangeOk newsizeOk notifyChange).steps.filter Step.isEvent =
      lowerCallIf (inodeChangeOk = 0 ∧ newsizeOk.getD 0 = 0) := by
  by_cases allowed : inodeChangeOk = 0
  · by_cases sized : newsizeOk.getD 0 = 0
    · rw [trfsSetattr, if_neg (not_not.mpr allowed), if_neg (not_not.mpr sized),
        decide_eq_true ⟨allowed, sized⟩]
      by_cases changed : notifyChange = 0
      · rw [if_neg (not_not.mpr changed)]
        rfl
      · rw [if_pos changed]
        rfl
    · rw [trfsSetattr, if_neg (not_not.mpr allowed), if_pos sized,
        decide_eq_false fun both => sized both.2]
      rfl
  · rw [trfsSetattr, if_pos allowed, decide_eq_false fun both => allowed both.1]
    rfl

theorem tracedOnce_of_events {trail : Trail} {supported : Bool} {traced : TracedCall}
    (events : trail.steps.filter Step.isEvent = lowerCallIf supported ++ [.hook traced]) :
    trail.TracedOnce traced := by
  obtain ⟨first, rest, split, firstEvents, restEvents⟩ := List.filter_eq_append_iff.mp events
  obtain ⟨silent, behind, rfl, silentStep, -, behindEvents⟩ := List.filter_eq_cons_iff.mp restEvents
  refine ⟨first ++ silent, behind, by rw [split, List.append_assoc], ?_, ?_⟩
  · intro other present
    rcases List.mem_append.mp present with early | late
    · -- a hook among the first steps would be one of the lower calls
      have kept : Step.hook other ∈ first.filter Step.isEvent :=
        List.mem_filter.mpr ⟨early, rfl⟩
      rw [firstEvents] at kept
      cases supported <;> simp [lowerCallIf] at kept
    · exact silentStep _ late rfl
  · simpa [List.filter_eq_nil_iff] using behindEvents

end Trail

namespace Operation

/-- The kind of the operations that have a hook. -/
def kind : Operation → Option OpKind
  | link .. => some .link
  | unlink .. => some .unlink
  | symlink .. => some .symlink
  | mkdir .. => some .mkdir
  | rmdir .. => some .rmdir
  | mknod .. => some .mknod
  | rename .. => some .rename
  | setxattr .. => some .setxattr
  | getxattr .. => some .getxattr
  | listxattr .. => some .listxattr
  | removexattr .. => some .removexattr
  | read .. => some .read
  | write .. => some .write
  | openFile .. => some .openFile
  | release .. => some .close
  | create .. | setattr .. | readlink .. | getattr .. | fsync .. | statfs .. | dRevalidate .. =>
      none

/-- The operation gets as far as its call into the lower file system. -/
def reachesLower : Operation → Bool
  | rename _ _ _ trap _ => trap = .nothing
  | readlink supported _ | setxattr _ supported _ | getxattr _ supported _
  | listxattr _ supported _ | removexattr _ supported _ => supported
  | setattr inodeChangeOk newsizeOk _ => inodeChangeOk = 0 ∧ newsizeOk.getD 0 = 0
  | openFile _ _ _ unhashed allocated _ => ¬ (unhashed ∨ allocated = false)
  | release _ hasLower => hasLower
  | fsync genericFsync _ => genericFsync = 0
  | dRevalidate rcu lowerRevalidate => ¬ rcu ∧ lowerRevalidate.isSome
  | _ => true

/-- The hooks that the result of the operation lists. -/
def hooks (operation : Operation) : List TracedCall :=
  (operation.call.map fun call => call.result.hooks).getD []

/-- What an operation does towards the lower file system and the trace: at most one
call, then the hooks of its result. -/
theorem events_trail (operation : Operation) :
    operation.trail.steps.filter Step.isEvent =
      Trail.lowerCallIf operation.reachesLower ++ operation.hooks.map Step.hook := by
  cases operation with
  | create => exact Trail.events_createLike _ _ _
  | symlink => exact Trail.events_createLike _ _ _
  | mkdir => exact Trail.events_createLike _ _ _
  | mknod => exact Trail.events_createLike _ _ _
  | setxattr => exact Trail.events_xattrLike _ _ _ rfl _
  | getxattr => exact Trail.events_xattrLike _ _ _ rfl _
  | listxattr => exact Trail.events_xattrLike _ _ _ rfl _
  | removexattr => exact Trail.events_xattrLike _ _ _ rfl _
  | link | unlink | rmdir =>
      simp [trail, Trail.trfsLink, Trail.trfsUnlink, Trail.trfsRmdir,
        apply_ite (List.filter Step.isEvent), Step.isEvent, reachesLower, hooks, call,
        VfsCall.result, trfsLink, trfsUnlink, trfsRmdir]
  | rename oldName newName sameDir trap vfsRename =>
      cases trap <;>
        simp [trail, Trail.trfsRename, apply_ite (List.filter Step.isEvent), reachesLower, hooks,
          call, VfsCall.result, trfsRename]
  | read | write | release =>
      simp [trail, Trail.trfsRead, Trail.trfsWrite, Trail.trfsFileRelease,
        apply_ite (List.filter Step.isEvent), Step.isEvent, reachesLower, hooks, call,
        VfsCall.result, trfsRead, trfsWrite, trfsFileRelease]
  | readlink | getattr | statfs =>
      simp [trail, Trail.trfsReadlink, Trail.trfsGetattr, Trail.trfsStatfs,
        apply_ite (List.filter Step.isEvent), Step.isEvent, reachesLower, hooks, call]
  | dRevalidate rcu =>
      cases rcu with
      | true => rfl
      | false => simp [trail, Trail.trfsDRevalidate, reachesLower, hooks, call]
  | fsync genericFsync vfsFsyncRange =>
      exact (Trail.events_trfsFsync genericFsync vfsFsyncRange).trans (List.append_nil _).symm
  | openFile file flags mode unhashed allocated dentryOpen =>
      exact Trail.events_trfsOpen file flags mode unhashed allocated dentryOpen
  | setattr inodeChangeOk newsizeOk notifyChange =>
      exact (Trail.events_trfsSetattr inodeChangeOk newsizeOk notifyChange).trans
        (List.append_nil _).symm

/-- The steps end in the result that the operation has. -/
theorem err_trail {operation : Operation} {call : VfsCall} (modelled : operation.call = some call) :
    operation.trail.err = call.result.err := by
  cases operation with
  | readlink | getattr | fsync | statfs | dRevalidate => cases modelled
  | setattr inodeChangeOk newsizeOk notifyChange =>
      cases modelled
      simp only [trail, Trail.trfsSetattr, VfsCall.result, trfsSetattr, firstError]
      split
      · rfl
      · split <;> rfl
  | create | link | unlink | symlink | mkdir | rmdir | mknod | rename | setxattr | getxattr
  | listxattr | removexattr | read | write | openFile | release =>
      cases modelled
      rfl

theorem hooks_eq {operation : Operation} {kind : OpKind} (hooked : operation.kind = some kind) :
    ∃ traced, operation.hooks = [traced] ∧ traced.kind = kind ∧
      traced.ret = operation.trail.err := by
  cases operation with
  | create | setattr | readlink | getattr | fsync | statfs | dRevalidate => cases hooked
  | link | unlink | symlink | mkdir | rmdir | mknod | rename | setxattr | getxattr | listxattr
  | removexattr | read | write | openFile | release =>
      cases hooked
      exact ⟨_, rfl, rfl, rfl⟩

/-- An operation with a hook calls it once, behind the lower operation, and what is
recorded as the result is what the operation returns. -/
theorem traces_its_result (operation : Operation) {kind : OpKind}
    (hooked : operation.kind = some kind) :
    ∃ traced, traced.kind = kind ∧ operation.trail.TracedOnce traced ∧
      traced.ret = operation.trail.err ∧ ∀ pid rId heap,
        (TraceRecord.mk traced pid rId heap).member .ret = operation.trail.err.toNat := by
  obtain ⟨traced, only, ofKind, result⟩ := hooks_eq hooked
  refine ⟨traced, ofKind, ?_, result, ?_⟩
  · apply Trail.tracedOnce_of_events
    rw [operation.events_trail, only]
    rfl
  · intro pid rId heap
    rw [TraceRecord.member_ret, ← result]

/-- A file that NFS has renamed: the error is gone when the hook is called. -/
theorem traces_its_result_sillyRenamed :
    (Operation.unlink .a .ebusy true).trail.err = 0 ∧
      ∃ traced, traced.kind = .unlink ∧
        (Operation.unlink .a .ebusy true).trail.TracedOnce traced ∧
        traced.ret = (Operation.unlink .a .ebusy true).trail.err ∧ ∀ pid rId heap,
          (TraceRecord.mk traced pid rId heap).member .ret =
            (Operation.unlink .a .ebusy true).trail.err.toNat :=
  ⟨rfl, traces_its_result (.unlink .a .ebusy true) rfl⟩

end Operation

end Tracefs
