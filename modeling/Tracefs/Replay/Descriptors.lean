import Tracefs.Replay.RoundTrip
import Tracefs.Transition
import Mathlib.Data.List.Find
import Mathlib.Data.List.Induction
import Mathlib.Data.List.Nodup

/-!
# Files and their descriptors

A replayed open enters its descriptor in `omap` under the address of the file
and the task that opened it; later records of the file look it up there.  The
workload keeps its own account of which files are open.  The question is when
the two agree: whether each record of a file finds the descriptor that the
replay of its own open returned.
-/

namespace Tracefs

open Bytes Transition

/-- A traced call on a file.  The result of an open is zero when it succeeds. -/
inductive FileCall where
  | openFile (name : Name) (flags mode ret : BitVec 32)
  | read (name : Name) (count ppos : BitVec 64) (ret : BitVec 32)
  | write (name : Name) (buf : Payload) (ppos : BitVec 64) (ret : BitVec 32)
  | close (name : Name) (ret : BitVec 32)

/-- A call on the file at an address by a task, and the record of it on the page
from which it is replayed. -/
structure FileEvent where
  call : FileCall
  file : BitVec 64
  pid : BitVec 32
  rId : BitVec 32
  heap : Memory
  around : Memory
  op : Nat

def FileCall.traced (file : BitVec 64) : FileCall → TracedCall
  | openFile name flags mode ret => .openFile name flags mode file ret
  | read name count ppos ret => .read name count ppos file ret
  | write name buf ppos ret => .write name buf ppos file ret
  | close name ret => .close name file ret

/-- A call on a file that is already open. -/
def FileCall.IsUse : FileCall → Prop
  | openFile .. => False
  | _ => True

def FileCall.replayOp : FileCall → ReplayOp
  | openFile .. => .openFile
  | read .. => .read
  | write .. => .write
  | close .. => .close

namespace FileEvent

def record (event : FileEvent) : TraceRecord :=
  ⟨event.call.traced event.file, event.pid, event.rId, event.heap⟩

/-- The replay after the record, unless its handler leaves the local buffer.
When treplay is to stop at the first difference, what it replays is the beginning
of such a run. -/
def replay (env : Environment) (gflags : Nat) (event : FileEvent) (state : Replay) :
    Option Replay :=
  (event.call.replayOp.run env gflags (event.record.onPage event.around event.op)
    event.op state).state?

end FileEvent

/-- A file as the workload knows it.  An open that failed leaves no file, only a
record; `index` is the number of the record of the open. -/
structure TracedFile where
  file : BitVec 64
  pid : BitVec 32
  index : Nat
  isOpen : Bool
  deriving DecidableEq

namespace FileEvent

/-- The open file that a call is made on. -/
def isOn (event : FileEvent) (file : TracedFile) : Bool :=
  file.isOpen ∧ file.file = event.file

/-- The replay cannot tell the call from one by the opener of the file. -/
def sharesKey (event : FileEvent) (file : TracedFile) : Bool :=
  file.file.toNat = event.file.toNat ∧ file.pid.toInt = event.pid.toInt

@[simp] theorem isOn_iff (event : FileEvent) (file : TracedFile) :
    event.isOn file ↔ file.isOpen ∧ file.file = event.file :=
  decide_eq_true_iff

@[simp] theorem sharesKey_iff (event : FileEvent) (file : TracedFile) :
    event.sharesKey file ↔ file.file = event.file ∧ file.pid = event.pid := by
  rw [sharesKey, decide_eq_true_iff, BitVec.toNat_inj, BitVec.toInt_inj]

end FileEvent

/-- The files that were opened, or failed to be, and are not closed; oldest first. -/
structure Workload where
  count : Nat
  files : List TracedFile

namespace Workload

def start : Workload := ⟨0, []⟩

def step (workload : Workload) (event : FileEvent) : Workload where
  count := workload.count + 1
  files :=
    match event.call with
    | .openFile _ _ _ ret =>
        workload.files ++ [⟨event.file, event.pid, workload.count, ret = 0⟩]
    | .read .. | .write .. => workload.files
    | .close .. => workload.files.eraseP event.isOn

/-- The kernel gives out no address of an open file, and calls are made on open
files. -/
def Admits (workload : Workload) (event : FileEvent) : Prop :=
  match event.call with
  | .openFile .. => ∀ file ∈ workload.files, file.isOpen → file.file ≠ event.file
  | _ => ∃ file ∈ workload.files, file.isOpen ∧ file.file = event.file

/-- The call is made by the task that opened the file, and that task has not had
an open fail at the same address before. -/
def Unambiguous (workload : Workload) (event : FileEvent) : Prop :=
  event.call.IsUse →
    (∀ file ∈ workload.files, file.isOpen → file.file = event.file → file.pid = event.pid) ∧
      ∀ file ∈ workload.files, ¬ file.isOpen → file.file = event.file → file.pid ≠ event.pid

end Workload

/-- A workload that a kernel can produce: any number of tasks, sharing open files
in any way. -/
structure TracedWorkload where
  events : List FileEvent
  possible : Along Workload.step Workload.Admits Workload.start events

/-- The replay of the records so far, as long as it has stayed in its buffers, next
to the workload that left them. -/
structure ReplaySession where
  replay : Option Replay
  workload : Workload

/-- The descriptor a system call is made on. -/
def Syscall.descriptor : Syscall → Option Int
  | .read fd _ | .write fd _ | .close fd => some fd
  | _ => none

/-- What the call numbered `index` returned; every record makes one call. -/
def Environment.returned (env : Environment) (replay : Replay) (index : Nat) : Int :=
  match replay.calls[index]? with
  | some syscall => toInt32 (env.answer index syscall)
  | none => -1

/-- What the lookup of a record finds. -/
def FileEvent.lookup (event : FileEvent) (state : Replay) : Int :=
  trfsOmapGetfd state.omap event.file.toNat event.pid.toInt

/-- What a read returns, if the record is one of a read, fits the buffer of its
handler. -/
def FileEvent.Fits (env : Environment) (event : FileEvent) (state : Replay) : Prop :=
  match event.call with
  | .read _ count _ _ => env.ReadFits state.calls.length (event.lookup state) count.toNat
  | _ => True

/-- The call asks for no more than the buffer of the handler of read holds. -/
def FileCall.AsksForRoom : FileCall → Prop
  | read _ count _ _ => count.toNat ≤ maxBytes
  | _ => True

theorem FileCall.asksForRoom_of_not_isUse {call : FileCall} (other : ¬ call.IsUse) :
    call.AsksForRoom := by
  cases call with
  | read => exact absurd trivial other
  | _ => trivial

namespace ReplaySession

def start : ReplaySession := ⟨some ⟨[], [], []⟩, Workload.start⟩

def step (env : Environment) (gflags : Nat) (session : ReplaySession) (event : FileEvent) :
    ReplaySession :=
  ⟨session.replay.bind (event.replay env gflags), session.workload.step event⟩

/-- A read, write or close is made on the descriptor that the replay of the
file's own open returned, if that was one, and is survived.  After a handler has
left its buffer nothing is. -/
def UsesOwnDescriptor (env : Environment) (gflags : Nat) (session : ReplaySession)
    (event : FileEvent) : Prop :=
  event.call.IsUse →
    ∀ file ∈ session.workload.files, file.isOpen → file.file = event.file →
      ∃ replay, session.replay = some replay ∧ (0 ≤ env.returned replay file.index →
        ∃ next, event.replay env gflags replay = some next ∧
          next.calls.getLast?.bind Syscall.descriptor = some (env.returned replay file.index))

/-- No read of the replay returns more than the buffer holds. -/
def ReadFits (env : Environment) (session : ReplaySession) (event : FileEvent) : Prop :=
  ∀ replay, session.replay = some replay → event.Fits env replay

end ReplaySession

@[simp] theorem state?_mapRetval (gflags : Nat) (same : Bool) (state : Replay) :
    (mapRetval gflags same state).state? =
      some { state with reports := state.reports ++ [same] } := by
  rcases mapRetval_cases gflags same state with ended | ended <;> rw [ended] <;> rfl

namespace FileEvent

variable (env : Environment) (gflags : Nat) (event : FileEvent) (state : Replay)

theorem fits_of_asksForRoom (small : event.call.AsksForRoom) : event.Fits env state := by
  unfold Fits
  cases call : event.call with
  | read name count ppos ret =>
      rw [call] at small
      exact env.readFits_of_count _ _ small
  | _ => trivial

theorem replay_openFile {name : Name} {flags mode ret : BitVec 32}
    (isOpen : event.call = .openFile name flags mode ret) :
    let syscall := Syscall.openFile (some name.text) flags.toInt mode.toNat
    event.replay env gflags state = some
      { state with
        calls := state.calls ++ [syscall]
        omap := state.omap ++ [⟨toInt32 (env.answer state.calls.length syscall),
          event.file.toNat, event.pid.toInt⟩] } := by
  have reads := readsBack_record event.record event.around event.op
  simp only [record, isOpen, FileCall.traced, ReadsBack] at reads
  obtain ⟨path, flagsRead, modeRead, pidRead, addrRead, -⟩ := reads
  simp only [replay, record, isOpen, FileCall.traced, FileCall.replayOp, ReplayOp.run,
    trfsRunOpenOp, path, flagsRead, modeRead, pidRead, addrRead, Replay.call, trfsOmapAddOp,
    Outcome.state?, toInt32_toNat]

theorem replay_read {name : Name} {count ppos : BitVec 64} {ret : BitVec 32}
    (isRead : event.call = .read name count ppos ret) :
    ∃ same, event.replay env gflags state =
      if env.ReadFits state.calls.length (event.lookup state) count.toNat then some
        { state with
          calls := state.calls ++ [.read (event.lookup state) count.toNat]
          reports := state.reports ++ [same] }
      else none := by
  have reads := readsBack_record event.record event.around event.op
  simp only [record, isRead, FileCall.traced, ReadsBack] at reads
  obtain ⟨pidRead, addrRead, countRead, -⟩ := reads
  simp only [replay, record, isRead, FileCall.traced, FileCall.replayOp, ReplayOp.run,
    trfsRunReadOp, runCompared, pidRead, addrRead, countRead, Replay.call, apply_ite Outcome.state?,
    state?_mapRetval, toInt32_toNat, lookup]
  exact ⟨_, rfl⟩

theorem replay_write {name : Name} {buf : Payload} {ppos : BitVec 64} {ret : BitVec 32}
    (isWrite : event.call = .write name buf ppos ret) :
    ∃ same, event.replay env gflags state = some
      { state with
        calls := state.calls ++ [.write (event.lookup state) buf.bytes]
        reports := state.reports ++ [same] } := by
  have reads := readsBack_record event.record event.around event.op
  simp only [record, isWrite, FileCall.traced, ReadsBack] at reads
  obtain ⟨pidRead, addrRead, -, -, data⟩ := reads
  simp only [replay, record, isWrite, FileCall.traced, FileCall.replayOp, ReplayOp.run,
    trfsRunWriteOp, pidRead, addrRead, data, Replay.call, state?_mapRetval, toInt32_toNat, lookup]
  exact ⟨_, rfl⟩

theorem replay_close {name : Name} {ret : BitVec 32} (isClose : event.call = .close name ret) :
    event.replay env gflags state = some
      { state with
        calls := state.calls ++ [.close (event.lookup state)]
        omap := trfsOmapDeleteOp state.omap event.file.toNat event.pid.toInt } := by
  have reads := readsBack_record event.record event.around event.op
  simp only [record, isClose, FileCall.traced, ReadsBack] at reads
  obtain ⟨pidRead, addrRead, -⟩ := reads
  simp only [replay, record, isClose, FileCall.traced, FileCall.replayOp, ReplayOp.run,
    trfsRunCloseOp, pidRead, addrRead, Replay.call, Outcome.state?, toInt32_toNat, lookup]

/-- The handler has a defined end exactly when what it reads fits. -/
theorem isSome_replay_iff : (event.replay env gflags state).isSome ↔ event.Fits env state := by
  unfold Fits
  cases call : event.call with
  | openFile => simp [event.replay_openFile env gflags state call]
  | read =>
      obtain ⟨same, replayed⟩ := event.replay_read env gflags state call
      rw [replayed]
      split <;> simp [*]
  | write =>
      obtain ⟨same, replayed⟩ := event.replay_write env gflags state call
      simp [replayed]
  | close => simp [event.replay_close env gflags state call]

theorem exists_replay (fits : event.Fits env state) :
    ∃ next, event.replay env gflags state = some next :=
  Option.isSome_iff_exists.mp ((event.isSome_replay_iff env gflags state).mpr fits)

variable {env gflags event state} {next : Replay}

theorem calls_replay (replayed : event.replay env gflags state = some next) :
    ∃ syscall, next.calls = state.calls ++ [syscall] ∧
      (event.call.IsUse → syscall.descriptor = some (event.lookup state)) := by
  cases call : event.call with
  | openFile =>
      rw [event.replay_openFile env gflags state call] at replayed
      cases replayed
      exact ⟨_, rfl, False.elim⟩
  | read =>
      obtain ⟨same, read⟩ := event.replay_read env gflags state call
      rw [read, Option.ite_none_right_eq_some] at replayed
      cases replayed.2
      exact ⟨_, rfl, fun _ => rfl⟩
  | write =>
      obtain ⟨same, written⟩ := event.replay_write env gflags state call
      rw [written] at replayed
      cases replayed
      exact ⟨_, rfl, fun _ => rfl⟩
  | close =>
      rw [event.replay_close env gflags state call] at replayed
      cases replayed
      exact ⟨_, rfl, fun _ => rfl⟩

theorem descriptor_replay (use : event.call.IsUse)
    (replayed : event.replay env gflags state = some next) :
    next.calls.getLast?.bind Syscall.descriptor = some (event.lookup state) := by
  obtain ⟨syscall, appended, descriptor⟩ := calls_replay replayed
  rw [appended, List.getLast?_append, List.getLast?_singleton]
  exact descriptor use

/-- Later calls do not change what earlier ones returned. -/
theorem returned_replay {index : Nat} (earlier : index < state.calls.length)
    (replayed : event.replay env gflags state = some next) :
    env.returned next index = env.returned state index := by
  obtain ⟨syscall, appended, -⟩ := calls_replay replayed
  rw [Environment.returned, appended, List.getElem?_append_left earlier, Environment.returned]

end FileEvent

namespace Workload

/-- Files stand in the order of their opens.  No two open files share an address,
and an open that failed at the address of an open file did so before it. -/
structure WellFormed (workload : Workload) : Prop where
  below : ∀ file ∈ workload.files, file.index < workload.count
  sorted : workload.files.Pairwise fun first second => first.index < second.index
  unique : ∀ first ∈ workload.files, ∀ second ∈ workload.files, first.isOpen → second.isOpen →
    first.file = second.file → first = second
  failedFirst : ∀ failed ∈ workload.files, ∀ file ∈ workload.files, ¬ failed.isOpen →
    file.isOpen → failed.file = file.file → failed.index < file.index

namespace WellFormed

variable {workload : Workload}

theorem start : Workload.start.WellFormed where
  below := by simp [Workload.start]
  sorted := List.Pairwise.nil
  unique := by simp [Workload.start]
  failedFirst := by simp [Workload.start]

theorem sublist (wellFormed : workload.WellFormed) {files : List TracedFile}
    (sublist : files.Sublist workload.files) : WellFormed ⟨workload.count + 1, files⟩ where
  below := fun file membership =>
    Nat.lt_succ_of_lt (wellFormed.below file (sublist.subset membership))
  sorted := wellFormed.sorted.sublist sublist
  unique := fun first firstIn second secondIn =>
    wellFormed.unique first (sublist.subset firstIn) second (sublist.subset secondIn)
  failedFirst := fun failed failedIn file fileIn =>
    wellFormed.failedFirst failed (sublist.subset failedIn) file (sublist.subset fileIn)

theorem opened (wellFormed : workload.WellFormed) {file : BitVec 64}
    (free : ∀ other ∈ workload.files, other.isOpen → other.file ≠ file) (pid : BitVec 32)
    (isOpen : Bool) :
    WellFormed ⟨workload.count + 1, workload.files ++ [⟨file, pid, workload.count, isOpen⟩]⟩ where
  below := by
    intro other membership
    rcases List.mem_append.mp membership with older | newest
    · exact Nat.lt_succ_of_lt (wellFormed.below other older)
    · rw [List.mem_singleton.mp newest]
      exact Nat.lt_succ_self _
  sorted := by
    refine List.pairwise_append.mpr ⟨wellFormed.sorted, List.pairwise_singleton _ _, ?_⟩
    intro older olderIn newest newestIn
    rw [List.mem_singleton.mp newestIn]
    exact wellFormed.below older olderIn
  unique := by
    intro first firstIn second secondIn firstOpen secondOpen same
    rcases List.mem_append.mp firstIn with firstOld | firstNew <;>
      rcases List.mem_append.mp secondIn with secondOld | secondNew
    · exact wellFormed.unique first firstOld second secondOld firstOpen secondOpen same
    · rw [List.mem_singleton.mp secondNew] at same
      exact absurd same (free first firstOld firstOpen)
    · rw [List.mem_singleton.mp firstNew] at same
      exact absurd same.symm (free second secondOld secondOpen)
    · rw [List.mem_singleton.mp firstNew, List.mem_singleton.mp secondNew]
  failedFirst := by
    intro failed failedIn other otherIn isFailed otherOpen same
    rcases List.mem_append.mp otherIn with otherOld | otherNew
    · rcases List.mem_append.mp failedIn with failedOld | failedNew
      · exact wellFormed.failedFirst failed failedOld other otherOld isFailed otherOpen same
      · rw [List.mem_singleton.mp failedNew] at same
        exact absurd same.symm (free other otherOld otherOpen)
    · rcases List.mem_append.mp failedIn with failedOld | failedNew
      · rw [List.mem_singleton.mp otherNew]
        exact wellFormed.below failed failedOld
      · rw [List.mem_singleton.mp otherNew] at otherOpen
        rw [List.mem_singleton.mp failedNew] at isFailed
        exact absurd otherOpen isFailed

theorem eq_of_index_eq (wellFormed : workload.WellFormed) {first second : TracedFile}
    (firstIn : first ∈ workload.files) (secondIn : second ∈ workload.files)
    (same : first.index = second.index) : first = second := by
  have distinct : (workload.files.map TracedFile.index).Nodup :=
    List.pairwise_map.mpr (wellFormed.sorted.imp Nat.ne_of_lt)
  exact List.inj_on_of_nodup_map distinct firstIn secondIn same

theorem step (wellFormed : workload.WellFormed) {event : FileEvent}
    (admits : workload.Admits event) : (workload.step event).WellFormed := by
  rw [Admits] at admits
  rw [Workload.step]
  cases call : event.call with
  | openFile name flags mode ret =>
      rw [call] at admits
      exact wellFormed.opened admits event.pid _
  | read | write => exact wellFormed.sublist (List.Sublist.refl _)
  | close => exact wellFormed.sublist List.eraseP_sublist

end WellFormed

theorem Admits.of_use {workload : Workload} {event : FileEvent} (admits : workload.Admits event)
    (use : event.call.IsUse) : ∃ file ∈ workload.files, file.isOpen ∧ file.file = event.file := by
  rw [Admits] at admits
  cases call : event.call with
  | openFile =>
      rw [call] at use
      exact use.elim
  | read | write | close =>
      rw [call] at admits
      exact admits

/-- Among the files of an unambiguous workload, the key of a use is that of the
open file. -/
theorem Unambiguous.sharesKey_eq {workload : Workload} {event : FileEvent}
    (unambiguous : workload.Unambiguous event) (use : event.call.IsUse) (file : TracedFile)
    (present : file ∈ workload.files) :
    event.sharesKey file = event.isOn file := by
  obtain ⟨opener, noFailure⟩ := unambiguous use
  rw [Bool.eq_iff_iff, FileEvent.sharesKey_iff, FileEvent.isOn_iff]
  constructor
  · rintro ⟨sameFile, samePid⟩
    refine ⟨?_, sameFile⟩
    by_contra failed
    exact noFailure file present failed sameFile samePid
  · rintro ⟨isOpen, sameFile⟩
    exact ⟨sameFile, opener file present isOpen sameFile⟩

end Workload

theorem eraseP_congr {α : Type} {first second : α → Bool} {l : List α}
    (agree : ∀ item ∈ l, first item = second item) : l.eraseP first = l.eraseP second := by
  induction l with
  | nil => rfl
  | cons item l inductionHypothesis =>
      rw [List.eraseP_cons, List.eraseP_cons, agree item (by simp),
        inductionHypothesis fun other membership => agree other (by simp [membership])]

/-- The entry of `omap` that the open of a file left. -/
def TracedFile.node (env : Environment) (replay : Replay) (file : TracedFile) : OmapNode :=
  ⟨env.returned replay file.index, file.file.toNat, file.pid.toInt⟩

/-- The list `omap` holds the files of the workload, in their order. -/
structure Replay.Tracks (env : Environment) (replay : Replay) (workload : Workload) : Prop where
  wellFormed : workload.WellFormed
  count : replay.calls.length = workload.count
  omap : replay.omap = workload.files.map (TracedFile.node env replay)

namespace Replay.Tracks

variable {env : Environment} {gflags : Nat} {replay next : Replay} {workload : Workload}
  {event : FileEvent}

theorem start : Replay.Tracks env ⟨[], [], []⟩ Workload.start := ⟨.start, rfl, rfl⟩

theorem map_node (tracks : replay.Tracks env workload)
    (replayed : event.replay env gflags replay = some next) {files : List TracedFile}
    (among : files ⊆ workload.files) :
    files.map (TracedFile.node env next) = files.map (TracedFile.node env replay) := by
  apply List.map_congr_left
  intro file membership
  have earlier := tracks.wellFormed.below file (among membership)
  rw [TracedFile.node, FileEvent.returned_replay (tracks.count ▸ earlier) replayed, TracedFile.node]

theorem step (tracks : replay.Tracks env workload) (admits : workload.Admits event)
    (unambiguous : workload.Unambiguous event)
    (replayed : event.replay env gflags replay = some next) :
    next.Tracks env (workload.step event) := by
  obtain ⟨syscall, appended, -⟩ := FileEvent.calls_replay replayed
  refine ⟨tracks.wellFormed.step admits, ?_, ?_⟩
  · simp only [appended, Workload.step, List.length_append, List.length_singleton, tracks.count]
  have unchanged : replay.omap = workload.files.map (TracedFile.node env next) := by
    rw [tracks.map_node replayed (List.Subset.refl _), tracks.omap]
  simp only [Workload.step]
  cases call : event.call with
  | openFile name flags mode ret =>
      rw [List.map_append, ← unchanged]
      rw [event.replay_openFile env gflags replay call] at replayed
      cases replayed
      simp only [List.map_singleton, TracedFile.node, Environment.returned, ← tracks.count,
        List.getElem?_concat_length]
  | read =>
      obtain ⟨same, read⟩ := event.replay_read env gflags replay call
      rw [read, Option.ite_none_right_eq_some] at replayed
      rw [← unchanged]
      cases replayed.2
      rfl
  | write =>
      obtain ⟨same, written⟩ := event.replay_write env gflags replay call
      rw [← unchanged]
      rw [written] at replayed
      cases replayed
      rfl
  | close =>
      -- the entry that the replay deletes is that of the file that was closed
      have use : event.call.IsUse := by
        rw [call]
        trivial
      have sameEntry := eraseP_congr (unambiguous.sharesKey_eq use)
      rw [tracks.map_node replayed List.eraseP_subset, ← sameEntry]
      rw [event.replay_close env gflags replay call] at replayed
      cases replayed
      simp only [trfsOmapDeleteOp, tracks.omap, List.eraseP_map]
      rfl

theorem lookup_eq (tracks : replay.Tracks env workload) :
    event.lookup replay =
      ((workload.files.find? event.sharesKey).map fun file =>
        env.returned replay file.index).getD (-1) := by
  rw [FileEvent.lookup, trfsOmapGetfd, tracks.omap, List.find?_map, Option.map_map]
  rfl

/-- A use in an unambiguous workload finds the descriptor of its own file. -/
theorem lookup_of_unambiguous (tracks : replay.Tracks env workload)
    (unambiguous : workload.Unambiguous event) (use : event.call.IsUse)
    {file : TracedFile} (present : file ∈ workload.files) (isOpen : file.isOpen)
    (same : file.file = event.file) :
    event.lookup replay = env.returned replay file.index := by
  have found : workload.files.find? event.isOn = some file := by
    have some_ : (workload.files.find? event.isOn).isSome := by
      simpa using ⟨file, present, isOpen, same⟩
    obtain ⟨other, first⟩ := Option.isSome_iff_exists.mp some_
    obtain ⟨otherOpen, otherSame⟩ := (event.isOn_iff other).mp (List.find?_some first)
    rw [first, tracks.wellFormed.unique other (List.mem_of_find?_eq_some first) file present
      otherOpen isOpen (otherSame.trans same.symm)]
  rw [tracks.lookup_eq, List.find?_congr (unambiguous.sharesKey_eq use), found]
  rfl

end Replay.Tracks

namespace ReplaySession

theorem workload_run (env : Environment) (gflags : Nat) (session : ReplaySession)
    (events : List FileEvent) :
    (run (ReplaySession.step env gflags) session events).workload =
      run Workload.step session.workload events := by
  induction events generalizing session with
  | nil => rfl
  | cons event events inductionHypothesis => exact inductionHypothesis _

/-- The replay has stayed in its buffers and keeps account of the files. -/
def Tracks (env : Environment) (session : ReplaySession) : Prop :=
  ∃ replay, session.replay = some replay ∧ replay.Tracks env session.workload

theorem tracks_run (env : Environment) (gflags : Nat) (events : List FileEvent)
    (possible : Along Workload.step Workload.Admits Workload.start events)
    (unambiguous : Along Workload.step Workload.Unambiguous Workload.start events)
    (fits : Along (ReplaySession.step env gflags) (ReadFits env) ReplaySession.start events) :
    (run (ReplaySession.step env gflags) ReplaySession.start events).Tracks env := by
  induction events using List.reverseRecOn with
  | nil => exact ⟨_, rfl, .start⟩
  | append_singleton events event inductionHypothesis =>
      rw [along_append_singleton] at possible unambiguous fits
      obtain ⟨replay, going, tracks⟩ := inductionHypothesis possible.1 unambiguous.1 fits.1
      obtain ⟨next, replayed⟩ := event.exists_replay env gflags replay (fits.2 replay going)
      rw [workload_run] at tracks
      refine ⟨next, ?_, ?_⟩
      · rw [run_append_singleton, ReplaySession.step, going]
        exact replayed
      · rw [workload_run, run_append_singleton]
        exact tracks.step possible.2 unambiguous.2 replayed

/-- A system in which one call succeeds, with descriptor 3. -/
def onlyCall (index : Nat) : Environment where
  answer := fun n _ => if n = index then 3 else -1
  p1 := fun _ _ => 0
  p2 := fun _ _ => 0

/-- A system in which besides that call the reads succeed, with all the bytes asked for. -/
def readingAll (index : Nat) : Environment where
  answer := fun n syscall =>
    if n = index then 3 else
      match syscall with
      | .read _ count => count
      | _ => -1
  p1 := fun _ _ => 0
  p2 := fun _ _ => 0

theorem readFits_onlyCall (index : Nat) (session : ReplaySession) (event : FileEvent) :
    session.ReadFits (onlyCall index) event := by
  intro replay _
  unfold FileEvent.Fits
  split
  · apply Environment.readFits_of_answer
    simp only [onlyCall]
    split <;> decide
  · trivial

theorem returned_of_answer {env : Environment} {replay : Replay} {index : Nat}
    (made : index < replay.calls.length) (answer : ∀ syscall, env.answer index syscall = 3) :
    env.returned replay index = 3 := by
  rw [Environment.returned, List.getElem?_eq_getElem made]
  simp only [answer]
  rfl

theorem returned_onlyCall_other (replay : Replay) {index other : Nat} (different : other ≠ index) :
    (onlyCall index).returned replay other = -1 := by
  rw [Environment.returned]
  split
  next =>
    simp only [onlyCall, if_neg different]
    rfl
  next => rfl

/-- Where the workload becomes ambiguous, a use of a file misses the only
descriptor there is. -/
theorem lookup_of_ambiguous {replay : Replay} {workload : Workload} {event : FileEvent}
    {file : TracedFile} (tracks : replay.Tracks (onlyCall file.index) workload)
    (present : file ∈ workload.files) (isOpen : file.isOpen)
    (ambiguous : file.pid = event.pid → ∃ failed ∈ workload.files,
      ¬ failed.isOpen ∧ failed.file = file.file ∧ failed.pid = event.pid)
    (same : file.file = event.file) : event.lookup replay ≠ 3 := by
  rw [tracks.lookup_eq]
  cases first : workload.files.find? event.sharesKey with
  | none => simp
  | some found =>
      rw [Option.map_some, Option.getD_some]
      by_cases own : found.index = file.index
      · -- the first match is the file itself, but the failed open stands before it
        obtain rfl := tracks.wellFormed.eq_of_index_eq (List.mem_of_find?_eq_some first) present own
        obtain ⟨key, before, after, split, others⟩ := List.find?_eq_some_iff_append.mp first
        obtain ⟨failed, failedIn, isFailed, sameFile, samePid⟩ :=
          ambiguous ((event.sharesKey_iff found).mp key).2
        have earlier := tracks.wellFormed.failedFirst failed failedIn found present isFailed isOpen
          sameFile
        have sorted := tracks.wellFormed.sorted
        rw [split] at failedIn sorted
        rcases List.mem_append.mp failedIn with inBefore | rest
        · have shares := (event.sharesKey_iff failed).mpr ⟨sameFile.trans same, samePid⟩
          have unmatched := others failed inBefore
          rw [shares] at unmatched
          exact absurd unmatched (by decide)
        · rcases List.mem_cons.mp rest with rfl | inAfter
          · exact absurd isOpen isFailed
          · have later := List.rel_of_pairwise_cons (List.pairwise_append.mp sorted).2.1 inAfter
            exact absurd later (Nat.lt_asymm earlier)
      · rw [returned_onlyCall_other replay own]
        decide

theorem Tracks.usesOwnDescriptor {env : Environment} {gflags : Nat} {session : ReplaySession}
    {event : FileEvent} (tracks : session.Tracks env)
    (unambiguous : session.workload.Unambiguous event) (fits : session.ReadFits env event) :
    session.UsesOwnDescriptor env gflags event := by
  intro use file present isOpen same
  obtain ⟨replay, going, tracked⟩ := tracks
  obtain ⟨next, replayed⟩ := event.exists_replay env gflags replay (fits replay going)
  refine ⟨replay, going, fun _ => ⟨next, replayed, ?_⟩⟩
  rw [FileEvent.descriptor_replay use replayed,
    tracked.lookup_of_unambiguous unambiguous use present isOpen same]

/-- In a system where the open of the file has returned 3, a use of it is survived and made on
3. -/
theorem Tracks.lookup_of_uses {env : Environment} {gflags : Nat} {session : ReplaySession}
    {event : FileEvent} {file : TracedFile} (tracks : session.Tracks env)
    (answer : ∀ syscall, env.answer file.index syscall = 3)
    (present : file ∈ session.workload.files) (isOpen : file.isOpen)
    (same : file.file = event.file) (use : event.call.IsUse)
    (uses : session.UsesOwnDescriptor env gflags event) :
    ∃ replay, session.replay = some replay ∧ replay.Tracks env session.workload ∧
      event.Fits env replay ∧ event.lookup replay = 3 := by
  obtain ⟨replay, going, tracked⟩ := tracks
  obtain ⟨also, stillGoing, right⟩ := uses use file present isOpen same
  obtain rfl : replay = also := Option.some.inj (going.symm.trans stillGoing)
  have made := tracked.wellFormed.below file present
  rw [← tracked.count] at made
  have returned := returned_of_answer made answer
  obtain ⟨next, replayed, descriptor⟩ := right (by rw [returned]; decide)
  rw [FileEvent.descriptor_replay use replayed, returned, Option.some.injEq] at descriptor
  have survived := (event.isSome_replay_iff env gflags replay).mp (by rw [replayed]; rfl)
  exact ⟨replay, going, tracked, survived, descriptor⟩

theorem Tracks.unambiguous_of_uses {gflags : Nat} {session : ReplaySession} {event : FileEvent}
    {file : TracedFile} (tracks : session.Tracks (onlyCall file.index))
    (present : file ∈ session.workload.files) (isOpen : file.isOpen)
    (same : file.file = event.file) (use : event.call.IsUse)
    (uses : session.UsesOwnDescriptor (onlyCall file.index) gflags event) :
    session.workload.Unambiguous event := by
  intro _
  obtain ⟨replay, -, tracked, -, right⟩ :=
    tracks.lookup_of_uses (fun _ => if_pos rfl) present isOpen same use uses
  by_contra ambiguous
  refine lookup_of_ambiguous tracked present isOpen (fun samePid => ?_) same right
  by_contra! noFailure
  refine ambiguous ⟨?_, ?_⟩
  · intro other otherIn otherOpen otherSame
    rw [tracked.wellFormed.unique other otherIn file present otherOpen isOpen
      (otherSame.trans same.symm), samePid]
  · intro failed failedIn isFailed sameFile
    exact noFailure failed failedIn isFailed (sameFile.trans same.symm)

/-- A read that may return more than the buffer holds is not survived in every system. -/
theorem Tracks.asksForRoom_of_uses {gflags : Nat} {session : ReplaySession} {event : FileEvent}
    {file : TracedFile} (tracks : session.Tracks (readingAll file.index))
    (present : file ∈ session.workload.files) (isOpen : file.isOpen)
    (same : file.file = event.file) (use : event.call.IsUse)
    (uses : session.UsesOwnDescriptor (readingAll file.index) gflags event) :
    event.call.AsksForRoom := by
  obtain ⟨replay, -, tracked, fits, -⟩ :=
    tracks.lookup_of_uses (fun _ => if_pos rfl) present isOpen same use uses
  have later : replay.calls.length ≠ file.index := by
    rw [tracked.count]
    exact (tracked.wellFormed.below file present).ne'
  unfold FileEvent.Fits at fits
  cases call : event.call with
  | read name count ppos ret =>
      simp only [call, Environment.ReadFits, readingAll, if_neg later, min_self] at fits
      exact_mod_cast fits
  | _ => trivial

section Along

variable {env : Environment} {gflags : Nat} {events : List FileEvent}

theorem along_readFits_of_asksForRoom (small : ∀ event ∈ events, event.call.AsksForRoom) :
    Along (ReplaySession.step env gflags) (ReadFits env) ReplaySession.start events := by
  refine along_of_forall_mem fun event member session replay _ => ?_
  exact event.fits_of_asksForRoom env replay (small event member)

theorem along_usesOwnDescriptor
    (possible : Along Workload.step Workload.Admits Workload.start events)
    (unambiguous : Along Workload.step Workload.Unambiguous Workload.start events)
    (fits : Along (ReplaySession.step env gflags) (ReadFits env) ReplaySession.start events) :
    Along (ReplaySession.step env gflags) (UsesOwnDescriptor env gflags) ReplaySession.start
      events := by
  induction events using List.reverseRecOn with
  | nil => trivial
  | append_singleton events event inductionHypothesis =>
      rw [along_append_singleton] at possible unambiguous fits ⊢
      refine ⟨inductionHypothesis possible.1 unambiguous.1 fits.1, ?_⟩
      have tracks := tracks_run env gflags events possible.1 unambiguous.1 fits.1
      apply tracks.usesOwnDescriptor _ fits.2
      rw [workload_run]
      exact unambiguous.2

theorem along_readFits_onlyCall (index : Nat) :
    Along (ReplaySession.step (onlyCall index) gflags) (ReadFits (onlyCall index))
      ReplaySession.start events :=
  along_of_forall_mem fun event _ session => readFits_onlyCall index session event

/-- The systems in which one call succeeds are enough to find an ambiguous call. -/
theorem along_unambiguous
    (possible : Along Workload.step Workload.Admits Workload.start events)
    (uses : ∀ index, Along (ReplaySession.step (onlyCall index) gflags)
      (UsesOwnDescriptor (onlyCall index) gflags) ReplaySession.start events) :
    Along Workload.step Workload.Unambiguous Workload.start events := by
  induction events using List.reverseRecOn with
  | nil => trivial
  | append_singleton events event inductionHypothesis =>
      simp only [along_append_singleton, forall_and] at possible uses ⊢
      have unambiguous := inductionHypothesis possible.1 uses.1
      refine ⟨unambiguous, fun use => ?_⟩
      obtain ⟨file, present, isOpen, same⟩ := possible.2.of_use use
      have tracks := tracks_run (onlyCall file.index) gflags events possible.1 unambiguous
        (along_readFits_onlyCall file.index)
      have aware := tracks.unambiguous_of_uses (by rw [workload_run]; exact present) isOpen same
        use (uses.2 file.index)
      rw [workload_run] at aware
      exact aware use

/-- Those in which the reads succeed too are enough to find one that asks for too much. -/
theorem forall_asksForRoom
    (possible : Along Workload.step Workload.Admits Workload.start events)
    (unambiguous : Along Workload.step Workload.Unambiguous Workload.start events)
    (uses : ∀ index, Along (ReplaySession.step (readingAll index) gflags)
      (UsesOwnDescriptor (readingAll index) gflags) ReplaySession.start events) :
    ∀ event ∈ events, event.call.AsksForRoom := by
  induction events using List.reverseRecOn with
  | nil => simp
  | append_singleton events event inductionHypothesis =>
      simp only [along_append_singleton, forall_and] at possible unambiguous uses
      have earlier := inductionHypothesis possible.1 unambiguous.1 uses.1
      simp only [List.forall_mem_append, List.forall_mem_singleton]
      refine ⟨earlier, ?_⟩
      by_cases use : event.call.IsUse
      · obtain ⟨file, present, isOpen, same⟩ := possible.2.of_use use
        have tracks := tracks_run (readingAll file.index) gflags events possible.1 unambiguous.1
          (along_readFits_of_asksForRoom earlier)
        exact tracks.asksForRoom_of_uses (by rw [workload_run]; exact present) isOpen same use
          (uses.2 file.index)
      · exact FileCall.asksForRoom_of_not_isUse use

end Along

end ReplaySession

/-- Every use is replayed on the descriptor of its own file, in every system in
which no read of the replay returns more than `MAX_BYTES` bytes, exactly when the
workload is unambiguous throughout; and in every system at all exactly when besides
no read asks for more. -/
theorem usesOwnDescriptor_along_iff (workload : TracedWorkload) (gflags : Nat) :
    ((∀ env,
        Along (ReplaySession.step env gflags) (ReplaySession.ReadFits env) ReplaySession.start
          workload.events →
        Along (ReplaySession.step env gflags) (ReplaySession.UsesOwnDescriptor env gflags)
          ReplaySession.start workload.events) ↔
      Along Workload.step Workload.Unambiguous Workload.start workload.events) ∧
    ((∀ env, Along (ReplaySession.step env gflags) (ReplaySession.UsesOwnDescriptor env gflags)
        ReplaySession.start workload.events) ↔
      Along Workload.step Workload.Unambiguous Workload.start workload.events ∧
        ∀ event ∈ workload.events, event.call.AsksForRoom) := by
  refine ⟨⟨fun uses => ?_, fun unambiguous env fits => ?_⟩, fun uses => ?_, ?_⟩
  · exact ReplaySession.along_unambiguous workload.possible fun index =>
      uses _ (ReplaySession.along_readFits_onlyCall index)
  · exact ReplaySession.along_usesOwnDescriptor workload.possible unambiguous fits
  · have unambiguous := ReplaySession.along_unambiguous workload.possible fun index => uses _
    exact ⟨unambiguous, ReplaySession.forall_asksForRoom workload.possible unambiguous
      fun index => uses _⟩
  · rintro ⟨unambiguous, small⟩ env
    exact ReplaySession.along_usesOwnDescriptor workload.possible unambiguous
      (ReplaySession.along_readFits_of_asksForRoom small)

/-- A call of the file at address 1 by a task, its record alone on a page. -/
def callAtOne (call : FileCall) (pid : BitVec 32) : FileEvent :=
  ⟨call, 1, pid, 2, fun _ => 0, fun _ => 0, 0⟩

theorem readByChild_possible :
    Along Workload.step Workload.Admits Workload.start
      [callAtOne (.openFile Name.a 0 0 0) 1, callAtOne (.read Name.a 1 1 1) 2] := by
  simp [callAtOne, Along, Workload.Admits, Workload.step, Workload.start]

/-- A task opens a file, and its child reads from it. -/
def readByChild : TracedWorkload := ⟨_, readByChild_possible⟩

theorem reuseAfterFailure_possible :
    Along Workload.step Workload.Admits Workload.start
      [callAtOne (.openFile Name.a 0 0 (-2)) 1, callAtOne (.openFile Name.a 0 0 0) 1,
        callAtOne (.close Name.a 0) 1] := by
  simp [callAtOne, Along, Workload.Admits, Workload.step, Workload.start]

/-- The open of a file fails, and the next one gets the same address. -/
def reuseAfterFailure : TracedWorkload := ⟨_, reuseAfterFailure_possible⟩

/-- The replay in a system where only the call numbered `index` succeeds. -/
abbrev ReplaySession.stepOnly (index : Nat) : ReplaySession → FileEvent → ReplaySession :=
  ReplaySession.step (onlyCall index) 0

/-- The child's read is replayed on descriptor -1, and so is the close of the
file whose address was used before. -/
theorem not_usesOwnDescriptor_shared :
    (run (ReplaySession.stepOnly 0) .start readByChild.events).replay.bind (·.calls.getLast?) =
        some (.read (-1) 1) ∧
      (run (ReplaySession.stepOnly 1) .start reuseAfterFailure.events).replay.bind
          (·.calls.getLast?) = some (.close (-1)) ∧
      ¬ Along (ReplaySession.stepOnly 0)
        (ReplaySession.UsesOwnDescriptor (ReplaySession.onlyCall 0) 0) .start readByChild.events ∧
      ¬ Along (ReplaySession.stepOnly 1)
        (ReplaySession.UsesOwnDescriptor (ReplaySession.onlyCall 1) 0) .start
        reuseAfterFailure.events := by
  refine ⟨by decide, by decide, ?_, ?_⟩
  · rintro ⟨-, uses, -⟩
    obtain ⟨replay, going, right⟩ := uses trivial ⟨1, 1, 0, true⟩ (by decide) rfl rfl
    cases going
    obtain ⟨next, replayed, descriptor⟩ := right (by decide)
    cases replayed
    revert descriptor
    decide
  · rintro ⟨-, -, uses, -⟩
    obtain ⟨replay, going, right⟩ := uses trivial ⟨1, 1, 1, true⟩ (by decide) rfl rfl
    cases going
    obtain ⟨next, replayed, descriptor⟩ := right (by decide)
    cases replayed
    revert descriptor
    decide

end Tracefs
