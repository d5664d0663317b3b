import Tracefs.Replay.Descriptors
import Tracefs.Replay.Execution
import Tracefs.Replay.Reports

/-!
# Workloads on a file system

A workload runs on a file system and leaves its records; treplay runs on a file system too.  The
file system is any deterministic one.  Workload and treplay have descriptors of their own, so calls
are compared by the call that opened their file.  A record tells less than the call it was made for:
the last component of a path, the mode of the open file instead of that of the call, and nothing of
the place of a transfer.  So the calls of the workload are its own, and it is a condition on them
that the call of the record would have done the same.
-/

namespace Tracefs

open Bytes Transition

/-! ## The system underneath -/

/-- A deterministic file system and the way a process gets its descriptors.  In the calls that
`perform` sees, a descriptor is replaced by the number of the call that opened the file.  An open
that succeeds returns zero in the kernel.  A process may have up to `limit` files open. -/
structure Host (Fs : Type) where
  perform : Fs → Syscall → Fs × CallOutcome
  opens : ∀ fs path flags mode value bounded,
    (perform fs (.openFile path flags mode)).2 = .ok value bounded → value = 0
  limit : Nat
  allocate : List (Int × Nat) → Option Int
  room : ∀ table, table.length < limit → (allocate table).isSome
  free : ∀ table fd, allocate table = some fd → table.lookup fd = none ∧ 0 ≤ fd ∧ fd < 2 ^ 31

/-- What the kernel returns, and the hooks record. -/
def CallOutcome.kernel : CallOutcome → Int
  | ok value _ => value
  | failed errno _ => -errno

/-- The file system, the descriptors of treplay with the calls that opened them, and the number of
calls it has made. -/
structure HostState (Fs : Type) where
  fs : Fs
  table : List (Int × Nat)
  count : Nat

namespace Host

variable {Fs : Type} (host : Host Fs)

/-- A call with its descriptor replaced.  There is none when the descriptor is not open, and when
an open finds no descriptor that is free. -/
def canonical (table : List (Int × Nat)) : Syscall → Option Syscall
  | .read fd count => (table.lookup fd).map fun opened : Nat => .read opened count
  | .write fd data => (table.lookup fd).map fun opened : Nat => .write opened data
  | .close fd => (table.lookup fd).map fun opened : Nat => .close opened
  | .openFile path flags mode => (host.allocate table).map fun _ => .openFile path flags mode
  | syscall => some syscall

def tableAfter (state : HostState Fs) (outcome : CallOutcome) : Syscall → List (Int × Nat)
  | .openFile .. =>
      match outcome, host.allocate state.table with
      | .ok .., some fd => (fd, state.count) :: state.table
      | _, _ => state.table
  | .close fd => state.table.filter fun entry => entry.1 ≠ fd
  | _ => state.table

def answer (table : List (Int × Nat)) (outcome : CallOutcome) : Syscall → Int
  | .openFile .. =>
      match outcome with
      | .ok .. => (host.allocate table).getD (-1)
      | .failed .. => -1
  | _ => outcome.libc

/-- A call of treplay and what libc returns for it; `EBADF` or `EMFILE` for a call that the file
system does not see. -/
def step (state : HostState Fs) (syscall : Syscall) : HostState Fs × Int :=
  match host.canonical state.table syscall with
  | none => ({ state with count := state.count + 1 }, -1)
  | some call =>
      let ended := host.perform state.fs call
      (⟨ended.1, host.tableAfter state ended.2 syscall, state.count + 1⟩,
        host.answer state.table ended.2 syscall)

def next (state : HostState Fs) (syscall : Syscall) : HostState Fs := (host.step state syscall).1

/-- The system after some calls of treplay, which started on the file system `fs`. -/
def after (fs : Fs) (calls : List Syscall) : HostState Fs := run host.next ⟨fs, [], 0⟩ calls

/-- The calls were answered by this system. -/
def Serves (env : Environment) (fs : Fs) (calls : List Syscall) : Prop :=
  Along host.next
    (fun state syscall => env.answer state.count syscall = (host.step state syscall).2)
    ⟨fs, [], 0⟩ calls

@[simp] theorem after_concat (fs : Fs) (calls : List Syscall) (syscall : Syscall) :
    host.after fs (calls ++ [syscall]) = host.next (host.after fs calls) syscall :=
  run_append_singleton _ _ _ _

theorem count_next (state : HostState Fs) (syscall : Syscall) :
    (host.next state syscall).count = state.count + 1 := by
  rw [next, step]
  split <;> rfl

theorem count_after (fs : Fs) (calls : List Syscall) :
    (host.after fs calls).count = calls.length := by
  induction calls using List.reverseRecOn with
  | nil => rfl
  | append_singleton calls syscall inductionHypothesis =>
      rw [after_concat, count_next, inductionHypothesis, List.length_append, List.length_singleton]

theorem Serves.answer {host : Host Fs} {env : Environment} {fs : Fs} {calls later : List Syscall}
    {syscall : Syscall} (serves : host.Serves env fs (calls ++ syscall :: later)) :
    env.answer calls.length syscall = (host.step (host.after fs calls) syscall).2 := by
  obtain ⟨-, answered, -⟩ := (along_append _ _ _ _ _).mp serves
  rw [← host.count_after fs calls]
  exact answered

theorem step_of_canonical {state : HostState Fs} {syscall call : Syscall}
    (same : host.canonical state.table syscall = some call) :
    host.step state syscall =
      (⟨(host.perform state.fs call).1,
          host.tableAfter state (host.perform state.fs call).2 syscall, state.count + 1⟩,
        host.answer state.table (host.perform state.fs call).2 syscall) := by
  rw [step, same]

end Host

/-! ## The traced workload -/

/-- The number of the call that opened a file. -/
def Workload.opened (workload : Workload) (file : BitVec 64) : Int :=
  ((workload.files.find? fun traced => traced.isOpen ∧ traced.file = file).map
    fun traced => (traced.index : Int)).getD (-1)

/-- The call that a record tells of, as the file system sees it. -/
def TracedCall.made (workload : Workload) (call : TracedCall) : Option Syscall :=
  call.callOn workload.opened

/-- A record of a call on a file, seen as such. -/
def TraceRecord.fileEvent? (record : TraceRecord) : Option FileEvent :=
  match record.call with
  | .openFile name flags mode file ret =>
      some ⟨.openFile name flags mode ret, file, record.pid, record.rId, record.heap, fun _ => 0, 0⟩
  | .read name count ppos file ret =>
      some ⟨.read name count ppos ret, file, record.pid, record.rId, record.heap, fun _ => 0, 0⟩
  | .write name buf ppos file ret =>
      some ⟨.write name buf ppos ret, file, record.pid, record.rId, record.heap, fun _ => 0, 0⟩
  | .close name file ret =>
      some ⟨.close name ret, file, record.pid, record.rId, record.heap, fun _ => 0, 0⟩
  | _ => none

theorem TraceRecord.pid_of_fileEvent {record : TraceRecord} {event : FileEvent}
    (isEvent : record.fileEvent? = some event) : event.pid = record.pid := by
  obtain ⟨call, pid, rId, heap⟩ := record
  cases call <;> cases isEvent <;> rfl

/-- Two descriptors for the file of a call: one by its number, one that the table takes to it. -/
theorem canonical_callOn {Fs : Type} {host : Host Fs} {record : TraceRecord}
    {table : List (Int × Nat)} {first second : BitVec 64 → Int}
    (room : ∀ event, record.fileEvent? = some event → ¬ event.call.IsUse →
      (host.allocate table).isSome)
    (agree : ∀ event, record.fileEvent? = some event → event.call.IsUse →
      ∃ index : Nat, table.lookup (first event.file) = some index ∧ second event.file = index) :
    (record.call.callOn first).bind (host.canonical table) = record.call.callOn second := by
  obtain ⟨call, pid, rId, heap⟩ := record
  cases call with
  | read | write | close =>
      obtain ⟨index, found, number⟩ := agree _ rfl trivial
      simp only [TracedCall.callOn, Option.bind_some, Host.canonical, found, number,
        Option.map_some]
  | openFile =>
      obtain ⟨fd, free⟩ := Option.isSome_iff_exists.mp (room _ rfl id)
      simp only [TracedCall.callOn, Option.bind_some, Host.canonical, free, Option.map_some]
  | mkdir | rmdir | unlink | link | symlink | rename | mknod | setxattr | getxattr
  | listxattr | removexattr => rfl

/-- The files of the workload after a record; every record counts. -/
def Workload.record (workload : Workload) (record : TraceRecord) : Workload :=
  match record.fileEvent? with
  | some event => workload.step event
  | none => { workload with count := workload.count + 1 }

def Workload.openCount (workload : Workload) : Nat := workload.files.countP TracedFile.isOpen

/-- A call of the workload, and the record that its hook has handed over, if it has one. -/
structure WorkloadCall (Call : Type) where
  call : Call
  record : Option ReplayableRecord

/-- The file system during the traced run, and the files that are open. -/
structure Tracing (Fs : Type) where
  fs : Fs
  workload : Workload

namespace Tracing

variable {Fs Call : Type} (host : Host Fs) (perform : Fs → Call → Fs × CallOutcome)

def start (fs : Fs) : Tracing Fs := ⟨fs, Workload.start⟩

/-- The workload makes its call, and the files that are open are those of the records. -/
def step (tracing : Tracing Fs) (made : WorkloadCall Call) : Tracing Fs where
  fs := (perform tracing.fs made.call).1
  workload :=
    match made.record with
    | some record => tracing.workload.record record.record
    | none => tracing.workload

/-- The record tells of a call that would have done here what the call of the workload does, and
how that ended.  A file is used by the task that opened it, no more files are open than treplay may
have, the names survive what the handlers do to them, and the buffers of the handlers are large
enough; `p1` is what the local array of treplay holds. -/
structure Tells (p1 : Nat → Memory) (tracing : Tracing Fs) (call : Call)
    (record : ReplayableRecord) : Prop where
  made : ∃ syscall, record.record.call.made tracing.workload = some syscall ∧
    perform tracing.fs call = host.perform tracing.fs syscall
  ret : record.record.call.ret.toInt = (perform tracing.fs call).2.kernel
  files : ∀ event, record.record.fileEvent? = some event →
    tracing.workload.Admits event ∧ tracing.workload.Unambiguous event
  room : ∀ event, record.record.fileEvent? = some event → ¬ event.call.IsUse →
    tracing.workload.openCount < host.limit
  names : NamesSurvive (p1 tracing.workload.count) record.record.call
  buffers : FitsBuffers record.record.call

/-- A call that is not recorded changes nothing. -/
def Records (p1 : Nat → Memory) (tracing : Tracing Fs) (made : WorkloadCall Call) : Prop :=
  match made.record with
  | some record => tracing.Tells host perform p1 made.call record
  | none => (perform tracing.fs made.call).1 = tracing.fs

end Tracing

/-! ## One record -/

/-- What is reported for a call that ends as recorded: the results are compared as they are, so a
failure passes for the same one only if its number is that of `EPERM`, and a write is taken to have
succeeded when all bytes were written. -/
def TracedCall.reported : TracedCall → Option Bool
  | openFile .. | close .. => none
  | write _ buf _ _ ret => some (ret.toInt = buf.bytes.length)
  | call => some (-1 ≤ call.ret.toInt)

namespace CallOutcome

theorem libc_eq_kernel_iff (outcome : CallOutcome) :
    outcome.libc = outcome.kernel ↔ -1 ≤ outcome.kernel := by
  cases outcome with
  | ok value _ =>
      simp only [libc, kernel, true_iff]
      omega
  | failed errno positive =>
      simp only [libc, kernel]
      omega

/-- Compared with the count as a `size_t`, a failure is none of the counts there are. -/
theorem libc_mod_eq_iff (outcome : CallOutcome) {count : Nat} (bounded : count < 2 ^ 31) :
    outcome.libc % 2 ^ 64 = count ↔ outcome.kernel = count := by
  cases outcome with
  | ok value small =>
      simp only [libc, kernel]
      omega
  | failed errno positive =>
      simp only [libc, kernel]
      omega

end CallOutcome

/-- The verdict of the handler on a call that the system has ended as recorded. -/
theorem TracedCall.verdict_libc {call : TracedCall} {outcome : CallOutcome}
    (recorded : call.ret.toInt = outcome.kernel) (compares : call.kind ≠ .openFile) :
    call.verdict outcome.libc = call.reported := by
  cases call with
  | openFile => exact absurd rfl compares
  | close => rfl
  | write name buf ppos file ret =>
      have bounded : buf.bytes.length < 2 ^ 31 := buf.bounded.trans_lt (by decide)
      simp only [verdict, reported, CallOutcome.toInt32_libc, outcome.libc_mod_eq_iff bounded]
      rw [← recorded]
      rfl
  | read | mkdir | rmdir | unlink | link | symlink | mknod | rename | setxattr | getxattr
  | listxattr | removexattr =>
      simp only [verdict, reported, CallOutcome.toInt32_libc, toInt32_toNat, recorded,
        outcome.libc_eq_kernel_iff]

namespace Workload

variable {workload : Workload} {event : FileEvent}

/-- The number under which the file system knows an open file. -/
theorem WellFormed.opened_eq (wellFormed : workload.WellFormed) {file : TracedFile}
    (present : file ∈ workload.files) (isOpen : file.isOpen) :
    workload.opened file.file = file.index := by
  have some_ : (workload.files.find?
      fun traced => traced.isOpen ∧ traced.file = file.file).isSome := by
    simpa using ⟨file, present, isOpen, rfl⟩
  obtain ⟨other, first⟩ := Option.isSome_iff_exists.mp some_
  have found := List.find?_some first
  rw [decide_eq_true_iff] at found
  rw [Workload.opened, first, wellFormed.unique other (List.mem_of_find?_eq_some first) file present
    found.1 isOpen found.2]
  rfl

/-- A file is gone once it is closed. -/
theorem WellFormed.not_mem_eraseP (wellFormed : workload.WellFormed) {file : TracedFile}
    (present : file ∈ workload.files) (isOn : event.isOn file) :
    file ∉ workload.files.eraseP event.isOn := by
  obtain ⟨isOpen, same⟩ := (event.isOn_iff file).mp isOn
  obtain ⟨other, before, later, -, otherOn, split, erased⟩ := List.exists_of_eraseP present isOn
  obtain ⟨otherOpen, otherSame⟩ := (event.isOn_iff other).mp otherOn
  have otherIn : other ∈ workload.files := by simp [split]
  obtain rfl := wellFormed.unique other otherIn file present otherOpen isOpen
    (otherSame.trans same.symm)
  have sorted := wellFormed.sorted
  rw [split, List.pairwise_append] at sorted
  obtain ⟨-, rest, across⟩ := sorted
  rw [erased, List.mem_append]
  rintro (earlier | after)
  · exact Nat.lt_irrefl _ (across other earlier other (by simp))
  · exact Nat.lt_irrefl _ (List.rel_of_pairwise_cons rest after)

end Workload

theorem lookup_filter_ne {Key Value : Type} [DecidableEq Key] {key other : Key}
    (different : key ≠ other) (table : List (Key × Value)) :
    (table.filter fun entry => entry.1 ≠ other).lookup key = table.lookup key := by
  induction table with
  | nil => rfl
  | cons entry table inductionHypothesis =>
      obtain ⟨first, value⟩ := entry
      by_cases dropped : first = other
      · have unlike : (key == first) = false := by simp [dropped, different]
        rw [List.filter_cons_of_neg (by simp [dropped]), inductionHypothesis, List.lookup_cons,
          unlike]
      · rw [List.filter_cons_of_pos (by simp [dropped]), List.lookup_cons, List.lookup_cons,
          inductionHypothesis]

namespace Environment

variable (env : Environment) {replay next : Replay} {syscall : Syscall}

/-- A further call does not change what the earlier ones returned. -/
theorem returned_of_concat (calls : next.calls = replay.calls ++ [syscall]) {index : Nat}
    (earlier : index < replay.calls.length) :
    env.returned next index = env.returned replay index := by
  rw [returned, calls, List.getElem?_append_left earlier, returned]

theorem returned_last (calls : next.calls = replay.calls ++ [syscall]) :
    env.returned next replay.calls.length =
      toInt32 (env.answer replay.calls.length syscall) := by
  rw [returned, calls, List.getElem?_concat_length]

end Environment

/-- The state in which a call leaves treplay that goes on. -/
def TracedCall.settled (call : TracedCall) (env : Environment) (pid : BitVec 32) (syscall : Syscall)
    (state : Replay) : Replay where
  omap := call.omapAfter pid (env.answer state.calls.length syscall) state.omap
  calls := state.calls ++ [syscall]
  reports := state.reports ++ (call.verdict (env.answer state.calls.length syscall)).toList

@[inherit_doc TracedCall.settled]
def ReplayableRecord.settled (env : Environment) (replayable : ReplayableRecord)
    (syscall : Syscall) (state : Replay) : Replay :=
  replayable.record.call.settled env replayable.record.pid syscall state

/-- A read that asks for no more than the buffer holds never leaves it. -/
theorem TracedCall.readFits_of_fitsBuffers {call : TracedCall} (fits : FitsBuffers call)
    {pid : BitVec 32} {omap : List OmapNode} {syscall : Syscall}
    (issued : call.issued pid omap = some syscall) (env : Environment) (tick : Nat) (fd : Int)
    (count : Nat) (isRead : syscall = .read fd count) : env.ReadFits tick fd count := by
  subst isRead
  cases call with
  | read =>
      cases issued
      exact env.readFits_of_count _ _ fits
  | openFile | write | close | mkdir | rmdir | unlink | link | symlink | mknod | rename
  | setxattr | getxattr | listxattr | removexattr => cases issued

/-- Replaying the call settles its state; treplay goes on unless a strict comparison failed. -/
theorem TracedCall.replay_eq_settled {call : TracedCall} {env : Environment} {state : Replay}
    (gflags : Nat) {pid : BitVec 32} {syscall : Syscall}
    (issued : call.issued pid state.omap = some syscall)
    (survive : NamesSurvive (env.p1 state.calls.length) call) (fits : FitsBuffers call) :
    call.replay env gflags pid state =
      if gflags = 2 ∧ call.verdict (env.answer state.calls.length syscall) = some false then
        .exited (call.settled env pid syscall state)
      else .returned (call.settled env pid syscall state) := by
  rw [replay_eq_settle gflags issued survive (readFits_of_fitsBuffers fits issued env _), settled]
  cases call.verdict (env.answer state.calls.length syscall) with
  | none => simp [settle]
  | some same =>
      cases same with
      | true => simp [settle, mapRetval]
      | false => by_cases strict : gflags = 2 <;> simp [settle, mapRetval, strict]

/-- Seen as a call on a file, a record is replayed as its call is. -/
theorem TraceRecord.replay_fileEvent {record : TraceRecord} {event : FileEvent}
    (isEvent : record.fileEvent? = some event) (env : Environment) (gflags : Nat)
    (state : Replay) :
    event.replay env gflags state = (record.call.replay env gflags record.pid state).state? := by
  have run (known : record.call.kind ≠ .mknod) :=
    congrArg Outcome.state? (record.run_onPage known env gflags (fun _ => 0) 0 state)
  obtain ⟨call, pid, rId, heap⟩ := record
  cases call with
  | openFile | read | write | close =>
      cases isEvent
      exact run nofun
  | mkdir | rmdir | unlink | link | symlink | mknod | rename | setxattr | getxattr | listxattr
  | removexattr => cases isEvent

/-- The list `omap` follows the workload, whatever is recorded. -/
theorem Replay.Tracks.record {env : Environment} {replay : Replay} {workload : Workload}
    (tracks : replay.Tracks env workload) {record : TraceRecord}
    (files : ∀ event, record.fileEvent? = some event →
      workload.Admits event ∧ workload.Unambiguous event) {syscall : Syscall}
    (issued : record.call.issued record.pid replay.omap = some syscall)
    (survive : NamesSurvive (env.p1 replay.calls.length) record.call)
    (fits : FitsBuffers record.call) :
    (record.call.settled env record.pid syscall replay).Tracks env (workload.record record) := by
  cases isEvent : record.fileEvent? with
  | none =>
      have sameOmap : (record.call.settled env record.pid syscall replay).omap = replay.omap := by
        obtain ⟨call, pid, rId, heap⟩ := record
        cases call <;> first | rfl | cases isEvent
      rw [Workload.record, isEvent]
      refine ⟨⟨?_, tracks.wellFormed.sorted, tracks.wellFormed.unique,
        tracks.wellFormed.failedFirst⟩, ?_, ?_⟩
      · intro file present
        exact Nat.lt_succ_of_lt (tracks.wellFormed.below file present)
      · exact List.length_append.trans (congrArg (· + 1) tracks.count)
      · rw [sameOmap, tracks.omap]
        apply List.map_congr_left
        intro file present
        have earlier : file.index < replay.calls.length :=
          tracks.count ▸ tracks.wellFormed.below file present
        have calls : (record.call.settled env record.pid syscall replay).calls =
            replay.calls ++ [syscall] := rfl
        simp only [TracedFile.node, env.returned_of_concat calls earlier]
  | some event =>
      obtain ⟨admits, unambiguous⟩ := files event isEvent
      have replayed : event.replay env 0 replay =
          some (record.call.settled env record.pid syscall replay) := by
        rw [TraceRecord.replay_fileEvent isEvent,
          TracedCall.replay_eq_settled 0 issued survive fits]
        simp [Outcome.state?]
      rw [Workload.record, isEvent]
      exact tracks.step admits unambiguous replayed

end Tracefs
