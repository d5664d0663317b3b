import Tracefs.Replay.Host

/-!
# Reproducing a workload

The purpose of treplay: a workload that was traced on a file system is to happen again.  The
invariant relates the replay, the file system it runs on and the traced run record by record; in the
end treplay has left the file system as the workload had.
-/

namespace Tracefs

open Bytes Transition

/-- The replay has done to the file system what the workload had done, and each file that is open in
the workload is open in treplay, under the descriptor that its open returned. -/
structure Mirrors {Fs : Type} (host : Host Fs) (env : Environment) (origin : Fs) (replay : Replay)
    (tracing : Tracing Fs) : Prop where
  tracks : replay.Tracks env tracing.workload
  fs : (host.after origin replay.calls).fs = tracing.fs
  opened : ∀ file ∈ tracing.workload.files, file.isOpen →
    (host.after origin replay.calls).table.lookup (env.returned replay file.index) =
      some file.index
  atMost : (host.after origin replay.calls).table.length ≤ tracing.workload.openCount

namespace Mirrors

variable {Fs Call : Type} {host : Host Fs} {perform : Fs → Call → Fs × CallOutcome}
  {env : Environment} {origin : Fs} {replay : Replay} {tracing : Tracing Fs} {made : Call}
  {record : ReplayableRecord}

theorem start : Mirrors host env origin ⟨[], [], []⟩ (Tracing.start origin) where
  tracks := .start
  fs := rfl
  opened := by simp [Tracing.start, Workload.start]
  atMost := Nat.zero_le _

/-- A use of a file is replayed on a descriptor that stands for the file. -/
theorem lookup_event (mirrors : Mirrors host env origin replay tracing) {event : FileEvent}
    (admits : tracing.workload.Admits event) (unambiguous : tracing.workload.Unambiguous event)
    (use : event.call.IsUse) :
    ∃ file ∈ tracing.workload.files, file.isOpen ∧ file.file = event.file ∧
      event.lookup replay = env.returned replay file.index ∧
      (host.after origin replay.calls).table.lookup (event.lookup replay) =
        some file.index ∧ tracing.workload.opened event.file = file.index := by
  obtain ⟨file, present, isOpen, same⟩ := admits.of_use use
  have found : event.lookup replay = env.returned replay file.index :=
    mirrors.tracks.lookup_of_unambiguous unambiguous use present isOpen same
  refine ⟨file, present, isOpen, same, found, ?_, ?_⟩
  · rw [found]
    exact mirrors.opened file present isOpen
  · rw [← same]
    exact mirrors.tracks.wellFormed.opened_eq present isOpen

/-- The call that treplay makes is the one that the record tells of. -/
theorem canonical_issued (mirrors : Mirrors host env origin replay tracing)
    (tells : tracing.Tells host perform env.p1 made record) {call : Syscall}
    (told : record.record.call.made tracing.workload = some call) :
    ∃ syscall, record.record.call.issued record.record.pid replay.omap = some syscall ∧
      host.canonical (host.after origin replay.calls).table syscall = some call := by
  have same : (record.record.call.issued record.record.pid replay.omap).bind
      (host.canonical (host.after origin replay.calls).table) =
        record.record.call.made tracing.workload := by
    apply canonical_callOn
    · intro event isEvent use
      exact host.room _ (mirrors.atMost.trans_lt (tells.room event isEvent use))
    intro event isEvent use
    obtain ⟨admits, unambiguous⟩ := tells.files event isEvent
    obtain ⟨file, -, -, -, -, found, opened⟩ := mirrors.lookup_event admits unambiguous use
    rw [FileEvent.lookup, TraceRecord.pid_of_fileEvent isEvent] at found
    exact ⟨file.index, found, opened⟩
  exact Option.bind_eq_some_iff.mp (same.trans told)

section Step

variable {syscall call : Syscall}

theorem fs_next (mirrors : Mirrors host env origin replay tracing)
    (same : host.canonical (host.after origin replay.calls).table syscall = some call) :
    (host.next (host.after origin replay.calls) syscall).fs =
      (host.perform tracing.fs call).1 := by
  simp only [Host.next, host.step_of_canonical same, mirrors.fs]

/-- An open file keeps its descriptor as long as the table keeps the entry. -/
theorem opened_next (mirrors : Mirrors host env origin replay tracing)
    (same : host.canonical (host.after origin replay.calls).table syscall = some call)
    {next : Replay} (calls : next.calls = replay.calls ++ [syscall]) {file : TracedFile}
    (present : file ∈ tracing.workload.files) (isOpen : file.isOpen)
    (kept : (host.tableAfter (host.after origin replay.calls)
        (host.perform tracing.fs call).2 syscall).lookup (env.returned replay file.index) =
      (host.after origin replay.calls).table.lookup (env.returned replay file.index)) :
    (host.next (host.after origin replay.calls) syscall).table.lookup
      (env.returned next file.index) = some file.index := by
  have earlier : file.index < replay.calls.length :=
    mirrors.tracks.count ▸ mirrors.tracks.wellFormed.below file present
  rw [env.returned_of_concat calls earlier, ← mirrors.opened file present isOpen, ← kept]
  simp only [Host.next, host.step_of_canonical same, mirrors.fs]

/-- A descriptor in use is not the one that the next open gets. -/
theorem lookup_allocated (mirrors : Mirrors host env origin replay tracing) {file : TracedFile}
    (present : file ∈ tracing.workload.files) (isOpen : file.isOpen) {fd : Int}
    (allocated : host.allocate (host.after origin replay.calls).table = some fd) (index : Nat) :
    ((fd, index) :: (host.after origin replay.calls).table).lookup
        (env.returned replay file.index) =
      (host.after origin replay.calls).table.lookup (env.returned replay file.index) := by
  have used := mirrors.opened file present isOpen
  have other : env.returned replay file.index ≠ fd := by
    intro taken
    rw [taken, (host.free _ _ allocated).1] at used
    cases used
  rw [List.lookup_cons, beq_false_of_ne other]

/-- The file that an open adds is open under the descriptor that treplay has got for it. -/
theorem opened_open (mirrors : Mirrors host env origin replay tracing) {path : Path} {flags : Int}
    {mode : Nat} {outcome : CallOutcome} {ret : BitVec 32} {fd : Int}
    (allocated : host.allocate (host.after origin replay.calls).table = some fd)
    (ended : (host.perform tracing.fs (.openFile path flags mode)).2 = outcome)
    (recorded : ret.toInt = outcome.kernel) (success : ret = 0) {next : Replay}
    (calls : next.calls = replay.calls ++ [.openFile path flags mode])
    (answered : env.answer replay.calls.length (.openFile path flags mode) =
      host.answer (host.after origin replay.calls).table outcome (.openFile path flags mode)) :
    (host.next (host.after origin replay.calls) (.openFile path flags mode)).table.lookup
      (env.returned next tracing.workload.count) = some tracing.workload.count := by
  cases outcome with
  | failed errno positive =>
      rw [success, CallOutcome.kernel] at recorded
      have zero : (0 : BitVec 32).toInt = 0 := rfl
      omega
  | ok value bounded =>
      obtain ⟨-, lower, upper⟩ := host.free _ _ allocated
      have count : tracing.workload.count = replay.calls.length := mirrors.tracks.count.symm
      have same : host.canonical (host.after origin replay.calls).table
          (.openFile path flags mode) = some (.openFile path flags mode) := by
        rw [Host.canonical, allocated, Option.map_some]
      rw [count, env.returned_last calls, answered, Host.next, Host.step_of_canonical _ same]
      simp only [mirrors.fs, ended, Host.tableAfter, Host.answer, allocated, Option.getD_some,
        host.count_after]
      rw [toInt32_of_range (by omega) upper, List.lookup_cons_self]

/-- A close takes away the descriptor of its own file only. -/
theorem opened_close (mirrors : Mirrors host env origin replay tracing) {event : FileEvent}
    (admits : tracing.workload.Admits event) (unambiguous : tracing.workload.Unambiguous event)
    (use : event.call.IsUse) (outcome : CallOutcome) {file : TracedFile}
    (present : file ∈ tracing.workload.files.eraseP event.isOn) (isOpen : file.isOpen) :
    let state := host.after origin replay.calls
    (host.tableAfter state outcome (.close (event.lookup replay))).lookup
        (env.returned replay file.index) =
      state.table.lookup (env.returned replay file.index) := by
  intro state
  obtain ⟨closed, closedIn, closedOpen, closedSame, fd, found, -⟩ :=
    mirrors.lookup_event admits unambiguous use
  have stays := List.mem_of_mem_eraseP present
  have used := mirrors.opened file stays isOpen
  have other : env.returned replay file.index ≠ event.lookup replay := by
    intro same
    rw [same, found, Option.some.injEq] at used
    obtain rfl := mirrors.tracks.wellFormed.eq_of_index_eq closedIn stays used
    exact mirrors.tracks.wellFormed.not_mem_eraseP closedIn
      ((event.isOn_iff closed).mpr ⟨closedOpen, closedSame⟩) present
  exact lookup_filter_ne other state.table

/-- A close leaves one entry less in the table, or more than one. -/
theorem length_close (mirrors : Mirrors host env origin replay tracing) {event : FileEvent}
    (admits : tracing.workload.Admits event) (unambiguous : tracing.workload.Unambiguous event)
    (use : event.call.IsUse) :
    ((host.after origin replay.calls).table.filter
        fun entry => entry.1 ≠ event.lookup replay).length ≤
      (tracing.workload.files.eraseP event.isOn).countP TracedFile.isOpen := by
  obtain ⟨closed, closedIn, closedOpen, closedSame, -, found, -⟩ :=
    mirrors.lookup_event admits unambiguous use
  obtain ⟨above, below, table, -⟩ := List.lookup_eq_some_iff.mp found
  have fewer := List.length_filter_lt_length_iff_exists (p := fun entry : Int × Nat =>
    decide (entry.1 ≠ event.lookup replay)).mpr
    ⟨(event.lookup replay, closed.index), table ▸ List.mem_append_cons_self, by simp⟩
  obtain ⟨other, before, later, -, -, split, erased⟩ := List.exists_of_eraseP closedIn
    ((event.isOn_iff closed).mpr ⟨closedOpen, closedSame⟩)
  have bound := mirrors.atMost
  rw [Workload.openCount, split, List.countP_append, List.countP_cons] at bound
  rw [erased, List.countP_append]
  split at bound <;> omega

variable (mirrors : Mirrors host env origin replay tracing)
  (tells : tracing.Tells host perform env.p1 made record)
  (recorded : record.record.call.ret.toInt = (host.perform tracing.fs call).2.kernel)
  (issued : record.record.call.issued record.record.pid replay.omap = some syscall)
  (same : host.canonical (host.after origin replay.calls).table syscall = some call)

include mirrors tells recorded issued same

theorem opened_step
    (answered : env.answer replay.calls.length syscall =
      (host.step (host.after origin replay.calls) syscall).2) {file : TracedFile}
    (present : file ∈ (tracing.workload.record record.record).files) (isOpen : file.isOpen) :
    (host.next (host.after origin replay.calls) syscall).table.lookup
      (env.returned (record.settled env syscall replay) file.index) = some file.index := by
  rw [host.step_of_canonical same, mirrors.fs] at answered
  obtain ⟨⟨traced, pid, rId, heap⟩, fits, known⟩ := record
  cases traced with
  | openFile name flags mode address ret =>
      cases issued
      obtain ⟨fd, allocated, rfl⟩ := Option.map_eq_some_iff.mp same
      rcases List.mem_append.mp present with older | newest
      · refine mirrors.opened_next same rfl older isOpen ?_
        simp only [Host.tableAfter, allocated]
        split
        next free =>
          cases free
          exact mirrors.lookup_allocated older isOpen allocated _
        next => rfl
      · obtain rfl := List.mem_singleton.mp newest
        exact mirrors.opened_open allocated rfl recorded (of_decide_eq_true isOpen) rfl answered
  | close name address ret =>
      cases issued
      obtain ⟨admits, unambiguous⟩ := tells.files _ rfl
      have stays := List.mem_of_mem_eraseP present
      exact mirrors.opened_next same rfl stays isOpen
        (mirrors.opened_close admits unambiguous trivial _ present isOpen)
  | read | write | mkdir | rmdir | unlink | link | symlink | rename =>
      cases issued
      exact mirrors.opened_next same rfl present isOpen rfl
  | mknod | setxattr | getxattr | listxattr | removexattr => cases issued

theorem atMost_step :
    (host.next (host.after origin replay.calls) syscall).table.length ≤
      (tracing.workload.record record.record).openCount := by
  have bound := mirrors.atMost
  rw [Host.next, host.step_of_canonical same, mirrors.fs]
  obtain ⟨⟨traced, pid, rId, heap⟩, fits, known⟩ := record
  cases traced with
  | openFile name flags mode address ret =>
      cases issued
      obtain ⟨fd, allocated, rfl⟩ := Option.map_eq_some_iff.mp same
      show _ ≤ (tracing.workload.files ++ [_]).countP TracedFile.isOpen
      rw [List.countP_append, List.countP_singleton]
      cases ended : (host.perform tracing.fs (.openFile (some name.text) flags.toInt mode.toNat)).2
      with
      | ok value bounded =>
          -- the file counts as open, as the kernel has returned zero
          obtain rfl := host.opens _ _ _ _ _ _ ended
          rw [ended] at recorded
          have isOpen : ret = 0 := BitVec.eq_of_toInt_eq recorded
          simp only [Host.tableAfter, allocated, List.length_cons, isOpen, decide_true, if_true]
          exact Nat.succ_le_succ bound
      | failed errno positive => exact Nat.le_add_right_of_le bound
  | close name address ret =>
      cases issued
      obtain ⟨admits, unambiguous⟩ := tells.files _ rfl
      exact mirrors.length_close admits unambiguous trivial
  | read | write | mkdir | rmdir | unlink | link | symlink | rename =>
      cases issued
      exact bound
  | mknod | setxattr | getxattr | listxattr | removexattr => cases issued

/-- What a call does in the workload, the replay of its record does to the file system and to the
descriptors of treplay. -/
theorem step
    (answered : env.answer replay.calls.length syscall =
      (host.step (host.after origin replay.calls) syscall).2) :
    Mirrors host env origin (record.settled env syscall replay)
      ⟨(host.perform tracing.fs call).1, tracing.workload.record record.record⟩ := by
  have survive : NamesSurvive (env.p1 replay.calls.length) record.record.call :=
    mirrors.tracks.count ▸ tells.names
  have after : host.after origin (record.settled env syscall replay).calls =
      host.next (host.after origin replay.calls) syscall := host.after_concat _ _ _
  refine ⟨mirrors.tracks.record tells.files issued survive tells.buffers, ?_, ?_, ?_⟩
  · rw [after]
    exact mirrors.fs_next same
  · rw [after]
    intro file present isOpen
    exact mirrors.opened_step tells recorded issued same answered present isOpen
  · rw [after]
    exact mirrors.atMost_step tells recorded issued same

end Step

end Mirrors

/-! ## The whole trace -/

def ReplayableRecord.reported (replayable : ReplayableRecord) : Option Bool :=
  replayable.record.call.reported

namespace WorkloadCall

variable {Call : Type}

def reported (made : WorkloadCall Call) : Option Bool := made.record.bind ReplayableRecord.reported

/-- The part of the workload that is replayed: with `-s` that up to the first call that is reported
to differ. -/
def replayedPart (gflags : Nat) : List (WorkloadCall Call) → List (WorkloadCall Call)
  | [] => []
  | made :: rest =>
      if gflags = 2 ∧ made.reported = some false then [made]
      else made :: replayedPart gflags rest

/-- How treplay comes out of it. -/
def ending (gflags : Nat) (calls : List (WorkloadCall Call)) (final : Replay) : Outcome Replay :=
  if gflags = 2 ∧ ∃ made ∈ calls, made.reported = some false then .exited final
  else .returned final

theorem ending_cons {gflags : Nat} {made : WorkloadCall Call}
    (going : ¬ (gflags = 2 ∧ made.reported = some false)) (rest : List (WorkloadCall Call))
    (final : Replay) : ending gflags (made :: rest) final = ending gflags rest final := by
  rw [ending, ending]
  congr 1
  simp only [List.mem_cons, exists_eq_or_imp, eq_iff_iff]
  tauto

end WorkloadCall

section Runs

open WorkloadCall

variable {Fs Call : Type} {host : Host Fs} {perform : Fs → Call → Fs × CallOutcome}
  {env : Environment} {origin : Fs} {replay : Replay} {tracing : Tracing Fs}

theorem Tracing.Tells.issued {p1 : Nat → Memory} {made : Call} {record : ReplayableRecord}
    (tells : tracing.Tells host perform p1 made record) (omap : List OmapNode) :
    ∃ syscall, record.record.call.issued record.record.pid omap = some syscall := by
  obtain ⟨call, told, -⟩ := tells.made
  obtain ⟨⟨traced, pid, rId, heap⟩, fits, known⟩ := record
  cases traced with
  | mknod | setxattr | getxattr | listxattr | removexattr => cases told
  | openFile | read | write | close | mkdir | rmdir | unlink | link | symlink | rename =>
      exact ⟨_, rfl⟩

theorem Workload.count_record (workload : Workload) (record : TraceRecord) :
    (workload.record record).count = workload.count + 1 := by
  rw [Workload.record]
  split <;> rfl

/-- A call without a record leaves everything as it is. -/
theorem Tracing.step_of_unrecorded {p1 : Nat → Memory} {made : WorkloadCall Call}
    (records : tracing.Records host perform p1 made) (unrecorded : made.record = none) :
    tracing.step perform made = tracing := by
  unfold Tracing.Records at records
  rw [unrecorded] at records
  simp only [Tracing.step, unrecorded, show (perform tracing.fs made.call).1 = _ from records]

/-- A call with a record does what the record tells. -/
theorem Tracing.step_of_recorded {made : WorkloadCall Call} {record : ReplayableRecord}
    (recorded : made.record = some record) {call : Syscall}
    (same : perform tracing.fs made.call = host.perform tracing.fs call) :
    tracing.step perform made =
      ⟨(host.perform tracing.fs call).1, tracing.workload.record record.record⟩ := by
  simp only [Tracing.step, recorded, same]

theorem runAll_record (gflags : Nat) {record : ReplayableRecord} {syscall : Syscall}
    (issued : record.record.call.issued record.record.pid replay.omap = some syscall)
    (survive : NamesSurvive (env.p1 replay.calls.length) record.record.call)
    (fits : FitsBuffers record.record.call) (rest : List ReplayableRecord) :
    runAll (ReplayableRecord.replay env gflags) (record :: rest) replay =
      if gflags = 2 ∧
          record.record.call.verdict (env.answer replay.calls.length syscall) = some false then
        .exited (record.settled env syscall replay)
      else
        runAll (ReplayableRecord.replay env gflags) rest (record.settled env syscall replay) := by
  rw [runAll, ReplayableRecord.replay, TracedCall.replay_eq_settled gflags issued survive fits]
  by_cases differs : gflags = 2 ∧
      record.record.call.verdict (env.answer replay.calls.length syscall) = some false
  · rw [if_pos differs, if_pos differs, ReplayableRecord.settled]
  · rw [if_neg differs, if_neg differs, ReplayableRecord.settled]

/-- Each record makes a call, and none of them is one that faults. -/
theorem runAll_ends (gflags : Nat) {calls : List (WorkloadCall Call)}
    (traced : Along (Tracing.step perform) (Tracing.Records host perform env.p1) tracing calls)
    (count : replay.calls.length = tracing.workload.count) :
    ∃ made, (runAll (ReplayableRecord.replay env gflags) (calls.filterMap record) replay).calls? =
        some made ∧ replay.calls <+: made := by
  induction calls generalizing replay tracing with
  | nil => exact ⟨replay.calls, rfl, List.prefix_refl _⟩
  | cons made rest inductionHypothesis =>
      obtain ⟨first, later⟩ := traced
      cases recorded : made.record with
      | none =>
          rw [Tracing.step_of_unrecorded first recorded] at later
          rw [List.filterMap_cons_none recorded]
          exact inductionHypothesis later count
      | some record =>
          unfold Tracing.Records at first
          rw [recorded] at first
          obtain ⟨syscall, issued⟩ := first.issued replay.omap
          rw [List.filterMap_cons_some recorded,
            runAll_record gflags issued (count ▸ first.names) first.buffers]
          split
          · exact ⟨_, rfl, List.prefix_append _ _⟩
          · have counted : (record.settled env syscall replay).calls.length =
                (tracing.step perform made).workload.count := by
              show (replay.calls ++ [syscall]).length = _
              simp only [Tracing.step, recorded, Workload.count_record, ← count,
                List.length_append, List.length_singleton]
            obtain ⟨calls, ended, further⟩ := inductionHypothesis later counted
            exact ⟨calls, ended, (List.prefix_append _ _).trans further⟩

/-- The answer of the system makes the handler report what is reported of the recorded result. -/
theorem TracedCall.verdict_answer {call : TracedCall} {pid : BitVec 32} {omap : List OmapNode}
    {syscall : Syscall} (issued : call.issued pid omap = some syscall) {outcome : CallOutcome}
    (recorded : call.ret.toInt = outcome.kernel) (table : List (Int × Nat)) :
    call.verdict (host.answer table outcome syscall) = call.reported := by
  cases call with
  | openFile => rfl
  | read | write | close | mkdir | rmdir | unlink | link | symlink | rename =>
      cases issued
      exact TracedCall.verdict_libc recorded nofun
  | mknod | setxattr | getxattr | listxattr | removexattr => cases issued

/-- The call of the first record is one of those made in the end, so the system answers it. -/
theorem Host.answer_of_run (host : Host Fs) {gflags : Nat} {record : ReplayableRecord}
    {rest : List (WorkloadCall Call)} {syscall : Syscall} {next : Tracing Fs}
    (later : Along (Tracing.step perform) (Tracing.Records host perform env.p1) next rest)
    (counted : (replay.calls ++ [syscall]).length = next.workload.count)
    (run : runAll (ReplayableRecord.replay env gflags)
        (record :: rest.filterMap WorkloadCall.record) replay =
      if gflags = 2 ∧
          record.record.call.verdict (env.answer replay.calls.length syscall) = some false then
        .exited (record.settled env syscall replay)
      else runAll (ReplayableRecord.replay env gflags) (rest.filterMap WorkloadCall.record)
        (record.settled env syscall replay))
    (served : ∀ calls,
      (runAll (ReplayableRecord.replay env gflags) (record :: rest.filterMap WorkloadCall.record)
        replay).calls? = some calls → host.Serves env origin calls) :
    env.answer replay.calls.length syscall =
      (host.step (host.after origin replay.calls) syscall).2 := by
  obtain ⟨calls, ended, more, rfl⟩ :
      ∃ calls, (runAll (ReplayableRecord.replay env gflags)
        (record :: rest.filterMap WorkloadCall.record) replay).calls? = some calls ∧
          replay.calls ++ [syscall] <+: calls := by
    rw [run]
    split
    · exact ⟨_, rfl, List.prefix_refl _⟩
    · exact runAll_ends gflags later counted
  have serves := served _ ended
  rw [List.append_assoc] at serves
  exact serves.answer

/-- One recorded call.  The system answers the call that treplay makes for it, as it is one of those
made in the end, so that treplay is then in step with the workload again. -/
theorem Mirrors.run_recorded (mirrors : Mirrors host env origin replay tracing) (gflags : Nat)
    {made : WorkloadCall Call} {record : ReplayableRecord} {rest : List (WorkloadCall Call)}
    (recorded : made.record = some record)
    (tells : tracing.Tells host perform env.p1 made.call record)
    (later : Along (Tracing.step perform) (Tracing.Records host perform env.p1)
      (tracing.step perform made) rest)
    (served : ∀ calls, (runAll (ReplayableRecord.replay env gflags)
      (record :: rest.filterMap WorkloadCall.record) replay).calls? = some calls →
        host.Serves env origin calls) :
    ∃ next, Mirrors host env origin next (tracing.step perform made) ∧
      next.reports = replay.reports ++ made.reported.toList ∧
      runAll (ReplayableRecord.replay env gflags) (record :: rest.filterMap WorkloadCall.record)
          replay =
        if gflags = 2 ∧ made.reported = some false then .exited next
        else runAll (ReplayableRecord.replay env gflags) (rest.filterMap WorkloadCall.record)
          next := by
  obtain ⟨call, told, same⟩ := tells.made
  have result : record.record.call.ret.toInt = (host.perform tracing.fs call).2.kernel := by
    rw [← same]
    exact tells.ret
  obtain ⟨syscall, issued, canonical⟩ := mirrors.canonical_issued tells told
  have count : replay.calls.length = tracing.workload.count := mirrors.tracks.count
  have run := runAll_record gflags issued (count ▸ tells.names) tells.buffers
    (rest.filterMap WorkloadCall.record)
  rw [Tracing.step_of_recorded recorded same] at later ⊢
  have counted : (replay.calls ++ [syscall]).length =
      (tracing.workload.record record.record).count := by
    rw [Workload.count_record, ← count, List.length_append, List.length_singleton]
  have answered := host.answer_of_run later counted run served
  have verdict : record.record.call.verdict (env.answer replay.calls.length syscall) =
      made.reported := by
    rw [reported, recorded, Option.bind_some, answered, host.step_of_canonical canonical,
      mirrors.fs]
    exact TracedCall.verdict_answer issued result _
  refine ⟨record.settled env syscall replay,
    mirrors.step tells result issued canonical answered, ?_, ?_⟩
  · rw [ReplayableRecord.settled, TracedCall.settled, verdict]
  · rw [run, verdict]

/-- The induction over the calls of the workload. -/
theorem Mirrors.run (mirrors : Mirrors host env origin replay tracing) (gflags : Nat)
    {calls : List (WorkloadCall Call)}
    (traced : Along (Tracing.step perform) (Tracing.Records host perform env.p1) tracing calls)
    (served : ∀ made,
      (runAll (ReplayableRecord.replay env gflags) (calls.filterMap record) replay).calls? =
        some made → host.Serves env origin made) :
    ∃ final, runAll (ReplayableRecord.replay env gflags) (calls.filterMap record) replay =
        ending gflags calls final ∧
      Mirrors host env origin final
        (Transition.run (Tracing.step perform) tracing (replayedPart gflags calls)) ∧
      final.reports = replay.reports ++ (replayedPart gflags calls).filterMap reported := by
  induction calls generalizing replay tracing with
  | nil => exact ⟨replay, by simp [runAll, ending], mirrors, by simp [replayedPart]⟩
  | cons made rest inductionHypothesis =>
      obtain ⟨first, later⟩ := traced
      cases recorded : made.record with
      | none =>
          have silent : made.reported = none := by rw [reported, recorded, Option.bind_none]
          have going : ¬ (gflags = 2 ∧ made.reported = some false) := by simp [silent]
          have same := Tracing.step_of_unrecorded first recorded
          rw [same] at later
          rw [List.filterMap_cons_none recorded] at served ⊢
          obtain ⟨final, ended, mirrored, reported⟩ := inductionHypothesis mirrors later served
          refine ⟨final, ?_, ?_, ?_⟩
          · rw [ended, ending_cons going]
          · rw [replayedPart, if_neg going, run_cons, same]
            exact mirrored
          · rw [reported, replayedPart, if_neg going, List.filterMap_cons_none silent]
      | some record =>
          unfold Tracing.Records at first
          rw [recorded] at first
          rw [List.filterMap_cons_some recorded] at served ⊢
          obtain ⟨next, mirrored, reports, run⟩ :=
            mirrors.run_recorded gflags recorded first later served
          by_cases differs : gflags = 2 ∧ made.reported = some false
          · rw [if_pos differs] at run
            refine ⟨next, ?_, ?_, ?_⟩
            · rw [run, ending, if_pos ⟨differs.1, made, by simp, differs.2⟩]
            · rw [replayedPart, if_pos differs, run_cons]
              exact mirrored
            · rw [replayedPart, if_pos differs, reports, differs.2]
              simp [differs.2]
          · rw [if_neg differs] at run
            obtain ⟨final, ended, further, reported⟩ := inductionHypothesis mirrored later (by
              rwa [← run])
            refine ⟨final, ?_, ?_, ?_⟩
            · rw [run, ended, ending_cons differs]
            · rw [replayedPart, if_neg differs, run_cons]
              exact further
            · rw [reported, reports, replayedPart, if_neg differs, List.append_assoc]
              congr 1
              cases said : made.reported <;> simp [said]

end Runs

/-- The calls that treplay has made when it ends, if it does. -/
def MainResult.calls? : MainResult Replay → Option (List Syscall)
  | .finished final | .partially final => some final.progress.state.calls
  | .exited progress => some progress.state.calls
  | .fault | .running => none

theorem EndsAs.calls_eq {size : Nat} {outcome : Outcome Replay} {result : MainResult Replay}
    (ends : EndsAs size outcome result) : result.calls? = outcome.calls? := by
  cases ends <;> rfl

open WorkloadCall in
/-- A workload that can be made again is made again by a run that executes its records.  It ends at
the end of the trace, or in strict mode at the first record that is reported to differ.  Run on the
file system that the workload started from, it leaves it as the workload had it at that record, and
its reports follow from the recorded results. -/
theorem EndsAs.reproduces {Fs Call : Type} {host : Host Fs} {perform : Fs → Call → Fs × CallOutcome}
    {fs : Fs} {env : Environment} {gflags : Nat} {calls : List (WorkloadCall Call)} {size : Nat}
    {result : MainResult Replay}
    (executes : EndsAs size
      (runAll (ReplayableRecord.replay env gflags) (calls.filterMap record) ⟨[], [], []⟩) result)
    (traced : Along (Tracing.step perform) (Tracing.Records host perform env.p1) (Tracing.start fs)
      calls)
    (served : ∀ made, result.calls? = some made → host.Serves env fs made) :
    ∃ final, EndsAs size (ending gflags calls final) result ∧
      (host.after fs final.calls).fs =
        (run (Tracing.step perform) (Tracing.start fs) (replayedPart gflags calls)).fs ∧
      final.reports = (replayedPart gflags calls).filterMap reported := by
  rw [executes.calls_eq] at served
  obtain ⟨final, ended, mirrors, reports⟩ := Mirrors.start.run gflags traced served
  rw [ended] at executes
  exact ⟨final, executes, mirrors.fs, reports⟩

end Tracefs
