import Tracefs.LogThread.Unmount
import Tracefs.Replay.Reproduction

/-!
# From the hooks to the replay

The parts put together: hooks hand records to the queue, the log thread collects them in its page
and writes the page to the trace file, and treplay executes the file.  The kernel side runs under
any schedule.  What treplay executes is then given by the records alone.
-/

namespace Tracefs

open Bytes Transition

/-- The records that the hooks hand over during a run. -/
def tracedRecords : List MountedAction → List TraceRecord
  | [] => []
  | .trace record :: actions => record :: tracedRecords actions
  | .thread :: actions => tracedRecords actions

namespace Unmount

variable (vfs : VfsWrites)

/-- The log thread accepts nothing. -/
theorem accepted_threadStep (state : Unmount) :
    (state.threadStep vfs).accepted = state.accepted := by
  rw [threadStep]
  cases state.phase with
  | receiving => cases state.queue <;> rfl
  | testing message =>
      dsimp only
      split
      · rfl
      · split <;> rfl
  | copying message =>
      dsimp only
      split <;> rfl
  | writing | resetting | counting | overrun | left => rfl

theorem accepted_trace (state : Unmount) (record : TraceRecord) :
    (state.trace record).accepted = state.accepted ++ [record.message] := by
  rw [trace]
  split <;> rfl

/-- Every record handed over counts as accepted, in the order of the hooks. -/
theorem accepted_run (state : Unmount) (actions : List MountedAction) :
    (run (mountedStep vfs) state actions).accepted =
      state.accepted ++ (tracedRecords actions).map TraceRecord.message := by
  induction actions generalizing state with
  | nil => simp [tracedRecords]
  | cons action actions inductionHypothesis =>
      rw [run_cons, inductionHypothesis]
      cases action with
      | trace record => simp [mountedStep, accepted_trace, tracedRecords]
      | thread => rw [mountedStep, accepted_threadStep, tracedRecords]

end Unmount

theorem logBytes_map_message (records : List ReplayableRecord) :
    logBytes (records.map fun replayable => replayable.record.message) = traceFile records := by
  simp only [logBytes, traceFile, FramedRecord.file, List.flatMap_map]
  rfl

/-- The first records of a trace whose pages end with records are such a trace. -/
theorem PagesEndRecords.of_prefix {first records : List FramedRecord}
    (ends : PagesEndRecords records) (isPrefix : first <+: records) : PagesEndRecords first := by
  obtain ⟨rest, rfl⟩ := isPrefix
  intro pages inside
  have whole : (FramedRecord.file (first ++ rest)).length =
      (FramedRecord.file first).length + (FramedRecord.file rest).length := by
    rw [FramedRecord.file_append, List.length_append]
  obtain ⟨count, boundary⟩ := ends pages (by omega)
  refine ⟨count, ?_⟩
  rcases Nat.le_total count first.length with within | beyond
  · rwa [List.take_append_of_le_length within] at boundary
  · rw [List.take_append, List.take_of_length_le beyond, FramedRecord.file_append,
      List.length_append] at boundary
    omega

section Schedules

variable (vfs : VfsWrites) (buffer : Memory) {actions : List MountedAction}
  {records : List ReplayableRecord}
  (traced : tracedRecords actions = records.map ReplayableRecord.record)

include traced

theorem accepted_eq :
    (run (Unmount.mountedStep vfs) (.start buffer) actions).accepted =
      records.map fun replayable => replayable.record.message := by
  rw [Unmount.accepted_run, traced, List.map_map]
  rfl

/-- The records that found room in the queue, and those of them that are in the file. -/
theorem exists_written :
    ∃ queued written : List ReplayableRecord, queued.Sublist records ∧ written <+: queued ∧
      (run (Unmount.mountedStep vfs) (.start buffer) actions).queued =
        queued.map (fun replayable => replayable.record.message) ∧
      (run (Unmount.mountedStep vfs) (.start buffer) actions).contents = traceFile written := by
  obtain ⟨batches, pending, accounted⟩ := Unmount.accounted_run vfs buffer actions
  have sublist := accounted.sublist
  rw [accepted_eq vfs buffer traced] at sublist
  obtain ⟨queued, among, same⟩ := List.sublist_map_iff.mp sublist
  have split := accounted.queued
  rw [same, List.append_assoc, List.append_assoc] at split
  obtain ⟨written, isPrefix, flat⟩ := List.prefix_map_iff.mp ⟨_, split.symm⟩
  refine ⟨queued, written, among, isPrefix, same, ?_⟩
  rw [Unmount.contents, accounted.file, Option.map_some, Option.getD_some, contents_map_writeOf,
    flat, logBytes_map_message]

end Schedules

/-- A file system that only keeps account of the calls, but not of the mode of an open, for
processes with one open file. -/
def callLog : Host (List Syscall) where
  perform calls syscall := (calls ++ [match syscall with
      | .openFile path flags _ => .openFile path flags 0
      | other => other],
    match syscall with
    | .write _ data => if small : data.length < 2 ^ 31 then .ok data.length small
        else .failed 27 (by decide)
    | _ => .ok 0 (by decide))
  opens fs path flags mode value bounded ended := by
    cases ended
    rfl
  limit := 1
  allocate table := if table = [] then some 3 else none
  room table one := by
    rw [List.length_eq_zero_iff.mp (Nat.lt_one_iff.mp one)]
    rfl
  free table fd allocated := by
    split at allocated
    next empty =>
      cases allocated
      rw [empty]
      decide
    next => cases allocated

/-- The calls of a workload on it: those that are kept account of, and one that only looks. -/
def callLogPerform (calls : List Syscall) : Option Syscall → List Syscall × CallOutcome
  | some syscall => callLog.perform calls syscall
  | none => (calls, .ok 0 (by decide))

theorem sizeFieldFits_oneByte :
    TracedCall.SizeFieldFits (.write Name.a ⟨[65], by decide⟩ 0 1 1) := by
  show 48 + 1 + 1 < 2 ^ 16
  decide

/-- Looking at the file `a`, opening it, writing a byte to it and closing it.  The record of the
open has another mode than the call. -/
def openWriteClose : List (WorkloadCall (Option Syscall)) :=
  [⟨none, none⟩,
    ⟨some (.openFile (some [97]) 1 384),
      some ⟨⟨.openFile Name.a 1 2 1 0, 1, 2, fun _ => 0⟩, trivial, nofun⟩⟩,
    ⟨some (.write 0 [65]),
      some ⟨⟨.write Name.a ⟨[65], by decide⟩ 0 1 1, 1, 3, fun _ => 0⟩, sizeFieldFits_oneByte,
        nofun⟩⟩,
    ⟨some (.close 0), some ⟨⟨.close Name.a 1 0, 1, 4, fun _ => 0⟩, trivial, nofun⟩⟩]

def openWriteCloseTrace : List ReplayableRecord := openWriteClose.filterMap WorkloadCall.record

def oneFileEnvironment : Environment where
  answer := fun tick _ => [3, 1, 0].getD tick 0
  p1 := fun _ _ => 0
  p2 := fun _ _ => 0

theorem traced_openWriteClose :
    Along (Tracing.step callLogPerform)
      (Tracing.Records callLog callLogPerform oneFileEnvironment.p1) (Tracing.start [])
      openWriteClose := by
  refine ⟨rfl, ⟨⟨_, rfl, rfl⟩, rfl, ?_, ?_, trivial, trivial⟩,
    ⟨⟨_, rfl, rfl⟩, rfl, ?_, ?_, trivial, trivial⟩,
    ⟨⟨_, rfl, rfl⟩, rfl, ?_, ?_, trivial, trivial⟩, trivial⟩
  all_goals rintro event ⟨⟩
  · simp [Workload.Admits, Workload.Unambiguous, FileCall.IsUse, Tracing.step, Tracing.start,
      Workload.start]
  · exact fun _ => Nat.zero_lt_one
  · exact ⟨⟨⟨1, 1, 0, true⟩, by decide, rfl, rfl⟩, fun _ => by decide⟩
  · exact fun noUse => absurd trivial noUse
  · exact ⟨⟨⟨1, 1, 0, true⟩, by decide, rfl, rfl⟩, fun _ => by decide⟩
  · exact fun noUse => absurd trivial noUse

/-- The three records, each logged before the next is made. -/
def openWriteCloseMount : List MountedAction :=
  openWriteCloseTrace.flatMap fun replayable =>
    [.trace replayable.record, .thread, .thread, .thread, .thread]

theorem tracedRecords_openWriteCloseMount :
    tracedRecords openWriteCloseMount = openWriteCloseTrace.map ReplayableRecord.record := rfl

theorem returned_openWriteCloseMount :
    (run (Unmount.unmountStep .untilClosed)
      (run (Unmount.mountedStep .untilClosed) (.start fun _ => 0) openWriteCloseMount)
      Unmount.exitAlone).exit = .returned := rfl

theorem length_openWriteClose : openWriteClose.length < 5 := by decide

theorem length_openWriteCloseTrace : openWriteCloseTrace.length < 5 := by decide

theorem length_traceFile_openWriteCloseTrace : (traceFile openWriteCloseTrace).length = 124 := by
  rw [length_traceFile]
  rfl

theorem pagesEndRecords_openWriteCloseTrace :
    PagesEndRecords (openWriteCloseTrace.map ReplayableRecord.framed) :=
  pagesEndRecords_of_le (length_traceFile_openWriteCloseTrace.trans_le (by decide))

theorem short_openWriteCloseTrace : (traceFile openWriteCloseTrace).length < 2 ^ 31 := by
  rw [length_traceFile_openWriteCloseTrace]
  decide

/-- The calls that the replay of it makes are answered as by the system that keeps account. -/
theorem served_openWriteCloseTrace {calls : List Syscall}
    (made : (treplay (ReplayOp.run oneFileEnvironment 2) (fun _ _ => 0)
      (traceFile openWriteCloseTrace) 5 5 (fun _ => 0) ⟨[], [], []⟩).calls? = some calls) :
    callLog.Serves oneFileEnvironment [] calls := by
  have executes := (recordInstructions oneFileEnvironment 2).treplay_items (fun _ _ => 0)
    openWriteCloseTrace (fun _ => 0) ⟨[], [], []⟩ pagesEndRecords_openWriteCloseTrace
    short_openWriteCloseTrace length_openWriteCloseTrace length_openWriteCloseTrace
  cases made.symm.trans executes.calls_eq
  exact ⟨rfl, rfl, rfl, trivial⟩

theorem contents_openWriteCloseMount :
    (run (Unmount.unmountStep .untilClosed)
      (run (Unmount.mountedStep .untilClosed) (.start fun _ => 0) openWriteCloseMount)
      Unmount.exitAlone).contents = traceFile openWriteCloseTrace := by
  obtain ⟨batches, pending, accounted⟩ :=
    Unmount.accounted_run .untilClosed (fun _ => 0) openWriteCloseMount
  rw [accounted.completes_of_quiet _ rfl rfl rfl _ rfl,
    accepted_eq _ _ tracedRecords_openWriteCloseMount, logBytes_map_message]

end Tracefs
