import Tracefs.LogThread.Refinement
import Tracefs.Transition
import Mathlib.Data.List.Flatten

/-!
# Unmounting under a running log thread

`trfs_exit` flushes the page and closes the file while the log thread goes on:
the global `trfs_kthread` is null, so that the thread is not stopped.  Here an
iteration of the thread is taken apart into the steps at which the two can meet.
The log queue is the FIFO that its ring implements.
-/

namespace Tracefs

open Bytes Transition

/-- `vfs_write` to the trace file, open or closed. -/
structure VfsWrites where
  write : Bool → VfsWrite
  whileOpen : ∀ file data, write true file data = data.length
  afterClose : ∀ file data, write false file data ≤ 0

/-- `TRFS_MAX_TX_Q_MSGS`. -/
def trfsMaxTxQMsgs : Nat := 1024

namespace LogThread

/-- `trfs_file_write(tlw.tfile, tlw.page, size)`. -/
def writePage (vfsWrite : VfsWrite) (thread : LogThread) (size : Int) : LogThread :=
  { thread with
    tlw.tfile := (trfsFileWrite vfsWrite thread.tlw.tfile
      (thread.tlw.page.load 0 (size % 2 ^ 32).toNat)).2 }

/-- `buf = tlw.page` and `tlw.page_size = 0`. -/
def reset (thread : LogThread) : LogThread :=
  { thread with tlw.pageSize := 0, buf := 0 }

/-- `memcpy(buf, msg1, len)` and `buf += len`. -/
def memcpy (thread : LogThread) (message : Message) : LogThread :=
  { thread with
    tlw.page := thread.tlw.page.store thread.buf message.bytes
    buf := thread.buf + message.len
    copies := thread.copies ++ [(thread.buf, message.len)] }

/-- `tlw.page_size += len`. -/
def count (thread : LogThread) (message : Message) : LogThread :=
  { thread with tlw.pageSize := toInt32 (thread.tlw.pageSize + message.len) }

end LogThread

/-- Where the log thread stands: in `trfsMqRecv`, or at one of the steps of an
iteration with the message it has taken. -/
inductive LogPhase where
  | receiving
  | testing (message : Message)
  | writing (message : Message)
  | resetting (message : Message)
  | copying (message : Message)
  | counting (message : Message)
  /-- It has written past the end of the page. -/
  | overrun (message : Message)
  /-- It has left its loop and freed the page. -/
  | left

def LogPhase.held : LogPhase → List Message
  | receiving | left => []
  | testing message | writing message | resetting message | copying message
  | counting message | overrun message => [message]

def LogPhase.hasPage : LogPhase → Bool
  | left => false
  | _ => true

/-- How far `trfs_exit` has got.  Its flush reads the arguments of the write
before it writes. -/
inductive ExitPhase where
  | entered
  | flushing (size : Int)
  | flushed
  | closed
  | returned
  deriving DecidableEq

/-- The log thread, the queue and the exit, with the messages that have been put
into the queue and those reported to be. -/
structure Unmount where
  thread : LogThread
  phase : LogPhase
  queue : List Message
  isOpen : Bool
  exit : ExitPhase
  queued : List Message
  accepted : List Message

namespace Unmount

def start (page : Memory) : Unmount :=
  ⟨.start (some []) page, .receiving, [], true, .entered, [], []⟩

def contents (state : Unmount) : List UInt8 :=
  (state.thread.tlw.tfile.map TraceFile.contents).getD []

/-- `trfsMqSend` of a record.  On a full queue it reports success and drops it. -/
def trace (state : Unmount) (record : TraceRecord) : Unmount :=
  if state.queue.length < trfsMaxTxQMsgs then
    { state with
      queue := state.queue ++ [record.message]
      queued := state.queued ++ [record.message]
      accepted := state.accepted ++ [record.message] }
  else { state with accepted := state.accepted ++ [record.message] }

/-- The next step of the log thread; on an empty queue it stays blocked. -/
def threadStep (vfs : VfsWrites) (state : Unmount) : Unmount :=
  match state.phase with
  | .receiving =>
      match state.queue with
      | [] => state
      | message :: queue => { state with phase := .testing message, queue := queue }
  | .testing message =>
      if message.firstInt = trfsLogComplete then { state with phase := .left }
      else if toInt32 (state.thread.tlw.pageSize + message.len) > trfsPageSize then
        { state with phase := .writing message }
      else { state with phase := .copying message }
  | .writing message =>
      { state with
        phase := .resetting message
        thread := state.thread.writePage (vfs.write state.isOpen) state.thread.tlw.pageSize }
  | .resetting message => { state with phase := .copying message, thread := state.thread.reset }
  | .copying message =>
      if state.thread.buf + message.len ≤ trfsPageSize then
        { state with phase := .counting message, thread := state.thread.memcpy message }
      else { state with phase := .overrun message }
  | .counting message =>
      { state with phase := .receiving, thread := state.thread.count message }
  -- nothing is known of a kernel whose memory has been overwritten
  | .overrun _ => state
  | .left => state

/-- The next step of `trfs_exit`.  After the log thread has left `tlw.page` is
null, and nothing can be written from there. -/
def exitStep (vfs : VfsWrites) (state : Unmount) : Unmount :=
  match state.exit with
  | .entered => { state with exit := .flushing state.thread.tlw.pageSize }
  | .flushing size =>
      { state with
        exit := .flushed
        thread :=
          if state.phase.hasPage then state.thread.writePage (vfs.write state.isOpen) size
          else state.thread }
  | .flushed => { state with exit := .closed, isOpen := false }
  -- no thread to stop, and the rest touches neither page nor file
  | .closed => { state with exit := .returned }
  | .returned => state

end Unmount

inductive MountedAction where
  | trace (record : TraceRecord)
  | thread

inductive UnmountAction where
  | thread
  | exit
  deriving DecidableEq

namespace Unmount

def mountedStep (vfs : VfsWrites) (state : Unmount) : MountedAction → Unmount
  | .trace record => state.trace record
  | .thread => state.threadStep vfs

def unmountStep (vfs : VfsWrites) (state : Unmount) : UnmountAction → Unmount
  | .thread => state.threadStep vfs
  | .exit => state.exitStep vfs

/-- However the rest is scheduled, once `trfs_exit` has returned the file holds
every accepted message, once and in order. -/
def Completes (vfs : VfsWrites) (state : Unmount) : Prop :=
  ∀ interleaving, (run (unmountStep vfs) state interleaving).exit = .returned →
    (run (unmountStep vfs) state interleaving).contents = logBytes state.accepted

/-- The steps of an undisturbed iteration add up to the iteration of the loop. -/
theorem run_iteration {vfs : VfsWrites} {state : Unmount} {pending : List Message}
    {message : Message} (testing : state.phase = .testing message)
    (holds : state.thread.PageHolds pending) (fits : message.len ≤ trfsPageSize)
    {next : LogThread}
    (turn : logTurn (vfs.write state.isOpen) state.thread (some message) = .next next) :
    ∃ count, run (unmountStep vfs) state (List.replicate count .thread) =
      { state with phase := .receiving, thread := next } := by
  rw [logTurn] at turn
  split at turn
  next => cases turn
  next ordinary =>
    cases turn
    by_cases full : toInt32 (state.thread.tlw.pageSize + message.len) > trfsPageSize
    · refine ⟨5, ?_⟩
      simp [List.replicate, unmountStep, threadStep, testing, ordinary, full, LogThread.append,
        LogThread.reset, fits]
      rfl
    · have inside : state.thread.buf + message.len ≤ trfsPageSize := by
        have cursor := holds.safe.cursor
        have bounded := holds.safe.bounded
        simp only [trfsPageSize] at fits bounded full ⊢
        rw [toInt32_of_range (by omega) (by omega)] at full
        omega
      refine ⟨3, ?_⟩
      simp [List.replicate, unmountStep, threadStep, testing, ordinary, full, LogThread.append,
        inside]
      rfl

/-- What a step of the thread finds in the page: the messages `pending`, unless
they have been written already or lost with the page. -/
def PageState (state : Unmount) (pending : List Message) : Prop :=
  match state.phase with
  | .receiving | .testing _ | .writing _ | .copying _ | .overrun _ =>
      state.thread.PageHolds pending
  | .resetting _ => pending = [] ∧
      ∀ copy ∈ state.thread.copies, copy.1 + copy.2 ≤ trfsPageSize
  | .counting message => ∃ before, LogThread.PageHolds before pending ∧
      state.thread = before.memcpy message ∧ before.buf + message.len ≤ trfsPageSize
  | .left => pending ≠ []

/-- Before the unmount every message put into the queue is in the file, in the
page, with the thread, or still in the queue. -/
structure Accounted (state : Unmount) (batches : List (List Message)) (pending : List Message) :
    Prop where
  isOpen : state.isOpen = true
  exit : state.exit = .entered
  file : state.thread.tlw.tfile = some (batches.map writeOf)
  page : state.PageState pending
  queued : state.queued = batches.flatten ++ pending ++ state.phase.held ++ state.queue
  sublist : state.queued.Sublist state.accepted
  positive : ∀ message ∈ state.accepted, 0 < message.len

namespace Accounted

variable {vfs : VfsWrites} {state : Unmount} {batches : List (List Message)}
  {pending : List Message}

theorem start (page : Memory) : (Unmount.start page).Accounted [] [] :=
  ⟨rfl, rfl, rfl, .start _ _, rfl, List.Sublist.refl _, by simp [Unmount.start]⟩

theorem trace (accounted : state.Accounted batches pending) (record : TraceRecord) :
    (state.trace record).Accounted batches pending := by
  obtain ⟨isOpen, exit, file, page, queued, sublist, positive⟩ := accounted
  have long := record.call.twenty_lt_byteSize
  have nonempty : ∀ message ∈ state.accepted ++ [record.message], 0 < message.len := by
    intro message membership
    rcases List.mem_append.mp membership with older | newest
    · exact positive message older
    · rw [List.mem_singleton.mp newest, record.len_message]
      omega
  rw [Unmount.trace]
  split
  next =>
    refine ⟨isOpen, exit, file, page, ?_, sublist.append (List.Sublist.refl _), nonempty⟩
    simp [queued]
  next =>
    exact ⟨isOpen, exit, file, page, queued, sublist.trans (List.sublist_append_left _ _),
      nonempty⟩

/-- Each step of the thread moves one message on, or loses the page. -/
theorem threadStep (accounted : state.Accounted batches pending) (vfs : VfsWrites) :
    ∃ batches' pending', (state.threadStep vfs).Accounted batches' pending' := by
  obtain ⟨thread, phase, queue, opened, exit, queued, accepted⟩ := state
  obtain ⟨isOpen, entered, file, page, split, sublist, positive⟩ := accounted
  simp only at isOpen entered file split sublist positive
  subst isOpen entered
  simp only [PageState] at page
  rw [Unmount.threadStep]
  cases phase with
  | receiving =>
      cases queue with
      | nil => exact ⟨batches, pending, rfl, rfl, file, page, split, sublist, positive⟩
      | cons message queue =>
          refine ⟨batches, pending, rfl, rfl, file, page, ?_, sublist, positive⟩
          simpa [LogPhase.held] using split
  | testing message =>
      dsimp only
      split
      next =>
        refine ⟨batches, pending ++ [message], rfl, rfl, file, ?_, ?_, sublist, positive⟩
        · simp [PageState]
        · simpa [LogPhase.held] using split
      next =>
        split
        next => exact ⟨batches, pending, rfl, rfl, file, page, split, sublist, positive⟩
        next => exact ⟨batches, pending, rfl, rfl, file, page, split, sublist, positive⟩
  | writing message =>
      have written := page.tfile_flush (vfs.write true) file
      rw [vfs.whileOpen] at written
      refine ⟨batches ++ [pending], [], rfl, rfl, ?_, ⟨rfl, page.safe.copiesInside⟩, ?_, sublist,
        positive⟩
      · rw [List.map_append]
        exact written
      · simpa [LogPhase.held] using split
  | resetting message =>
      obtain ⟨rfl, inside⟩ := page
      refine ⟨batches, [], rfl, rfl, file, ?_, split, sublist, positive⟩
      exact ⟨⟨rfl, le_rfl, by simp [LogThread.reset, trfsPageSize], inside⟩, rfl, rfl⟩
  | copying message =>
      dsimp only
      split
      next fits =>
        exact ⟨batches, pending, rfl, rfl, file, ⟨thread, page, rfl, fits⟩, split, sublist,
          positive⟩
      next => exact ⟨batches, pending, rfl, rfl, file, page, split, sublist, positive⟩
  | counting message =>
      obtain ⟨before, holds, rfl, fits⟩ := page
      refine ⟨batches, pending ++ [message], rfl, rfl, file, holds.copy fits, ?_, sublist,
        positive⟩
      simpa [LogPhase.held] using split
  | overrun | left => exact ⟨batches, pending, rfl, rfl, file, page, split, sublist, positive⟩

end Accounted

theorem accounted_run (vfs : VfsWrites) (page : Memory) (actions : List MountedAction) :
    ∃ batches pending,
      (run (mountedStep vfs) (Unmount.start page) actions).Accounted batches pending := by
  refine run_invariant
    (fun state : Unmount => ∃ batches pending, state.Accounted batches pending) ?_
    ⟨[], [], .start page⟩ actions
  rintro state action ⟨batches, pending, accounted⟩
  cases action with
  | trace record => exact ⟨batches, pending, accounted.trace record⟩
  | thread => exact accounted.threadStep vfs

/-- `trfs_exit` from its entry to its return, with no step of the thread between. -/
def exitAlone : List UnmountAction := List.replicate 4 .exit

/-- What the flush of `trfs_exit` finds to write. -/
def unflushed (state : Unmount) : List UInt8 :=
  if state.phase.hasPage then state.thread.buffered else []

theorem contents_append (file : TraceFile) (data : List UInt8) :
    TraceFile.contents (file ++ [⟨data, data.length⟩]) = file.contents ++ data := by
  simp [TraceFile.contents, WriteAttempt.written]

theorem tfile_writePage (vfs : VfsWrites) {thread : LogThread} {file : TraceFile}
    (opened : thread.tlw.tfile = some file) :
    (thread.writePage (vfs.write true) thread.tlw.pageSize).tlw.tfile =
      some (file ++ [⟨thread.buffered, thread.buffered.length⟩]) := by
  simp only [LogThread.writePage, trfsFileWrite, opened, vfs.whileOpen, LogThread.buffered]

/-- The exit on its own adds the page to the file. -/
theorem Accounted.run_exitAlone {state : Unmount} {batches : List (List Message)}
    {pending : List Message} (accounted : state.Accounted batches pending) (vfs : VfsWrites) :
    (run (unmountStep vfs) state exitAlone).exit = .returned ∧
      (run (unmountStep vfs) state exitAlone).contents =
        logBytes batches.flatten ++ state.unflushed := by
  obtain ⟨thread, phase, queue, opened, exit, queued, accepted⟩ := state
  obtain ⟨isOpen, entered, file, -⟩ := accounted
  simp only at isOpen entered file
  subst isOpen entered
  refine ⟨rfl, ?_⟩
  simp only [exitAlone, List.replicate, run_cons, run_nil, unmountStep, exitStep, contents,
    unflushed]
  split
  next =>
    rw [tfile_writePage vfs file, Option.map_some, Option.getD_some, contents_append,
      contents_map_writeOf]
  next =>
    rw [file, Option.map_some, Option.getD_some, contents_map_writeOf, List.append_nil]

/-- A message that has been copied but not counted is not written. -/
theorem buffered_memcpy {thread : LogThread} {pending : List Message}
    (holds : thread.PageHolds pending) (message : Message) :
    (thread.memcpy message).buffered = logBytes pending := by
  have cursor := holds.safe.cursor
  have nonneg := holds.safe.nonneg
  have bounded := holds.safe.bounded
  rw [← holds.buffered]
  simp only [LogThread.buffered, LogThread.memcpy]
  rw [trfsPageSize] at bounded
  exact Memory.load_store_disjoint _ (by omega)

theorem Accounted.unflushed_eq {state : Unmount} {batches : List (List Message)}
    {pending : List Message} (accounted : state.Accounted batches pending)
    (present : state.phase.hasPage)
    (counted : ∀ message, state.phase ≠ .resetting message) :
    state.unflushed = logBytes pending := by
  have page := accounted.page
  rw [unflushed, if_pos present]
  rw [PageState] at page
  cases phase : state.phase with
  | resetting message => exact absurd phase (counted message)
  | left => simp [phase, LogPhase.hasPage] at present
  | counting message =>
      simp only [phase] at page
      obtain ⟨before, holds, same, -⟩ := page
      rw [same]
      exact buffered_memcpy holds message
  | receiving | testing | writing | copying | overrun =>
      simp only [phase] at page
      exact page.buffered

theorem logBytes_cons (message : Message) (messages : List Message) :
    logBytes (message :: messages) = message.bytes ++ logBytes messages := rfl

theorem logBytes_append (first second : List Message) :
    logBytes (first ++ second) = logBytes first ++ logBytes second :=
  List.flatMap_append

/-- What the exit leaves out when it runs alone. -/
def missing (state : Unmount) (pending : List Message) : List Message :=
  (if state.phase.hasPage then state.phase.held else pending) ++ state.queue

theorem Accounted.exitAlone_misses {state : Unmount} {batches : List (List Message)}
    {pending : List Message} (accounted : state.Accounted batches pending) (vfs : VfsWrites)
    (counted : ∀ message, state.phase ≠ .resetting message) :
    logBytes state.queued =
      (run (unmountStep vfs) state exitAlone).contents ++ logBytes (state.missing pending) := by
  rw [(accounted.run_exitAlone vfs).2, accounted.queued, missing]
  by_cases present : state.phase.hasPage
  · rw [accounted.unflushed_eq present counted, if_pos present]
    simp [logBytes_append]
  · have gone : state.phase = .left := by
      cases phase : state.phase <;> simp_all [LogPhase.hasPage]
    simp [unflushed, logBytes_append, gone, LogPhase.held, LogPhase.hasPage]

theorem Accounted.missing_eq_nil {state : Unmount} {batches : List (List Message)}
    {pending : List Message} (accounted : state.Accounted batches pending)
    (nothing : state.missing pending = []) : state.phase = .receiving ∧ state.queue = [] := by
  have page := accounted.page
  rw [PageState] at page
  rw [missing, List.append_eq_nil_iff] at nothing
  refine ⟨?_, nothing.2⟩
  cases phase : state.phase <;> simp_all [LogPhase.hasPage, LogPhase.held]

theorem Accounted.missing_subset {state : Unmount} {batches : List (List Message)}
    {pending : List Message} (accounted : state.Accounted batches pending) :
    state.missing pending ⊆ state.queued := by
  intro message membership
  rw [missing, List.mem_append] at membership
  rw [accounted.queued]
  simp only [List.mem_append]
  split at membership <;> tauto

/-- Some schedule leaves out what is neither in the page nor in the file.  Between
the write of a full page and its reset the exit alone would write the page twice,
so there the thread takes one more step. -/
theorem Accounted.exists_missing {state : Unmount} {batches : List (List Message)}
    {pending : List Message} (accounted : state.Accounted batches pending) (vfs : VfsWrites) :
    ∃ interleaving missing, (run (unmountStep vfs) state interleaving).exit = .returned ∧
      logBytes state.queued =
        (run (unmountStep vfs) state interleaving).contents ++ logBytes missing ∧
      missing ⊆ state.queued ∧
      (missing = [] → state.phase = .receiving ∧ state.queue = []) := by
  by_cases counted : ∀ message, state.phase ≠ .resetting message
  · exact ⟨exitAlone, state.missing pending, (accounted.run_exitAlone vfs).1,
      accounted.exitAlone_misses vfs counted, accounted.missing_subset, accounted.missing_eq_nil⟩
  · push Not at counted
    obtain ⟨message, resetting⟩ := counted
    have next : state.threadStep vfs =
        { state with phase := .copying message, thread := state.thread.reset } := by
      simp only [Unmount.threadStep, resetting]
    obtain ⟨batches', pending', reset⟩ := accounted.threadStep vfs
    have queued : (state.threadStep vfs).queued = state.queued := by rw [next]
    have copying : (state.threadStep vfs).phase = .copying message := by rw [next]
    refine ⟨.thread :: exitAlone, (state.threadStep vfs).missing pending',
      (reset.run_exitAlone vfs).1, ?_, queued ▸ reset.missing_subset, ?_⟩
    · rw [← queued]
      exact reset.exitAlone_misses vfs (by simp [copying])
    · intro nothing
      have receiving := (reset.missing_eq_nil nothing).1
      rw [copying] at receiving
      cases receiving

theorem eq_of_sublist_of_length_logBytes {first second : List Message}
    (sublist : first.Sublist second) (positive : ∀ message ∈ second, 0 < message.len)
    (long : (logBytes second).length ≤ (logBytes first).length) : first = second := by
  induction sublist with
  | slnil => rfl
  | @cons first second message sublist _ =>
      have shorter : (logBytes first).length ≤ (logBytes second).length :=
        (sublist.flatMap Message.bytes).length_le
      have nonempty := positive message (by simp)
      rw [logBytes_cons, List.length_append, length_message_bytes] at long
      omega
  | @cons_cons first second message sublist inductionHypothesis =>
      rw [logBytes_cons, logBytes_cons, List.length_append, List.length_append] at long
      rw [inductionHypothesis (fun m hm => positive m (by simp [hm])) (by omega)]

theorem eq_nil_of_length_logBytes {messages : List Message}
    (positive : ∀ message ∈ messages, 0 < message.len) (empty : (logBytes messages).length = 0) :
    messages = [] :=
  (eq_of_sublist_of_length_logBytes (List.nil_sublist _) positive (by simp [empty])).symm

section Quiet

variable {vfs : VfsWrites} {state : Unmount} (idle : state.phase = .receiving)
  (empty : state.queue = [])

include idle empty

/-- A thread with nothing to receive lets only the exit take steps. -/
theorem run_of_quiet (interleaving : List UnmountAction) :
    run (unmountStep vfs) state interleaving =
      run (unmountStep vfs) state (List.replicate (interleaving.count .exit) .exit) := by
  induction interleaving generalizing state with
  | nil => rfl
  | cons action interleaving inductionHypothesis =>
      cases action with
      | thread =>
          have blocked : state.threadStep vfs = state := by
            simp only [threadStep, idle, empty]
          rw [run_cons, unmountStep, blocked, inductionHypothesis idle empty]
          simp
      | exit =>
          have next : (state.exitStep vfs).phase = .receiving ∧
              (state.exitStep vfs).queue = [] := by
            rw [exitStep]
            split <;> exact ⟨idle, empty⟩
          rw [run_cons, unmountStep, inductionHypothesis next.1 next.2, List.count_cons_self,
            List.replicate_succ, run_cons, unmountStep]

end Quiet

theorem run_of_returned {vfs : VfsWrites} {state : Unmount} (returned : state.exit = .returned)
    (count : Nat) : run (unmountStep vfs) state (List.replicate count .exit) = state := by
  induction count with
  | zero => rfl
  | succ count inductionHypothesis =>
      have fixed : state.exitStep vfs = state := by
        simp only [exitStep, returned]
      rw [List.replicate_succ, run_cons, unmountStep, fixed, inductionHypothesis]

theorem Accounted.completes_of_quiet {state : Unmount} {batches : List (List Message)}
    {pending : List Message} (accounted : state.Accounted batches pending) (vfs : VfsWrites)
    (idle : state.phase = .receiving) (empty : state.queue = [])
    (kept : state.queued = state.accepted) : state.Completes vfs := by
  intro interleaving returned
  rw [run_of_quiet idle empty] at returned ⊢
  obtain ⟨alone, -⟩ := accounted.run_exitAlone vfs
  have all : 4 ≤ interleaving.count .exit := by
    by_contra few
    have entered := accounted.exit
    generalize interleaving.count UnmountAction.exit = count at few returned
    have early : count = 0 ∨ count = 1 ∨ count = 2 ∨ count = 3 := by omega
    rcases early with rfl | rfl | rfl | rfl <;>
      simp [List.replicate, unmountStep, exitStep, entered] at returned
  have split : List.replicate (interleaving.count UnmountAction.exit) UnmountAction.exit =
      exitAlone ++ List.replicate (interleaving.count UnmountAction.exit - 4) .exit := by
    rw [exitAlone, List.replicate_append_replicate, Nat.add_sub_cancel' all]
  have misses := accounted.exitAlone_misses vfs (by simp [idle])
  have none : state.missing pending = [] := by simp [missing, idle, empty, LogPhase.hasPage,
    LogPhase.held]
  rw [none, kept] at misses
  rw [split, run_append, run_of_returned alone, misses]
  simp [logBytes]

end Unmount

/-- Unmounting completes the trace file, whatever the schedule, exactly when it
starts with the log queue empty, the log thread waiting for a message, and no
record dropped by a full queue before. -/
theorem Unmount.completes_run_iff (vfs : VfsWrites) (page : Memory)
    (actions : List MountedAction) :
    (run (mountedStep vfs) (start page) actions).Completes vfs ↔
      (run (mountedStep vfs) (start page) actions).phase = .receiving ∧
        (run (mountedStep vfs) (start page) actions).queue = [] ∧
        (run (mountedStep vfs) (start page) actions).queued =
          (run (mountedStep vfs) (start page) actions).accepted := by
  obtain ⟨batches, pending, accounted⟩ := accounted_run vfs page actions
  constructor
  · intro completes
    obtain ⟨interleaving, missing, returned, misses, among, quiet⟩ := accounted.exists_missing vfs
    rw [completes interleaving returned] at misses
    have lengths := congrArg List.length misses
    rw [List.length_append] at lengths
    have kept := eq_of_sublist_of_length_logBytes accounted.sublist accounted.positive (by omega)
    have nothing : missing = [] := by
      refine eq_nil_of_length_logBytes (fun message membership => ?_) ?_
      · exact accounted.positive message (accounted.sublist.subset (among membership))
      · rw [kept] at lengths
        omega
    exact ⟨(quiet nothing).1, (quiet nothing).2, kept⟩
  · rintro ⟨idle, empty, kept⟩
    exact accounted.completes_of_quiet vfs idle empty kept

/-- Writes that take everything until the file is closed. -/
def VfsWrites.untilClosed : VfsWrites where
  write := fun isOpen _ data => if isOpen then data.length else -9
  whileOpen := fun _ _ => rfl
  afterClose := by simp

def onlyRecord : TraceRecord := ⟨.mkdir Name.a 0 0, 1, 2, fun _ => 0⟩

/-- A record is still in the queue when the unmount begins, and never reaches
the file. -/
theorem Unmount.not_completes_queued :
    (run (unmountStep .untilClosed)
        (run (mountedStep .untilClosed) (start fun _ => 0) [.trace onlyRecord])
        exitAlone).contents = [] ∧
      logBytes (run (mountedStep .untilClosed) (start fun _ => 0)
        [.trace onlyRecord]).accepted = onlyRecord.bytes ∧
      ¬ (run (mountedStep .untilClosed) (start fun _ => 0) [.trace onlyRecord]).Completes
        .untilClosed := by
  have written : (run (unmountStep .untilClosed)
      (run (mountedStep .untilClosed) (start fun _ => 0) [.trace onlyRecord])
      exitAlone).contents = [] := rfl
  have accepted : logBytes (run (mountedStep .untilClosed) (start fun _ => 0)
      [.trace onlyRecord]).accepted = onlyRecord.bytes := by
    simp [mountedStep, trace, start, trfsMaxTxQMsgs, logBytes, TraceRecord.bytes]
  refine ⟨written, accepted, fun completes => ?_⟩
  have whole := completes exitAlone rfl
  rw [written, accepted] at whole
  exact absurd (congrArg List.length whole) (by decide)

end Tracefs
