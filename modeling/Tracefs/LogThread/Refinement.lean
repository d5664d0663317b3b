import Tracefs.LogThread.Packing

/-!
# Page buffering is invisible

The abstract logger writes every message to the file at once.  The log thread
simulates it: the bytes in the file and in the page together are the abstract
log.  The simulation relation records more, namely how the messages handled so
far were grouped into writes.
-/

namespace Tracefs

open Bytes

/-- The abstract logger: one write for each message. -/
def directWrite (log : List UInt8) (message : Message) : List UInt8 := log ++ message.bytes

theorem foldl_directWrite (log : List UInt8) (messages : List Message) :
    messages.foldl directWrite log = log ++ logBytes messages := by
  induction messages generalizing log with
  | nil => simp [logBytes]
  | cons message messages inductionHypothesis =>
      simp [inductionHypothesis, directWrite, logBytes]

def writeOf (batch : List Message) : WriteAttempt := ⟨logBytes batch, (logBytes batch).length⟩

@[simp] theorem written_writeOf (batch : List Message) :
    (writeOf batch).written = logBytes batch := by
  simp [writeOf, WriteAttempt.written]

theorem contents_map_writeOf (batches : List (List Message)) :
    TraceFile.contents (batches.map writeOf) = logBytes batches.flatten := by
  induction batches with
  | nil => rfl
  | cons batch batches inductionHypothesis =>
      simp only [TraceFile.contents, List.map_cons, List.flatMap_cons, written_writeOf,
        List.flatten_cons] at *
      rw [inductionHypothesis]
      simp [logBytes]

/-- The file consists of the writes of `batches`, the page holds `pending`. -/
structure Represents (thread : LogThread) (batches : List (List Message))
    (pending : List Message) : Prop where
  safe : thread.PageSafe
  file : thread.tlw.tfile = some (batches.map writeOf)
  size : thread.tlw.pageSize = (logBytes pending).length
  page : thread.tlw.page.load 0 (logBytes pending).length = logBytes pending

namespace Represents

variable {thread : LogThread} {batches : List (List Message)} {pending : List Message}

theorem start (page : Memory) : Represents (.start (some []) page) [] [] :=
  ⟨LogThread.pageSafe_start _ _, rfl, rfl, rfl⟩

theorem holds (represents : Represents thread batches pending) : thread.PageHolds pending :=
  ⟨represents.safe, represents.size, represents.page⟩

theorem ofHolds (holds : thread.PageHolds pending)
    (file : thread.tlw.tfile = some (batches.map writeOf)) : Represents thread batches pending :=
  ⟨holds.safe, file, holds.size, holds.page⟩

/-- The file and the page together are the abstract log. -/
theorem log (represents : Represents thread batches pending) :
    TraceFile.contents (batches.map writeOf) ++ thread.buffered =
      logBytes (batches.flatten ++ pending) := by
  rw [contents_map_writeOf, represents.holds.buffered]
  simp [logBytes]

theorem file_flush (represents : Represents thread batches pending) {vfsWrite : VfsWrite}
    (full : ∀ file data, vfsWrite file data = data.length) :
    (thread.flush vfsWrite).tlw.tfile = some ((batches ++ [pending]).map writeOf) := by
  rw [represents.holds.tfile_flush vfsWrite represents.file, full]
  simp [writeOf]

/-- The step of the simulation: one message is added, whether or not it is
preceded by a flush. -/
theorem append (represents : Represents thread batches pending) {vfsWrite : VfsWrite}
    (full : ∀ file data, vfsWrite file data = data.length) {message : Message}
    (fits : message.len ≤ trfsPageSize) :
    ∃ batches' pending', Represents (thread.append vfsWrite message) batches' pending' ∧
      batches'.flatten ++ pending' = batches.flatten ++ pending ++ [message] := by
  rcases represents.holds.append vfsWrite fits with ⟨flushed, holds⟩ | ⟨copied, holds⟩
  · refine ⟨batches ++ [pending], [message], ofHolds holds ?_, by simp⟩
    rw [flushed]
    exact represents.file_flush full
  · refine ⟨batches, pending ++ [message], ofHolds holds ?_, by simp⟩
    rw [copied]
    exact represents.file

theorem foldl_append (represents : Represents thread batches pending) {vfsWrite : VfsWrite}
    (full : ∀ file data, vfsWrite file data = data.length) (messages : List Message)
    (fit : ∀ message ∈ messages, message.len ≤ trfsPageSize) :
    ∃ batches' pending',
      Represents (messages.foldl (LogThread.append vfsWrite) thread) batches' pending' ∧
        batches'.flatten ++ pending' = batches.flatten ++ pending ++ messages := by
  induction messages generalizing thread batches pending with
  | nil => exact ⟨batches, pending, represents, by simp⟩
  | cons message messages inductionHypothesis =>
      obtain ⟨batches', pending', next, grouped⟩ :=
        represents.append full (fit message (by simp))
      obtain ⟨batches'', pending'', final, regrouped⟩ :=
        inductionHypothesis next fun m hm => fit m (by simp [hm])
      exact ⟨batches'', pending'', final, by simp [regrouped, grouped]⟩

end Represents

/-- At every point of the run over `messages` the thread is still in its loop,
file and page hold what the direct logger has written by then, and every write
to the file is a whole number of messages. -/
def LogsLikeDirectWrite (vfsWrite : VfsWrite) (thread : LogThread) (messages : List Message) :
    Prop :=
  ∀ handled, handled <+: messages →
    ∃ reached file,
      trfsLogWriteFunc vfsWrite thread (handled.map some) = .waiting reached ∧
      reached.tlw.tfile = some file ∧
      TraceFile.contents file ++ reached.buffered = handled.foldl directWrite [] ∧
      ∃ (batches : List (List Message)) (pending : List Message),
        batches.flatten ++ pending = handled ∧
        file.map WriteAttempt.written = batches.map logBytes ∧
        reached.buffered = logBytes pending

/-- The page-buffered log thread refines the direct logger. -/
theorem trfsLogWriteFunc_refines_directWrite (vfsWrite : VfsWrite)
    (full : ∀ file data, vfsWrite file data = data.length) (page : Memory)
    (messages : List Message)
    (admissible : ∀ message ∈ messages, 1 ≤ message.len ∧ message.len ≤ trfsPageSize ∧
      message.firstInt ≠ trfsLogComplete) :
    LogsLikeDirectWrite vfsWrite (.start (some []) page) messages := by
  intro handled isPrefix
  have admitted : ∀ message ∈ handled, message.len ≤ trfsPageSize ∧
      message.firstInt ≠ trfsLogComplete :=
    fun message membership => (admissible message (isPrefix.subset membership)).2
  obtain ⟨batches, pending, represents, grouped⟩ :=
    (Represents.start page).foldl_append full handled fun m hm => (admitted m hm).1
  have appended := trfsLogWriteFunc_of_forall_ne vfsWrite (.start (some []) page) handled []
    fun m hm => (admitted m hm).2
  rw [List.append_nil] at appended
  refine ⟨_, batches.map writeOf, appended, represents.file, ?_, batches, pending, ?_, ?_, ?_⟩
  · rw [represents.log, grouped, foldl_directWrite]
    rfl
  · simpa using grouped
  · simp [Function.comp_def]
  · exact represents.holds.buffered

theorem logsLikeDirectWrite_two_messages :
    LogsLikeDirectWrite (fun _ data => data.length) (.start (some []) fun _ => 0)
      [⟨fun _ => 1, 3000⟩, ⟨fun _ => 2, 3000⟩] := by
  apply trfsLogWriteFunc_refines_directWrite _ (fun _ _ => rfl)
  intro message membership
  rcases List.mem_cons.mp membership with rfl | later
  · exact ⟨by decide, by decide, by decide⟩
  · obtain rfl := List.mem_singleton.mp later
    exact ⟨by decide, by decide, by decide⟩

end Tracefs
