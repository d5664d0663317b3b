import Tracefs.LogThread.Basic
import Tracefs.Record.Bounds
import Mathlib.Data.List.TakeWhile

/-!
# The page of the log thread

Two results about the loop over any sequence of messages: when its page cursor
stays inside the page, and that buffering does not change what is logged.
-/

namespace Tracefs

open Bytes

namespace LogThread

/-! ## Bounds of the page -/

/-- The cursor stands at the end of the buffered bytes, these fit the page, and
so did every copy made so far. -/
structure PageSafe (thread : LogThread) : Prop where
  cursor : (thread.buf : Int) = thread.tlw.pageSize
  nonneg : 0 ≤ thread.tlw.pageSize
  bounded : thread.tlw.pageSize ≤ trfsPageSize
  copiesInside : ∀ copy ∈ thread.copies, copy.1 + copy.2 ≤ trfsPageSize

theorem pageSafe_start (tfile : Option TraceFile) (page : Memory) :
    (start tfile page).PageSafe :=
  ⟨rfl, le_rfl, by simp [start, trfsPageSize], by simp [start]⟩

theorem PageSafe.flush {thread : LogThread} (safe : thread.PageSafe) (vfsWrite : VfsWrite) :
    (thread.flush vfsWrite).PageSafe :=
  ⟨rfl, le_rfl, by simp [LogThread.flush, trfsPageSize], safe.copiesInside⟩

theorem PageSafe.copy {thread : LogThread} (safe : thread.PageSafe) {message : Message}
    (fits : thread.buf + message.len ≤ trfsPageSize) : (thread.copy message).PageSafe := by
  have cursor := safe.cursor
  have sum : toInt32 (thread.tlw.pageSize + message.len) =
      thread.tlw.pageSize + message.len := by
    simp only [trfsPageSize] at fits
    exact toInt32_of_range (by omega) (by omega)
  have nonneg := safe.nonneg
  constructor
  · simp only [LogThread.copy, sum]
    omega
  · simp only [LogThread.copy, sum]
    omega
  · simp only [LogThread.copy, sum]
    omega
  · intro copy membership
    rcases List.mem_append.mp membership with earlier | last
    · exact safe.copiesInside copy earlier
    · obtain rfl := List.mem_singleton.mp last
      exact fits

/-- The step of the loop: a message of at most a page keeps the page safe. -/
theorem PageSafe.append {thread : LogThread} (safe : thread.PageSafe) (vfsWrite : VfsWrite)
    {message : Message} (fits : message.len ≤ trfsPageSize) :
    (thread.append vfsWrite message).PageSafe := by
  unfold LogThread.append
  split
  next => exact (safe.flush vfsWrite).copy (by simpa [LogThread.flush] using fits)
  next notFull =>
    have cursor := safe.cursor
    have bounded := safe.bounded
    simp only [trfsPageSize] at fits bounded notFull
    rw [toInt32_of_range (by omega) (by omega)] at notFull
    exact safe.copy (by simp only [trfsPageSize]; omega)

theorem PageSafe.foldl_append {thread : LogThread} (safe : thread.PageSafe)
    (vfsWrite : VfsWrite) (messages : List Message)
    (fit : ∀ message ∈ messages, message.len ≤ trfsPageSize) :
    (messages.foldl (LogThread.append vfsWrite) thread).PageSafe := by
  induction messages generalizing thread with
  | nil => exact safe
  | cons message messages inductionHypothesis =>
      exact inductionHypothesis (safe.append vfsWrite (fit message (by simp)))
        fun m hm => fit m (by simp [hm])

theorem copies_append (thread : LogThread) (vfsWrite : VfsWrite) (message : Message) :
    ∃ offset, (thread.append vfsWrite message).copies =
      thread.copies ++ [(offset, message.len)] := by
  unfold LogThread.append
  split
  next => exact ⟨0, rfl⟩
  next => exact ⟨thread.buf, rfl⟩

theorem copies_subset_foldl (vfsWrite : VfsWrite) (messages : List Message)
    (thread : LogThread) :
    thread.copies ⊆ (messages.foldl (LogThread.append vfsWrite) thread).copies := by
  induction messages generalizing thread with
  | nil => exact List.Subset.refl _
  | cons message messages inductionHypothesis =>
      obtain ⟨offset, copies⟩ := thread.copies_append vfsWrite message
      refine List.Subset.trans ?_ (inductionHypothesis (thread.append vfsWrite message))
      rw [copies]
      exact List.subset_append_left _ _

theorem exists_copy_of_mem (vfsWrite : VfsWrite) {messages : List Message}
    (thread : LogThread) {message : Message} (membership : message ∈ messages) :
    ∃ offset, (offset, message.len) ∈
      (messages.foldl (LogThread.append vfsWrite) thread).copies := by
  induction messages generalizing thread with
  | nil => simp at membership
  | cons first messages inductionHypothesis =>
      rcases List.mem_cons.mp membership with rfl | later
      · obtain ⟨offset, copies⟩ := thread.copies_append vfsWrite message
        refine ⟨offset, copies_subset_foldl vfsWrite messages _ ?_⟩
        rw [copies]
        simp
      · exact inductionHypothesis (thread.append vfsWrite first) later

end LogThread

/-- The records handled before one with id 127 ends the loop. -/
def handledRecords (records : List TraceRecord) : List TraceRecord :=
  records.takeWhile fun record => record.rId ≠ 127#32

theorem handledRecords_subset {handled records : List TraceRecord}
    (isPrefix : handled <+: records) : handledRecords handled ⊆ handledRecords records := by
  obtain ⟨rest, rfl⟩ := isPrefix
  unfold handledRecords
  rw [List.takeWhile_append]
  split
  next => exact List.Subset.trans (List.takeWhile_subset _) (List.subset_append_left _ _)
  next => exact List.Subset.refl _

theorem thread_trfsLogWriteFunc (vfsWrite : VfsWrite) (thread : LogThread)
    (records : List TraceRecord) :
    (trfsLogWriteFunc vfsWrite thread (records.map fun r => some r.message)).thread =
      ((handledRecords records).map TraceRecord.message).foldl
        (LogThread.append vfsWrite) thread := by
  induction records generalizing thread with
  | nil => rfl
  | cons record records inductionHypothesis =>
      rw [List.map_cons]
      by_cases hit : record.rId = 127#32
      · rw [trfsLogWriteFunc_cons_complete _ _ ((firstInt_record_iff record).mpr hit)]
        simp [handledRecords, hit, LogRun.thread]
      · rw [trfsLogWriteFunc_cons_append _ _ (mt (firstInt_record_iff record).mp hit),
          inductionHypothesis]
        simp [handledRecords, hit]

/-- At every point of the run over `records` the page is safe. -/
def KeepsPageSafe (vfsWrite : VfsWrite) (thread : LogThread) (records : List TraceRecord) :
    Prop :=
  ∀ handled, handled <+: records →
    (trfsLogWriteFunc vfsWrite thread (handled.map fun r => some r.message)).thread.PageSafe

theorem KeepsPageSafe.fitsPage {vfsWrite : VfsWrite} {thread : LogThread}
    {records : List TraceRecord} (safe : KeepsPageSafe vfsWrite thread records) :
    ∀ record ∈ handledRecords records, record.call.FitsPage := by
  intro record membership
  have whole := safe (handledRecords records) (List.takeWhile_prefix _)
  rw [thread_trfsLogWriteFunc, handledRecords, handledRecords, List.takeWhile_idem] at whole
  obtain ⟨offset, copied⟩ := LogThread.exists_copy_of_mem vfsWrite thread
    (List.mem_map_of_mem (f := TraceRecord.message) membership)
  have inside := whole.copiesInside _ copied
  rw [← TracedCall.byteSize_le_page_iff, ← record.len_message]
  exact le_trans (Nat.le_add_left _ _) inside

/-- The page stays safe exactly when only records that fit it are handled. -/
theorem keepsPageSafe_iff (vfsWrite : VfsWrite) (tfile : Option TraceFile) (page : Memory)
    (records : List TraceRecord) :
    KeepsPageSafe vfsWrite (.start tfile page) records ↔
      ∀ record ∈ handledRecords records, record.call.FitsPage := by
  constructor
  · exact KeepsPageSafe.fitsPage
  · intro fit handled isPrefix
    rw [thread_trfsLogWriteFunc]
    apply (LogThread.pageSafe_start tfile page).foldl_append
    intro message membership
    obtain ⟨record, present, rfl⟩ := List.mem_map.mp membership
    rw [record.len_message]
    exact record.call.byteSize_le_page_iff.mpr (fit record (handledRecords_subset isPrefix present))

/-- The write of 8192 bytes in `Tests/sample.c` runs over the page. -/
theorem not_keepsPageSafe_zeroWrite :
    ¬ KeepsPageSafe (fun _ data => data.length) (.start (some []) fun _ => 0)
      [TraceRecord.zeroWrite 8192 (by decide)] := by
  intro safe
  have handled : TraceRecord.zeroWrite 8192 (by decide) ∈
      handledRecords [TraceRecord.zeroWrite 8192 (by decide)] := by
    simp [handledRecords]
  have fits := safe.fitsPage _ handled
  rw [← TracedCall.byteSize_le_page_iff, TraceRecord.byteSize_zeroWrite] at fits
  omega

end Tracefs
