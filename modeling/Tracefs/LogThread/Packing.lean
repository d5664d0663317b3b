import Tracefs.LogThread.PageBuffer

/-!
# What the page holds and what is handed to the file

The page of the log thread is the concatenation of the messages copied since
the last flush.  What a flush hands to `trfs_file_write` is therefore a whole
number of messages, whatever became of the writes before it.
-/

namespace Tracefs

open Bytes

def logBytes (messages : List Message) : List UInt8 := messages.flatMap Message.bytes

@[simp] theorem length_message_bytes (message : Message) :
    message.bytes.length = message.len := by
  simp [Message.bytes]

theorem logBytes_append_singleton (messages : List Message) (message : Message) :
    logBytes (messages ++ [message]) = logBytes messages ++ message.bytes := by
  simp [logBytes]

namespace LogThread

/-- The page holds the messages `pending`, one behind the other. -/
structure PageHolds (thread : LogThread) (pending : List Message) : Prop where
  safe : thread.PageSafe
  size : thread.tlw.pageSize = (logBytes pending).length
  page : thread.tlw.page.load 0 (logBytes pending).length = logBytes pending

namespace PageHolds

variable {thread : LogThread} {pending : List Message}

theorem start (tfile : Option TraceFile) (page : Memory) : (start tfile page).PageHolds [] :=
  ⟨pageSafe_start _ _, rfl, rfl⟩

theorem buffered (holds : thread.PageHolds pending) : thread.buffered = logBytes pending := by
  have bounded := holds.safe.bounded
  rw [holds.size, trfsPageSize] at bounded
  have count : (thread.tlw.pageSize % 2 ^ 32).toNat = (logBytes pending).length := by
    rw [holds.size]
    omega
  rw [LogThread.buffered, count, holds.page]

theorem flush (holds : thread.PageHolds pending) (vfsWrite : VfsWrite) :
    (thread.flush vfsWrite).PageHolds [] :=
  ⟨holds.safe.flush vfsWrite, rfl, rfl⟩

theorem tfile_flush (holds : thread.PageHolds pending) (vfsWrite : VfsWrite) {file : TraceFile}
    (opened : thread.tlw.tfile = some file) :
    (thread.flush vfsWrite).tlw.tfile =
      some (file ++ [⟨logBytes pending, vfsWrite file (logBytes pending)⟩]) := by
  simp only [LogThread.flush, trfsFileWrite, opened, holds.buffered]

theorem copy (holds : thread.PageHolds pending) {message : Message}
    (fits : thread.buf + message.len ≤ trfsPageSize) :
    (thread.copy message).PageHolds (pending ++ [message]) := by
  have cursor : thread.buf = (logBytes pending).length := by
    have placed := holds.safe.cursor
    rw [holds.size] at placed
    exact_mod_cast placed
  have safe := holds.safe.copy fits
  refine ⟨safe, ?_, ?_⟩
  · rw [← safe.cursor, logBytes_append_singleton]
    simp [LogThread.copy, cursor]
  · simp only [LogThread.copy, logBytes_append_singleton, List.length_append]
    rw [Memory.load_add, cursor, Nat.zero_add, Memory.load_store_same,
      Memory.load_store_disjoint _ (by omega), holds.page]

/-- A message is copied into the emptied page or behind what is there. -/
theorem append (holds : thread.PageHolds pending) (vfsWrite : VfsWrite) {message : Message}
    (fits : message.len ≤ trfsPageSize) :
    (thread.append vfsWrite message = (thread.flush vfsWrite).copy message ∧
        (thread.append vfsWrite message).PageHolds [message]) ∨
      (thread.append vfsWrite message = thread.copy message ∧
        (thread.append vfsWrite message).PageHolds (pending ++ [message])) := by
  unfold LogThread.append
  split
  next =>
    refine .inl ⟨rfl, (holds.flush vfsWrite).copy ?_⟩
    simpa [LogThread.flush] using fits
  next notFull =>
    refine .inr ⟨rfl, holds.copy ?_⟩
    have cursor := holds.safe.cursor
    have bounded := holds.safe.bounded
    simp only [trfsPageSize] at fits bounded notFull ⊢
    rw [toInt32_of_range (by omega) (by omega)] at notFull
    omega

end PageHolds

end LogThread

section Packing

variable {Item : Type} (message : Item → Message)

/-- The page holds the messages of `pending`, and the data of each write so far
was that of one of the `groups`. -/
structure Packs (thread : LogThread) (groups : List (List Item)) (pending : List Item) : Prop where
  holds : thread.PageHolds (pending.map message)
  handed : ∃ file, thread.tlw.tfile = some file ∧
    file.map WriteAttempt.data = groups.map fun group => logBytes (group.map message)

namespace Packs

variable {message} {thread : LogThread} {groups : List (List Item)} {pending : List Item}

theorem start (page : Memory) : Packs message (.start (some []) page) [] [] :=
  ⟨.start _ _, [], rfl, rfl⟩

theorem append (packs : Packs message thread groups pending) (vfsWrite : VfsWrite) {item : Item}
    (fits : (message item).len ≤ trfsPageSize) :
    ∃ groups' pending', Packs message (thread.append vfsWrite (message item)) groups' pending' ∧
      groups'.flatten ++ pending' = groups.flatten ++ pending ++ [item] := by
  obtain ⟨file, opened, handed⟩ := packs.handed
  rcases packs.holds.append vfsWrite fits with ⟨flushed, holds⟩ | ⟨copied, holds⟩
  · refine ⟨groups ++ [pending], [item], ⟨holds, ?_⟩, by simp⟩
    rw [flushed]
    exact ⟨_, packs.holds.tfile_flush vfsWrite opened, by simp [handed]⟩
  · refine ⟨groups, pending ++ [item], ⟨by simpa using holds, ?_⟩, by simp⟩
    rw [copied]
    exact ⟨file, opened, handed⟩

/-- Over a whole run the messages handled are grouped, none left out.  The
induction is on the messages; the run ends early at one that reads as the end
of the trace. -/
theorem run (packs : Packs message thread groups pending) (vfsWrite : VfsWrite)
    {items : List Item} (fit : ∀ item ∈ items, (message item).len ≤ trfsPageSize) :
    ∃ groups' pending' handled,
      Packs message (trfsLogWriteFunc vfsWrite thread
        (items.map fun item => some (message item))).thread groups' pending' ∧
        groups'.flatten ++ pending' = groups.flatten ++ pending ++ handled ∧
        handled <+: items := by
  induction items generalizing thread groups pending with
  | nil => exact ⟨groups, pending, [], packs, by simp, List.prefix_refl _⟩
  | cons item items inductionHypothesis =>
      rw [List.map_cons]
      by_cases complete : (message item).firstInt = trfsLogComplete
      · rw [trfsLogWriteFunc_cons_complete _ _ complete]
        exact ⟨groups, pending, [], packs, by simp, List.nil_prefix⟩
      · rw [trfsLogWriteFunc_cons_append _ _ complete]
        obtain ⟨middle, held, next, grouped⟩ := packs.append vfsWrite (fit item (by simp))
        obtain ⟨groups', pending', handled, final, regrouped, isPrefix⟩ :=
          inductionHypothesis next fun m hm => fit m (by simp [hm])
        refine ⟨groups', pending', item :: handled, final, ?_, ?_⟩
        · rw [regrouped, grouped]
          simp
        · exact (List.prefix_cons_inj item).mpr isPrefix

end Packs

end Packing

end Tracefs
