import Tracefs.Record.Emission

/-!
# The log thread

`trfs_log_write_func` takes messages from the queue one at a time and collects
them in a page, which it writes to the trace file when the next message would
not fit.  The model is one loop iteration and its repetition over the results
of `trfsMqRecv`; `vfs_write` is a parameter.
-/

namespace Tracefs

open Bytes

def trfsPageSize : Nat := 4096

def trfsLogComplete : Int := 127

/-- One `vfs_write` to the trace file and what it returned. -/
structure WriteAttempt where
  data : List UInt8
  result : Int

def WriteAttempt.written (attempt : WriteAttempt) : List UInt8 :=
  attempt.data.take attempt.result.toNat

/-- The trace file as the history of its writes, oldest first.  It is opened
with `O_TRUNC` at position 0 and each write continues where the last stopped. -/
abbrev TraceFile := List WriteAttempt

def TraceFile.contents (file : TraceFile) : List UInt8 := file.flatMap WriteAttempt.written

/-- The result of a `vfs_write` of the given data; it may depend on all earlier
writes, so every sequence of outcomes is some such function. -/
abbrev VfsWrite := TraceFile → List UInt8 → Int

def trfsFileWrite (vfsWrite : VfsWrite) (filp : Option TraceFile) (data : List UInt8) :
    Int × Option TraceFile :=
  match filp with
  | none => (-13, none)
  | some file =>
      let bytes := vfsWrite file data
      (if bytes = 0 ∨ bytes < 0 then -9 else bytes, some (file ++ [⟨data, bytes⟩]))

/-- The members of the global `tlw` that the log thread uses. -/
structure LogWrite where
  tfile : Option TraceFile
  page : Memory
  pageSize : Int

/-- `tlw` and the locals of `trfs_log_write_func` between two iterations.  The
cursor `buf` is an offset from `tlw.page`; `copies` is the history of the calls
of `memcpy` into the page, as offset and length. -/
structure LogThread where
  tlw : LogWrite
  buf : Nat
  copies : List (Nat × Nat)

namespace LogThread

def start (tfile : Option TraceFile) (page : Memory) : LogThread :=
  ⟨⟨tfile, page, 0⟩, 0, []⟩

/-- `tlw.page[0 .. tlw.page_size)`; the size is passed as an `unsigned int`. -/
def buffered (thread : LogThread) : List UInt8 :=
  thread.tlw.page.load 0 (thread.tlw.pageSize % 2 ^ 32).toNat

def flush (vfsWrite : VfsWrite) (thread : LogThread) : LogThread :=
  { thread with
    tlw := { thread.tlw with
      tfile := (trfsFileWrite vfsWrite thread.tlw.tfile thread.buffered).2
      pageSize := 0 }
    buf := 0 }

/-- `memcpy(buf, msg1, len)` and the updates that follow it. -/
def copy (thread : LogThread) (message : Message) : LogThread where
  tlw := { thread.tlw with
    page := thread.tlw.page.store thread.buf message.bytes
    pageSize := toInt32 (thread.tlw.pageSize + message.len) }
  buf := thread.buf + message.len
  copies := thread.copies ++ [(thread.buf, message.len)]

/-- Flush if the message does not fit, then append it. -/
def append (vfsWrite : VfsWrite) (thread : LogThread) (message : Message) : LogThread :=
  if toInt32 (thread.tlw.pageSize + message.len) > trfsPageSize then
    (thread.flush vfsWrite).copy message
  else thread.copy message

end LogThread

inductive LogTurn where
  | leave (err : Int)
  | next (thread : LogThread)

/-- One iteration, for the result of `trfsMqRecv`: nothing when it is negative. -/
def logTurn (vfsWrite : VfsWrite) (thread : LogThread) : Option Message → LogTurn
  | none => .leave (-22)
  | some message =>
      if message.firstInt = trfsLogComplete then .leave 0
      else .next (thread.append vfsWrite message)

/-- How far the loop has got: blocked in `trfsMqRecv`, or left.  On leaving the
page is freed with what it holds. -/
inductive LogRun where
  | waiting (thread : LogThread)
  | left (err : Int) (thread : LogThread)

def LogRun.thread : LogRun → LogThread
  | waiting thread => thread
  | left _ thread => thread

/-- The loop of `trfs_log_write_func` over the messages it receives. -/
def trfsLogWriteFunc (vfsWrite : VfsWrite) (thread : LogThread) :
    List (Option Message) → LogRun
  | [] => .waiting thread
  | received :: rest =>
      match logTurn vfsWrite thread received with
      | .leave err => .left err thread
      | .next thread => trfsLogWriteFunc vfsWrite thread rest

/-- The message that `trfs_kthread_exit` enqueues: eight bytes of its stack, the
first of which is the variable `exit_msg = 0`. -/
def trfsKthreadExit (stack : Memory) : Message := ⟨stack.store 0 [0], 8⟩

theorem firstInt_record_iff (record : TraceRecord) :
    record.message.firstInt = trfsLogComplete ↔ record.rId = 127#32 := by
  rw [record.firstInt_message, show trfsLogComplete = (127#32).toInt from rfl, BitVec.toInt_inj]

@[simp] theorem trfsLogWriteFunc_nil (vfsWrite : VfsWrite) (thread : LogThread) :
    trfsLogWriteFunc vfsWrite thread [] = .waiting thread := rfl

theorem trfsLogWriteFunc_cons_append (vfsWrite : VfsWrite) (thread : LogThread)
    {message : Message} (other : message.firstInt ≠ trfsLogComplete)
    (rest : List (Option Message)) :
    trfsLogWriteFunc vfsWrite thread (some message :: rest) =
      trfsLogWriteFunc vfsWrite (thread.append vfsWrite message) rest := by
  rw [trfsLogWriteFunc, logTurn, if_neg other]

theorem trfsLogWriteFunc_cons_complete (vfsWrite : VfsWrite) (thread : LogThread)
    {message : Message} (complete : message.firstInt = trfsLogComplete)
    (rest : List (Option Message)) :
    trfsLogWriteFunc vfsWrite thread (some message :: rest) = .left 0 thread := by
  rw [trfsLogWriteFunc, logTurn, if_pos complete]

theorem trfsLogWriteFunc_of_forall_ne (vfsWrite : VfsWrite) (thread : LogThread)
    (messages : List Message) (rest : List (Option Message))
    (others : ∀ message ∈ messages, message.firstInt ≠ trfsLogComplete) :
    trfsLogWriteFunc vfsWrite thread (messages.map some ++ rest) =
      trfsLogWriteFunc vfsWrite (messages.foldl (LogThread.append vfsWrite) thread) rest := by
  induction messages generalizing thread with
  | nil => rfl
  | cons message messages inductionHypothesis =>
      rw [List.map_cons, List.cons_append,
        trfsLogWriteFunc_cons_append _ _ (others message (by simp)), List.foldl_cons]
      exact inductionHypothesis _ fun m hm => others m (by simp [hm])

end Tracefs
