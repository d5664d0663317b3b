import Tracefs.LogThread.Basic
import Tracefs.Record.RecordId

/-!
# Control messages of the log thread

Records and the shutdown message share one queue and are told apart by their
first `int` alone.  In a record that `int` is the record id, a running counter;
in the shutdown message its low byte is the variable `exit_msg`.
-/

namespace Tracefs

open Bytes

/-- A record whose id was handed out in the run `actions`. -/
structure IssuedRecord (actions : List IdAction) extends TraceRecord where
  issued : rId ∈ IdCounter.handedOut actions

/-- A message as the log thread meets it. -/
inductive Dequeued (actions : List IdAction) where
  | record (issued : IssuedRecord actions)
  | shutdown (stack : Memory)

namespace Dequeued

variable {actions : List IdAction}

def message : Dequeued actions → Message
  | record issued => issued.toTraceRecord.message
  | shutdown stack => trfsKthreadExit stack

def IsShutdown : Dequeued actions → Prop
  | record _ => False
  | shutdown _ => True

def sequence (records : List (IssuedRecord actions)) (exit : Option Memory) :
    List (Dequeued actions) :=
  records.map record ++ exit.toList.map shutdown

end Dequeued

/-- Each message that the thread gets to handle makes it leave its loop if and
only if it is the shutdown message, which leaves page and file as they are. -/
def LeavesExactlyOnShutdown {actions : List IdAction} (vfsWrite : VfsWrite)
    (thread : LogThread) (dequeued : List (Dequeued actions)) : Prop :=
  ∀ before current after reached, dequeued = before ++ current :: after →
    trfsLogWriteFunc vfsWrite thread (before.map fun d => some d.message) = .waiting reached →
      ((∃ err, logTurn vfsWrite reached (some current.message) = .leave err) ↔
        current.IsShutdown) ∧
      (current.IsShutdown →
        (trfsLogWriteFunc vfsWrite reached [some current.message]).thread = reached)

section

variable {actions : List IdAction} (vfsWrite : VfsWrite) (thread : LogThread)

theorem logTurn_leave_iff (message : Message) :
    (∃ err, logTurn vfsWrite thread (some message) = .leave err) ↔
      message.firstInt = trfsLogComplete := by
  rw [logTurn]
  split <;> simp [*]

/-- The low byte of the control word of the shutdown message is 0. -/
theorem word_trfsKthreadExit_mod (stack : Memory) :
    (trfsKthreadExit stack).data.word 0 4 % 256 = 0 := by
  rw [Memory.word, Memory.load_succ, wordValue_cons_mod]
  rfl

theorem firstInt_trfsKthreadExit_ne (stack : Memory) :
    (trfsKthreadExit stack).firstInt ≠ trfsLogComplete := by
  intro complete
  have low := word_trfsKthreadExit_mod stack
  have small := (trfsKthreadExit stack).data.word_lt 0 4
  have residue := congrArg (· % (2 ^ 32 : Int)) complete
  simp only [Message.firstInt, toInt32, trfsLogComplete] at residue
  rw [show (2 ^ 32 : Int) = ((2 ^ 32 : Nat) : Int) by norm_num, Int.bmod_emod] at residue
  omega

theorem map_message_records (records : List (IssuedRecord actions)) :
    (records.map Dequeued.record).map (fun d => some d.message) =
      (records.map fun r => r.toTraceRecord.message).map some := by
  simp [Function.comp_def, Dequeued.message]

theorem waiting_of_forall_ne {records : List (IssuedRecord actions)}
    (others : ∀ record ∈ records, record.rId ≠ 127#32) :
    ∃ reached, trfsLogWriteFunc vfsWrite thread
      ((records.map Dequeued.record).map fun d => some d.message) = .waiting reached := by
  have control : ∀ message ∈ records.map (fun r => r.toTraceRecord.message),
      message.firstInt ≠ trfsLogComplete := by
    intro message membership
    obtain ⟨record, present, rfl⟩ := List.mem_map.mp membership
    exact fun complete => others record present ((firstInt_record_iff _).mp complete)
  have appended := trfsLogWriteFunc_of_forall_ne vfsWrite thread _ [] control
  rw [map_message_records]
  exact ⟨_, by simpa using appended⟩

namespace LeavesExactlyOnShutdown

variable {vfsWrite thread} {records : List (IssuedRecord actions)} {exit : Option Memory}

/-- The first record with id 127, if there is one, ends the loop. -/
theorem rId_ne (leavesExactly : LeavesExactlyOnShutdown vfsWrite thread
    (Dequeued.sequence records exit)) : ∀ record ∈ records, record.rId ≠ 127#32 := by
  by_contra! collision
  have found : (records.find? fun r => r.rId = 127#32).isSome := by
    simpa using collision
  obtain ⟨record, first⟩ := Option.isSome_iff_exists.mp found
  obtain ⟨hit, before, after, split, others⟩ := List.find?_eq_some_iff_append.mp first
  have ordinary : ∀ record ∈ before, record.rId ≠ 127#32 := by simpa using others
  obtain ⟨reached, waits⟩ := waiting_of_forall_ne vfsWrite thread ordinary
  have sequence : Dequeued.sequence records exit = before.map .record ++
      .record record :: (after.map .record ++ exit.toList.map .shutdown) := by
    simp [Dequeued.sequence, split]
  have leaves := (logTurn_leave_iff vfsWrite reached record.toTraceRecord.message).mpr
    ((firstInt_record_iff _).mpr (by simpa using hit))
  exact (leavesExactly _ _ _ reached sequence waits).1.mp leaves

theorem no_shutdown (leavesExactly : LeavesExactlyOnShutdown vfsWrite thread
    (Dequeued.sequence records exit)) : exit = none := by
  cases exit with
  | none => rfl
  | some stack =>
      obtain ⟨reached, waits⟩ := waiting_of_forall_ne vfsWrite thread leavesExactly.rId_ne
      have leaves := (leavesExactly _ (.shutdown stack) [] reached rfl waits).1.mpr trivial
      exact absurd ((logTurn_leave_iff vfsWrite reached _).mp leaves)
        (firstInt_trfsKthreadExit_ne stack)

end LeavesExactlyOnShutdown

/-- The loop is left exactly on shutdown in the runs that contain neither a
record with id 127 nor a shutdown message. -/
theorem leavesExactlyOnShutdown_iff (records : List (IssuedRecord actions))
    (exit : Option Memory) :
    LeavesExactlyOnShutdown vfsWrite thread (Dequeued.sequence records exit) ↔
      (∀ record ∈ records, record.rId ≠ 127#32) ∧ exit = none := by
  constructor
  · exact fun leavesExactly => ⟨leavesExactly.rId_ne, leavesExactly.no_shutdown⟩
  · rintro ⟨others, rfl⟩ before current after reached sequence -
    have membership : current ∈ records.map Dequeued.record := by
      have present : current ∈ Dequeued.sequence records none := by simp [sequence]
      simpa [Dequeued.sequence] using present
    obtain ⟨record, present, rfl⟩ := List.mem_map.mp membership
    have stays : ¬ ∃ err, logTurn vfsWrite reached
        (some (Dequeued.record record).message) = .leave err := by
      rw [logTurn_leave_iff]
      exact fun complete => others record present ((firstInt_record_iff _).mp complete)
    exact ⟨⟨fun leaves => (stays leaves).elim, False.elim⟩, False.elim⟩

end

/-- The records of 126 `mkdir` calls traced one after the other. -/
def firstRecords : List (IssuedRecord (IdCounter.getNextRecordId 126)) :=
  (IdCounter.handedOut (IdCounter.getNextRecordId 126)).attach.map fun id =>
    { call := .mkdir Name.a 0 0
      pid := 1
      rId := id.1
      heap := fun _ => 0
      issued := id.2 }

theorem exists_firstRecords_rId : ∃ record ∈ firstRecords, record.rId = 127#32 := by
  have issued : 127#32 ∈ IdCounter.handedOut (IdCounter.getNextRecordId 126) := by
    rw [IdCounter.handedOut, IdCounter.start, IdCounter.run_getNextRecordId]
    exact List.mem_append_right _ (List.mem_map.mpr ⟨125, by simp, by decide⟩)
  exact ⟨_, List.mem_map.mpr ⟨⟨_, issued⟩, List.mem_attach _ _, rfl⟩, rfl⟩

/-- The record of the 126th call ends the loop, and a shutdown message on its
own does not. -/
theorem not_leavesExactlyOnShutdown :
    ¬ LeavesExactlyOnShutdown (fun _ data => data.length) (.start (some []) fun _ => 0)
      (Dequeued.sequence firstRecords none) ∧
    ¬ LeavesExactlyOnShutdown (fun _ data => data.length) (.start (some []) fun _ => 0)
      (Dequeued.sequence ([] : List (IssuedRecord [])) (some fun _ => 0)) := by
  constructor
  · intro leavesExactly
    obtain ⟨record, membership, hit⟩ := exists_firstRecords_rId
    exact leavesExactly.rId_ne record membership hit
  · intro leavesExactly
    cases leavesExactly.no_shutdown

end Tracefs
