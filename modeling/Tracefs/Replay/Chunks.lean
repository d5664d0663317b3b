import Tracefs.LogThread.Packing
import Tracefs.Replay.Framing
import Tracefs.Replay.Simulation
import Mathlib.Data.List.Forall2

/-!
# From the packer to the parser

The log thread of the kernel module cuts the trace into chunks, `treplay` cuts a
buffer into records.  The only thing they share is the size field of a record.
Every chunk that the log thread hands to the trace file is parsed into exactly
the records that were packed into it.
-/

namespace Tracefs

open Bytes

/-- A message that is a record: its size field tells the enqueued length, and it
fits the page. -/
structure RecordMessage where
  message : Message
  lower : 7 ≤ message.len
  fits : message.len ≤ trfsPageSize
  sized : message.data.word 4 2 = message.len

namespace RecordMessage

theorem sizeField (record : RecordMessage) :
    wordValue ((record.message.bytes.drop 4).take 2) = record.message.bytes.length := by
  have lower := record.lower
  rw [length_message_bytes, Message.bytes, Memory.drop_load _ _ _ _ (by omega),
    Memory.take_load _ _ _ _ (by omega)]
  exact record.sized

def framed (record : RecordMessage) : FramedRecord where
  bytes := record.message.bytes
  lower := by
    rw [length_message_bytes]
    exact record.lower
  framed := record.sizeField

theorem logBytes_map (records : List RecordMessage) :
    logBytes (records.map message) = FramedRecord.file (records.map framed) := by
  simp [logBytes, FramedRecord.file, List.flatMap_map, framed]

end RecordMessage

section Parsing

variable {State : Type}

/-- The parser, given `chunk` alone, ends with 0 and has dispatched `records`,
each once, in order and from its first byte. -/
def ParsesTo (handle : Handlers State) (chunk : List UInt8) (records : List FramedRecord) : Prop :=
  ∀ (heap : Nat → Memory) (page : Memory) (state : State), page.load 0 chunk.length = chunk →
    ∃ fuel final, final.visits = FramedRecord.visits 0 records ∧
      trfsReadTfileBuf handle heap 0 page fuel 0 chunk.length ⟨state, []⟩ = .done 0 final

theorem parsesTo_file (handlers : ReturningHandlers State) (records : List FramedRecord) :
    ParsesTo handlers.handle (FramedRecord.file records) records := by
  intro heap page state placed
  obtain ⟨final, visits, parsed⟩ :=
    trfsReadTfileBuf_whole heap 0 handlers records placed ⟨state, []⟩
  exact ⟨records.length + 1, final, by simpa using visits, parsed⟩

/-- Handlers of which every call without a defined end has been made to return. -/
def Handlers.defined (handle : Handlers State) : Handlers State :=
  fun op page buf state =>
    match handle op page buf state with
    | .fault => .returned state
    | outcome => outcome

/-- Runs with the same states. -/
def sameRun : Simulation State State where
  going := Eq
  exits := Eq
  stopped _ := False

theorem sameRun_calls_defined (handle : Handlers State) :
    sameRun.Calls handle handle.defined := by
  rintro op page buf state _ rfl
  unfold Handlers.defined
  cases handle op page buf state with
  | returned next => exact .returned rfl
  | exited next => exact .exited rfl
  | fault => exact .fault

theorem sameRun_eq {left right : Progress State}
    (same : left.state = right.state ∧ left.visits = right.visits) : left = right := by
  cases left
  cases right
  rw [Progress.mk.injEq]
  exact same

/-- A run of the parser has no defined end, or none of its handlers' calls had none. -/
theorem trfsReadTfileBuf_fault_or (handle : Handlers State) (heap : Nat → Memory) (base : Nat)
    (page : Memory) (fuel buf : Nat) (len : Int) (progress : Progress State) :
    trfsReadTfileBuf handle heap base page fuel buf len progress = .fault ∨
      trfsReadTfileBuf handle heap base page fuel buf len progress =
        trfsReadTfileBuf handle.defined heap base page fuel buf len progress := by
  have parses : sameRun.Parses (trfsReadTfileBuf handle heap base page fuel buf len progress)
      (trfsReadTfileBuf handle.defined heap base page fuel buf len progress) :=
    Simulation.trfsReadTfileBuf (sameRun_calls_defined handle) heap base page fuel buf len
      ⟨rfl, rfl⟩
  generalize trfsReadTfileBuf handle heap base page fuel buf len progress = left at parses ⊢
  generalize trfsReadTfileBuf handle.defined heap base page fuel buf len progress = right
    at parses ⊢
  cases parses with
  | done ret same => exact .inr (congrArg (Parsed.done ret) (sameRun_eq same))
  | exited same => exact .inr (congrArg Parsed.exited (sameRun_eq same))
  | stopped never => cases never
  | fault => exact .inl rfl
  | running => exact .inr rfl

end Parsing

/-- Outside the strict mode no handler ends the program. -/
theorem ReplayOp.run_ne_exited (env : Environment) (replayOp : ReplayOp) (page : Memory) (op : Nat)
    (state final : Replay) : replayOp.run env 0 page op state ≠ .exited final := by
  have compared (same : Bool) (called : Replay) : mapRetval 0 same called ≠ .exited final := by
    cases same <;> simp [mapRetval]
  cases replayOp with
  | mkdir | rmdir | unlink | write => exact compared _ _
  | read =>
      simp only [ReplayOp.run, trfsRunReadOp, runCompared]
      split
      next => exact compared _ _
      next => simp
  | setxattr | getxattr | listxattr | removexattr =>
      simp only [ReplayOp.run, trfsRunSetxattrOp, trfsRunGetxattrOp, trfsRunListxattrOp,
        trfsRunRemovexattrOp, runXattr]
      exact compared _ _
  | link | symlink | rename =>
      simp only [ReplayOp.run, trfsRunLinkOp, trfsRunSymlinkOp, trfsRunRenameOp, runCompared]
      split
      next => simp
      next => exact compared _ _
  | openFile | close | trunct =>
      simp [ReplayOp.run, trfsRunTrunctOp, trfsRunOpenOp, trfsRunCloseOp]

/-- The handlers of `treplay` without options, where they have a defined end. -/
def replayHandlers (env : Environment) : ReturningHandlers Replay where
  handle := Handlers.defined (ReplayOp.run env 0)
  returns := by
    intro op page buf state
    unfold Handlers.defined
    cases called : op.run env 0 page buf state with
    | returned next => exact ⟨next, rfl⟩
    | exited next => exact absurd called (op.run_ne_exited env page buf state next)
    | fault => exact ⟨state, rfl⟩

/-- A chunk consists of `records` and is parsed into them, by any handlers that
return and by those of `treplay` unless one of these has no defined end. -/
structure Unpacks (chunk : List UInt8) (records : List FramedRecord) : Prop where
  bytes : chunk = FramedRecord.file records
  parses : ∀ {State : Type} (handlers : ReturningHandlers State),
    ParsesTo handlers.handle chunk records
  replays : ∀ (env : Environment) (heap : Nat → Memory) (page : Memory) (state : Replay),
    page.load 0 chunk.length = chunk →
      ∃ fuel final, final.visits = FramedRecord.visits 0 records ∧
        (trfsReadTfileBuf (ReplayOp.run env 0) heap 0 page fuel 0 chunk.length ⟨state, []⟩ =
            .fault ∨
          trfsReadTfileBuf (ReplayOp.run env 0) heap 0 page fuel 0 chunk.length ⟨state, []⟩ =
            .done 0 final)

theorem unpacks_file (records : List FramedRecord) :
    Unpacks (FramedRecord.file records) records where
  bytes := rfl
  parses handlers := parsesTo_file handlers records
  replays env heap page state placed := by
    obtain ⟨fuel, final, visits, parsed⟩ :=
      parsesTo_file (replayHandlers env) records heap page state placed
    refine ⟨fuel, final, visits, ?_⟩
    rw [← parsed]
    exact trfsReadTfileBuf_fault_or _ _ _ _ _ _ _ _

/-- Every chunk that the log thread hands to the trace file, after any records
and any results of the writes, is parsed into the records packed into it; the
chunks together with what is left in the page are the records handled. -/
theorem chunks_parse (vfsWrite : VfsWrite) (page : Memory) (records : List RecordMessage) :
    ∃ file groups pending,
      (trfsLogWriteFunc vfsWrite (.start (some []) page)
        (records.map fun record => some record.message)).thread.tlw.tfile = some file ∧
      groups.flatten ++ pending <+: records ∧
      List.Forall₂ (fun attempt group =>
        Unpacks attempt.data (group.map RecordMessage.framed)) file groups := by
  obtain ⟨groups, pending, handled, packs, grouped, isPrefix⟩ :=
    (Packs.start page).run vfsWrite fun record (_ : record ∈ records) => record.fits
  obtain ⟨file, opened, handed⟩ := packs.handed
  refine ⟨file, groups, pending, opened, ?_, ?_⟩
  · rw [grouped]
    simpa using isPrefix
  · have chunks : List.Forall₂ (fun chunk group => Unpacks chunk (group.map RecordMessage.framed))
        (file.map WriteAttempt.data) groups := by
      rw [handed, List.forall₂_map_left_iff, List.forall₂_same]
      intro group _
      rw [RecordMessage.logBytes_map]
      exact unpacks_file _
    exact List.forall₂_map_left_iff.mp chunks

end Tracefs
