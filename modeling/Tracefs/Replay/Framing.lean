import Tracefs.Record.Bounds
import Tracefs.Replay.Parser

/-!
# Parsing framed records

A record is framed when its size field tells its length.  Over a page that
starts with framed records the record loop handles these one by one, whatever
follows them.  The handlers are assumed to return.
-/

namespace Tracefs

open Bytes

/-- A record whose size field is right. -/
structure FramedRecord where
  bytes : List UInt8
  lower : 7 ≤ bytes.length
  framed : wordValue ((bytes.drop 4).take 2) = bytes.length

/-- Handlers that neither exit nor fault. -/
structure ReturningHandlers (State : Type) where
  handle : Handlers State
  returns : ∀ op page buf state, ∃ next, handle op page buf state = .returned next

def idleHandlers : ReturningHandlers Unit :=
  ⟨fun _ _ _ state => .returned state, fun _ _ _ state => ⟨state, rfl⟩⟩

namespace FramedRecord

def op (record : FramedRecord) : Option ReplayOp := replayDispatch (record.bytes.getD 6 0)

/-- The record handled properly, at its place in the file. -/
def visit (record : FramedRecord) (offset : Nat) : Visit := ⟨offset, record.bytes, record.op⟩

def file (records : List FramedRecord) : List UInt8 := records.flatMap bytes

/-- The visits that handle each record once, in order and from its first byte. -/
def visits : (offset : Nat) → List FramedRecord → List Visit
  | _, [] => []
  | offset, record :: records =>
      record.visit offset :: visits (offset + record.bytes.length) records

@[simp] theorem file_nil : file [] = [] := rfl

@[simp] theorem file_cons (record : FramedRecord) (records : List FramedRecord) :
    file (record :: records) = record.bytes ++ file records := rfl

@[simp] theorem file_append (first second : List FramedRecord) :
    file (first ++ second) = file first ++ file second :=
  List.flatMap_append

@[simp] theorem length_visits (offset : Nat) (records : List FramedRecord) :
    (visits offset records).length = records.length := by
  induction records generalizing offset with
  | nil => rfl
  | cons record records inductionHypothesis => simp [visits, inductionHypothesis]

theorem visits_append (offset : Nat) (first second : List FramedRecord) :
    visits offset (first ++ second) =
      visits offset first ++ visits (offset + (file first).length) second := by
  induction first generalizing offset with
  | nil => rfl
  | cons record first inductionHypothesis =>
      simp [visits, inductionHypothesis, Nat.add_assoc]

theorem file_eq_nil_iff (records : List FramedRecord) : file records = [] ↔ records = [] := by
  cases records with
  | nil => simp
  | cons record records =>
      have lower := record.lower
      simp only [file_cons, List.append_eq_nil_iff, reduceCtorEq, iff_false, not_and]
      intro empty
      simp [empty] at lower

section Placed

variable {page : Memory} {buf : Nat} {record : FramedRecord}

theorem word_rSize (placed : page.load buf record.bytes.length = record.bytes) :
    page.word (buf + 4) 2 = record.bytes.length := by
  have lower := record.lower
  rw [Memory.word, ← record.framed]
  congr 1
  rw [← placed, Memory.drop_load _ _ _ _ (by omega), Memory.take_load _ _ _ _ (by omega)]

theorem store_rType (block : Memory) (placed : page.load buf record.bytes.length = record.bytes) :
    block.store 0 (page.load buf record.bytes.length) 6 = record.bytes.getD 6 0 := by
  have inside : 6 < record.bytes.length := record.lower
  rw [placed, ← Nat.zero_add 6, Memory.store_of_inside block 0 record.bytes inside]
  simp [List.getD_eq_getElem?_getD, inside]

end Placed

end FramedRecord

namespace TraceRecord

theorem seven_le_length_bytes (record : TraceRecord) : 7 ≤ record.bytes.length := by
  have size := record.call.twenty_lt_byteSize
  rw [length_bytes]
  omega

theorem sizeField_bytes (record : TraceRecord) (fits : record.call.SizeFieldFits) :
    wordValue ((record.bytes.drop 4).take 2) = record.bytes.length := by
  have size := record.call.twenty_lt_byteSize
  have field : (record.bytes.drop 4).take 2 = record.memory.load 4 2 := by
    rw [bytes, Message.bytes, len_message, Memory.drop_load _ _ _ _ (by omega),
      Memory.take_load _ _ _ _ (by omega)]
    rfl
  rw [field, length_bytes]
  exact record.rSize_memory.trans (Nat.mod_eq_of_lt (record.call.byteSize_lt_iff.mpr fits))

/-- A record of the kernel is framed when its size fits the field. -/
def framed (record : TraceRecord) (fits : record.call.SizeFieldFits) : FramedRecord where
  bytes := record.bytes
  lower := record.seven_le_length_bytes
  framed := record.sizeField_bytes fits

end TraceRecord

section Rounds

variable {State : Type} (heap : Nat → Memory) (base : Nat) (page : Memory)

def roundVisit (buf rsize : Nat) (handled : List Visit) : Visit :=
  ⟨base + buf, page.load buf rsize,
    replayDispatch ((heap handled.length).store 0 (page.load buf rsize) 6)⟩

theorem parseRound_visits (handle : Handlers State) {buf rsize : Nat}
    {progress next : Progress State}
    (round : (parseRound handle heap base page buf rsize progress).state? = some next) :
    next.visits = progress.visits ++ [roundVisit heap base page buf rsize progress.visits] := by
  unfold parseRound at round
  dsimp only at round
  split at round
  next dispatched =>
    cases round
    rw [roundVisit, dispatched]
  next dispatched =>
    split at round
    next =>
      cases round
      rw [roundVisit, dispatched]
    next =>
      cases round
      rw [roundVisit, dispatched]
    next => cases round

theorem parseRound_returns (handlers : ReturningHandlers State) (buf rsize : Nat)
    (progress : Progress State) :
    ∃ next, parseRound handlers.handle heap base page buf rsize progress = .returned next := by
  unfold parseRound
  dsimp only
  split
  next => exact ⟨_, rfl⟩
  next op _ =>
    obtain ⟨state, returned⟩ := handlers.returns op page buf progress.state
    rw [returned]
    exact ⟨_, rfl⟩

/-- What the record loop does with a non-empty rest: it stops at a record that
does not fit, or it handles one. -/
theorem trfsReadTfileBuf_cases (handle : Handlers State) {fuel buf ret : Nat} {len : Int}
    {progress final : Progress State} (positive : 0 < len)
    (ended : trfsReadTfileBuf handle heap base page fuel buf len progress = .done ret final) :
    (len < ret ∧ final = progress) ∨
      ∃ next fuel', page.word (buf + 4) 2 ≤ len ∧
        parseRound handle heap base page buf (page.word (buf + 4) 2) progress = .returned next ∧
        trfsReadTfileBuf handle heap base page fuel' (buf + page.word (buf + 4) 2)
          (len - page.word (buf + 4) 2) next = .done ret final := by
  cases fuel with
  | zero => cases ended
  | succ fuel =>
      rw [trfsReadTfileBuf, if_neg (by omega)] at ended
      dsimp only at ended
      split at ended
      next tooLong =>
        cases ended
        exact .inl ⟨tooLong, rfl⟩
      next fits =>
        split at ended
        next next round => exact .inr ⟨next, fuel, by omega, round, ended⟩
        next => cases ended
        next => cases ended

theorem trfsReadTfileBuf_visits_grow (handle : Handlers State) {fuel buf : Nat} {len : Int}
    {progress final : Progress State}
    (ended : (trfsReadTfileBuf handle heap base page fuel buf len progress).progress? =
      some final) :
    progress.visits <+: final.visits := by
  induction fuel generalizing buf len progress with
  | zero => cases ended
  | succ fuel inductionHypothesis =>
      rw [trfsReadTfileBuf] at ended
      dsimp only at ended
      split at ended
      next =>
        cases ended
        exact List.prefix_refl _
      next =>
        split at ended
        next =>
          cases ended
          exact List.prefix_refl _
        next =>
          split at ended
          next next round =>
            have later := inductionHypothesis ended
            rw [parseRound_visits heap base page handle (congrArg Outcome.state? round)] at later
            exact (List.prefix_append _ _).trans later
          next next round =>
            cases ended
            rw [parseRound_visits heap base page handle (congrArg Outcome.state? round)]
            exact List.prefix_append _ _
          next => cases ended

/-- A loop that handles one record handles it in its first round. -/
theorem roundVisit_of_visits (handle : Handlers State) {fuel buf : Nat} {len : Int}
    {progress final : Progress State} {visit : Visit}
    (ended : (trfsReadTfileBuf handle heap base page fuel buf len progress).progress? = some final)
    (visited : final.visits = progress.visits ++ [visit]) :
    page.word (buf + 4) 2 ≤ len ∧
      roundVisit heap base page buf (page.word (buf + 4) 2) progress.visits = visit := by
  cases fuel with
  | zero => cases ended
  | succ fuel =>
      rw [trfsReadTfileBuf] at ended
      dsimp only at ended
      split at ended
      next =>
        cases ended
        simp at visited
      next =>
        split at ended
        next =>
          cases ended
          simp at visited
        next fits =>
          refine ⟨not_lt.mp fits, ?_⟩
          split at ended
          next next round =>
            have grows := trfsReadTfileBuf_visits_grow heap base page handle ended
            rw [parseRound_visits heap base page handle (congrArg Outcome.state? round), visited,
              List.prefix_append_right_inj, List.singleton_prefix_cons_iff] at grows
            exact grows
          next next round =>
            cases ended
            rw [parseRound_visits heap base page handle (congrArg Outcome.state? round),
              List.append_cancel_left_eq, List.singleton_inj] at visited
            exact visited
          next => cases ended

theorem trfsReadTfileBuf_fuel (handle : Handlers State) {fuel buf : Nat} {len : Int}
    {progress : Progress State}
    (ended : trfsReadTfileBuf handle heap base page fuel buf len progress ≠ .running)
    (extra : Nat) :
    trfsReadTfileBuf handle heap base page (fuel + extra) buf len progress =
      trfsReadTfileBuf handle heap base page fuel buf len progress := by
  induction fuel generalizing buf len progress with
  | zero => exact absurd rfl ended
  | succ fuel inductionHypothesis =>
      rw [Nat.add_right_comm, trfsReadTfileBuf]
      rw [trfsReadTfileBuf] at ended ⊢
      dsimp only at ended ⊢
      split
      next => rfl
      next positive =>
        rw [if_neg positive] at ended
        split
        next => rfl
        next fits =>
          rw [if_neg fits] at ended
          split
          next next round =>
            rw [round] at ended
            exact inductionHypothesis ended
          next => rfl
          next => rfl

variable {page}

theorem trfsReadTfileBuf_record (handlers : ReturningHandlers State) {record : FramedRecord}
    {buf : Nat} (placed : page.load buf record.bytes.length = record.bytes) {len : Int}
    (fits : record.bytes.length ≤ len) (progress : Progress State) :
    ∃ next, next.visits = progress.visits ++ [record.visit (base + buf)] ∧ ∀ fuel,
      trfsReadTfileBuf handlers.handle heap base page (fuel + 1) buf len progress =
        trfsReadTfileBuf handlers.handle heap base page fuel (buf + record.bytes.length)
          (len - record.bytes.length) next := by
  have lower := record.lower
  obtain ⟨next, round⟩ := parseRound_returns heap base page handlers buf
    record.bytes.length progress
  refine ⟨next, ?_, fun fuel => ?_⟩
  · rw [parseRound_visits heap base page handlers.handle (congrArg Outcome.state? round),
      roundVisit, FramedRecord.store_rType _ placed, placed]
    rfl
  · rw [trfsReadTfileBuf, if_neg (by omega)]
    dsimp only
    rw [FramedRecord.word_rSize placed, if_neg (by omega), round]

/-- Framed records at the cursor are handled one after the other.  The induction
is on the records; the cursor and the length move along. -/
theorem trfsReadTfileBuf_records (handlers : ReturningHandlers State)
    (records : List FramedRecord) {buf : Nat}
    (placed : page.load buf (FramedRecord.file records).length = FramedRecord.file records)
    {len : Int} (fits : (FramedRecord.file records).length ≤ len) (progress : Progress State) :
    ∃ next, next.visits = progress.visits ++ FramedRecord.visits (base + buf) records ∧ ∀ fuel,
      trfsReadTfileBuf handlers.handle heap base page (fuel + records.length) buf len progress =
        trfsReadTfileBuf handlers.handle heap base page fuel
          (buf + (FramedRecord.file records).length)
          (len - (FramedRecord.file records).length) next := by
  induction records generalizing buf len progress with
  | nil => exact ⟨progress, by simp [FramedRecord.visits], by simp⟩
  | cons record records inductionHypothesis =>
      rw [FramedRecord.file_cons, List.length_append] at placed fits
      rw [Memory.load_add] at placed
      obtain ⟨first, rest⟩ := List.append_inj placed (by simp)
      have fitsFirst : (record.bytes.length : Int) ≤ len := by omega
      have fitsRest : ((FramedRecord.file records).length : Int) ≤ len - record.bytes.length := by
        omega
      obtain ⟨middle, middleVisits, step⟩ :=
        trfsReadTfileBuf_record heap base handlers first fitsFirst progress
      obtain ⟨next, nextVisits, later⟩ := inductionHypothesis rest fitsRest middle
      refine ⟨next, ?_, fun fuel => ?_⟩
      · rw [nextVisits, middleVisits, List.append_assoc, FramedRecord.visits, Nat.add_assoc]
        rfl
      · rw [List.length_cons, ← Nat.add_assoc, step, later, FramedRecord.file_cons,
          List.length_append]
        congr 1
        · omega
        · push_cast
          omega

theorem trfsReadTfileBuf_whole (handlers : ReturningHandlers State)
    (records : List FramedRecord) {buf : Nat}
    (placed : page.load buf (FramedRecord.file records).length = FramedRecord.file records)
    (progress : Progress State) :
    ∃ next, next.visits = progress.visits ++ FramedRecord.visits (base + buf) records ∧
      trfsReadTfileBuf handlers.handle heap base page (records.length + 1) buf
        (FramedRecord.file records).length progress = .done 0 next := by
  obtain ⟨next, visits, parsed⟩ :=
    trfsReadTfileBuf_records heap base handlers records placed le_rfl progress
  refine ⟨next, visits, ?_⟩
  rw [Nat.add_comm, parsed, trfsReadTfileBuf, if_pos (by omega)]

end Rounds

end Tracefs
