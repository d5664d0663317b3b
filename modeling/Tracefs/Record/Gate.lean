import Tracefs.Record.Stores
import Tracefs.Transition

/-!
# The input filter

`IS_TRACE_ENABLED` lets a call through when a bit of `tld->bitmap` is set.  Each
of the fifteen functions names its bit by hand.  The bitmap is changed at any
time, so the statements are about sequences of calls and changes.
-/

namespace Tracefs

open Bytes Transition

/-- The operation number that the header defines for a kind of call. -/
def OpKind.op : OpKind → TrfsOps
  | openFile => .openFile
  | read => .read
  | write => .write
  | close => .close
  | mkdir => .mkdir
  | rmdir => .rmdir
  | unlink => .unlink
  | link => .link
  | symlink => .symlink
  | mknod => .mknod
  | rename => .rename
  | setxattr => .setxattr
  | getxattr => .getxattr
  | listxattr => .listxattr
  | removexattr => .removexattr

def testBitSet (a : BitVec 32) (n : Nat) : BitVec 32 := (1#32 <<< n) &&& a

/-- What a call enqueues under a bitmap: nothing, or the record it makes. -/
def TraceRecord.emitted (record : TraceRecord) (bitmap : BitVec 32) : Option TraceRecord :=
  if testBitSet bitmap record.encoder.gate.code = 0 then none else some record

/-- A record without its id. -/
def TraceRecord.contents (record : TraceRecord) : List UInt8 := record.bytes.drop 4

/-- `tld->bitmap` and the records offered to the queue so far. -/
structure TrfsLogDriver where
  bitmap : BitVec 32
  queue : List TraceRecord

/-- A trace call is given as the record it makes when it is let through and `kmalloc` has a buffer
for it. -/
inductive TraceAction where
  | setBitmap (bitmap : BitVec 32)
  | trace (record : TraceRecord) (allocated : Bool)

def TraceAction.isMknod : TraceAction → Bool
  | .setBitmap _ => false
  | .trace record _ => record.call.kind = .mknod

namespace TrfsLogDriver

/-- Without a buffer `TRFS_WRITE` passes a NULL pointer on, which `trfsMqSend` refuses. -/
def step (driver : TrfsLogDriver) : TraceAction → TrfsLogDriver
  | .setBitmap bitmap => { driver with bitmap := bitmap }
  | .trace record allocated =>
      { driver with
        queue := driver.queue ++ if allocated then (record.emitted driver.bitmap).toList else [] }

/-- The call enqueues its record if its own bit is set and it has got a buffer, and
nothing otherwise.  With any other bit flipped, and under any id, it enqueues the
same contents. -/
def GatesByOwnBit (driver : TrfsLogDriver) : TraceAction → Prop
  | .setBitmap _ => True
  | .trace record allocated =>
      let own := record.call.kind.op.code
      (driver.step (.trace record allocated)).queue =
          driver.queue ++ (if driver.bitmap.getLsbD own ∧ allocated then [record] else []) ∧
        ∀ bit < 32, bit ≠ own → ∀ rId,
          ({ record with rId := rId }.emitted (driver.bitmap ^^^ BitVec.twoPow 32 bit)).map
              TraceRecord.contents =
            (record.emitted driver.bitmap).map TraceRecord.contents

end TrfsLogDriver

theorem TrfsOps.code_lt_width (op : TrfsOps) : op.code < 32 := by
  cases op <;> decide

theorem testBitSet_eq_zero_iff (a : BitVec 32) {n : Nat} (inside : n < 32) :
    testBitSet a n = 0 ↔ ¬ a.getLsbD n := by
  have nonzero : BitVec.twoPow 32 n ≠ 0#32 := by
    intro zero
    have selected := congrArg (fun bits => bits.getLsbD n) zero
    simp [inside] at selected
  rw [testBitSet, ← BitVec.twoPow_eq, BitVec.and_comm, BitVec.and_twoPow]
  cases a.getLsbD n with
  | false => simp
  | true => simpa using nonzero

theorem getLsbD_flip (a : BitVec 32) {bit other : Nat} (inside : bit < 32) :
    (a ^^^ BitVec.twoPow 32 bit).getLsbD other = (a.getLsbD other ^^ decide (bit = other)) := by
  by_cases same : bit = other
  · subst same
    simp [inside]
  · simp [same]

namespace TraceRecord

theorem emitted_eq (record : TraceRecord) (bitmap : BitVec 32) :
    record.emitted bitmap =
      if bitmap.getLsbD record.encoder.gate.code then some record else none := by
  rw [emitted]
  simp only [testBitSet_eq_zero_iff bitmap (TrfsOps.code_lt_width _)]
  cases bitmap.getLsbD record.encoder.gate.code <;> rfl

/-- Only the first four bytes of a record depend on its id. -/
theorem contents_rId (record : TraceRecord) (rId : BitVec 32) :
    { record with rId := rId }.contents = record.contents := by
  have long : 4 ≤ record.call.byteSize := by
    have size := record.call.twenty_lt_byteSize
    omega
  obtain ⟨idAt, idWidth, -⟩ := record.encoder.header
  have emitted (id : BitVec 32) : { record with rId := id }.contents =
      (record.encoder.fill id record.heap).load 4 (record.call.byteSize - 4) := by
    rw [contents, bytes, Message.bytes, len_message, Memory.drop_load _ _ _ _ long]
    rfl
  have kept (id : BitVec 32) (index : Nat) : record.encoder.fill id record.heap (4 + index) =
      (record.encoder.stores id).tail.foldl (Store.apply record.encoder.decl) record.heap
        (4 + index) := by
    refine Store.foldl_congr record.encoder.decl (record.encoder.stores id).tail ?_
    apply Store.apply_of_not_covers
    simp only [Store.Covers, Store.offset, Store.bytes, length_wordBytes, idAt, idWidth]
    omega
  refine (emitted rId).trans (Eq.trans ?_ (emitted record.rId).symm)
  apply Memory.load_congr
  intro index _
  rw [kept, kept]
  rfl

theorem contents_emitted (record : TraceRecord) (rId bitmap : BitVec 32) :
    ({ record with rId := rId }.emitted bitmap).map contents =
      if bitmap.getLsbD record.encoder.gate.code then some record.contents else none := by
  rw [emitted_eq, ← record.contents_rId rId]
  exact apply_ite (Option.map contents) _ _ _

end TraceRecord

/-- The gate of every encoder but that of `mknod` has the number of its kind. -/
theorem TracedCall.gate_encoder (call : TracedCall) (pid : BitVec 32) :
    (call.encoder pid).gate = if call.kind = .mknod then .close else call.kind.op := by
  cases call <;> rfl

namespace TrfsLogDriver

variable (driver : TrfsLogDriver) (record : TraceRecord) (allocated : Bool)

theorem gatesByOwnBit_of_ne_mknod (other : record.call.kind ≠ .mknod) :
    driver.GatesByOwnBit (.trace record allocated) := by
  have gate : record.encoder.gate = record.call.kind.op := by
    rw [TraceRecord.encoder, TracedCall.gate_encoder, if_neg other]
  refine ⟨?_, fun bit inside different rId => ?_⟩
  · simp only [step, record.emitted_eq, gate]
    cases allocated <;> cases driver.bitmap.getLsbD record.call.kind.op.code <;> rfl
  · have unflipped : (driver.bitmap ^^^ BitVec.twoPow 32 bit).getLsbD record.encoder.gate.code =
        driver.bitmap.getLsbD record.encoder.gate.code := by
      rw [getLsbD_flip _ inside, gate]
      simp [different]
    rw [record.contents_emitted rId, unflipped]
    exact (record.contents_emitted record.rId driver.bitmap).symm

/-- A call of `mknod` follows the bit of `close`. -/
theorem not_gatesByOwnBit_of_mknod (mknod : record.call.kind = .mknod) :
    ¬ driver.GatesByOwnBit (.trace record allocated) := by
  rintro ⟨-, independent⟩
  have gate : record.encoder.gate = .close := by
    rw [TraceRecord.encoder, TracedCall.gate_encoder, if_pos mknod]
  have flipped := independent 24 (by decide) (by rw [mknod]; decide) record.rId
  have plain := record.contents_emitted record.rId driver.bitmap
  rw [record.contents_emitted, getLsbD_flip _ (by decide), gate] at flipped
  rw [gate] at plain
  rw [plain] at flipped
  generalize driver.bitmap.getLsbD TrfsOps.close.code = set at flipped
  cases set <;> simp [TrfsOps.code] at flipped

/-- A sequence of calls and of changes of the bitmap is filtered by the calls' own
bits exactly when no `mknod` is among them. -/
theorem gatesByOwnBit_along_iff (actions : List TraceAction) :
    Along step GatesByOwnBit driver actions ↔ ∀ action ∈ actions, action.isMknod = false := by
  rw [← along_forall_iff step (fun action => action.isMknod = false) driver]
  refine along_iff (fun _ => True) ?_ (fun _ _ _ _ => trivial) trivial actions
  intro driver action _
  cases action with
  | setBitmap bitmap => simp [GatesByOwnBit, TraceAction.isMknod]
  | trace record allocated =>
      simp only [TraceAction.isMknod, decide_eq_false_iff_not]
      constructor
      · intro gates mknod
        exact not_gatesByOwnBit_of_mknod driver record allocated mknod gates
      · exact gatesByOwnBit_of_ne_mknod driver record allocated

/-- With the bit of `mknod` set and that of `close` not, a call of `mknod` enqueues
nothing. -/
theorem not_gatesByOwnBit_mknod :
    ¬ Along step GatesByOwnBit ⟨0xffffffff, []⟩
      [.setBitmap 0x100, .trace ⟨.mknod Name.a 0, 1, 2, fun _ => 0⟩ true] := by
  rintro ⟨-, ⟨queued, -⟩, -⟩
  have lengths := congrArg List.length queued
  revert lengths
  decide

end TrfsLogDriver

end Tracefs
