import Mathlib.Data.Int.Bitwise
import Tracefs.Bytes.Decimal
import Tracefs.Vfs.Ioctl

/-!
# Choosing what is traced

`trctl` turns the text of its command into a bitmap and hands it to the device, which stores it in
the log driver, where the hooks look at it.  The commands are given by their meaning; what the
program reads is their text.
-/

namespace Tracefs

open Bytes Transition

/-- The member `args->bitmap` that `trctl` passes for the argument of `-c`.  `malloc` leaves some
value in it. -/
def trctlBitmap (cmd : List UInt8) (bitmap : BitVec 32) : BitVec 32 :=
  if cmd = [97, 108, 108] then ~~~ (bitmap &&& 0)
  else if cmd = [110, 111, 110, 101] then 0
  else BitVec.ofInt 32 (atoi cmd)

/-- The words `all` and `none`, a decimal number that a `long` holds, with its sign if it is
negative, and a number in hexadecimal notation. -/
inductive TrctlCommand where
  | all
  | none
  | number (bits : Int) (lower : -2 ^ 63 ≤ bits) (upper : bits < 2 ^ 63)
  | hexadecimal (digits : List UInt8)

namespace TrctlCommand

def text : TrctlCommand → List UInt8
  | all => [97, 108, 108]
  | none => [110, 111, 110, 101]
  | number bits _ _ => signedDecimal bits
  | hexadecimal digits => 48 :: 120 :: digits

/-- The operations that a command switches on: for a number those whose bit is set in its two's
complement.  A hexadecimal number is read up to its `x`. -/
def selects : TrctlCommand → TrfsOps → Bool
  | all, _ => true
  | none, _ => false
  | number bits _ _, op => bits.testBit op.code
  | hexadecimal _, _ => false

end TrctlCommand

/-- A run of `trctl` whose argument the kernel can copy, or a traced call with the outcome of its
`kmalloc`. -/
inductive TrctlAction where
  | command (command : TrctlCommand) (malloc : BitVec 32) (kmalloc : Memory)
  | trace (record : TraceRecord) (allocated : Bool)

def TrfsLogDriver.control (driver : TrfsLogDriver) : TrctlAction → TrfsLogDriver
  | .command command malloc kmalloc =>
      (trfsIoctlBitmapOp driver
        (.setBitmap (trctlBitmap command.text malloc) ⟨0, Nat.succ_pos _⟩ kmalloc)).2
  | .trace record allocated => driver.step (.trace record allocated)

/-- The records of the calls that are switched on when they are made and get a buffer. -/
def selectedRecords : (TrfsOps → Bool) → List TrctlAction → List TraceRecord
  | _, [] => []
  | _, .command command _ _ :: actions => selectedRecords command.selects actions
  | selected, .trace record allocated :: actions =>
      if selected record.encoder.gate ∧ allocated then record :: selectedRecords selected actions
      else selectedRecords selected actions

/-- A numeral has no letter in it. -/
theorem signedDecimal_ne {number : Int} {text : List UInt8} {byte : UInt8} (member : byte ∈ text)
    (noMinus : byte ≠ 45) (noDigit : digit? byte = none) : signedDecimal number ≠ text := by
  rintro rfl
  have digit : (digit? byte).isSome := by
    cases number with
    | ofNat number => exact digit?_of_mem_decimal number byte member
    | negSucc number =>
        exact digit?_of_mem_decimal (number + 1) byte (List.mem_of_ne_of_mem noMinus member)
  rw [noDigit] at digit
  cases digit

theorem trctlBitmap_number {bits : Int} (lower : -2 ^ 63 ≤ bits) (upper : bits < 2 ^ 63)
    (malloc : BitVec 32) : trctlBitmap (signedDecimal bits) malloc = BitVec.ofInt 32 bits := by
  have notAll : signedDecimal bits ≠ [97, 108, 108] :=
    signedDecimal_ne (List.mem_cons_self) (by decide) (by decide)
  have notNone : signedDecimal bits ≠ [110, 111, 110, 101] :=
    signedDecimal_ne (List.mem_cons_self) (by decide) (by decide)
  rw [trctlBitmap, if_neg notAll, if_neg notNone, atoi, strtol_signedDecimal lower upper, toInt32]
  apply BitVec.eq_of_toInt_eq
  rw [BitVec.toInt_ofInt, Int.bmod_bmod, ← BitVec.toInt_ofInt]

/-- The bits of the low half of a number. -/
theorem getLsbD_ofInt {width : Nat} (number : Int) {bit : Nat} (inside : bit < width) :
    (BitVec.ofInt width number).getLsbD bit = number.testBit bit := by
  cases number with
  | ofNat number =>
      rw [Int.ofNat_eq_natCast, BitVec.ofInt_natCast, BitVec.getLsbD_ofNat, decide_eq_true inside,
        Bool.true_and]
      rfl
  | negSucc number =>
      rw [BitVec.ofInt_negSucc_eq_not_ofNat, BitVec.getLsbD_not, BitVec.getLsbD_ofNat,
        decide_eq_true inside, Bool.true_and, Bool.true_and]
      rfl

theorem trctlBitmap_hexadecimal (digits : List UInt8) (malloc : BitVec 32) :
    trctlBitmap (48 :: 120 :: digits) malloc = 0 := by
  have zero : strtol (48 :: 120 :: digits) = 0 := by
    rw [strtol_of_digit (by decide)]
    rfl
  rw [trctlBitmap, if_neg (by simp), if_neg (by simp), atoi, zero]
  rfl

theorem complement_and_zero (bitmap : BitVec 32) : ~~~ (bitmap &&& 0) = BitVec.allOnes 32 := by
  simp

/-- The bit that a command sets for an operation is the meaning of the command. -/
theorem getLsbD_trctlBitmap (command : TrctlCommand) (malloc : BitVec 32) (op : TrfsOps) :
    (trctlBitmap command.text malloc).getLsbD op.code = command.selects op := by
  have inside := op.code_lt_width
  cases command with
  | all =>
      rw [TrctlCommand.text, trctlBitmap, if_pos rfl, complement_and_zero, TrctlCommand.selects,
        BitVec.getLsbD_allOnes, decide_eq_true inside]
  | none => simp [TrctlCommand.text, trctlBitmap, TrctlCommand.selects]
  | number bits lower upper =>
      rw [TrctlCommand.text, trctlBitmap_number lower upper, TrctlCommand.selects,
        getLsbD_ofInt bits inside]
  | hexadecimal digits =>
      rw [TrctlCommand.text, trctlBitmap_hexadecimal, TrctlCommand.selects]
      simp

theorem bitmap_control_command (driver : TrfsLogDriver) (command : TrctlCommand)
    (malloc : BitVec 32) (kmalloc : Memory) :
    driver.control (.command command malloc kmalloc) =
      { driver with bitmap := trctlBitmap command.text malloc } := by
  have copied := IoctlSession.word_copyFromUser kmalloc (trctlBitmap command.text malloc)
  simp only [TrfsLogDriver.control, trfsIoctlBitmapOp, copied, BitVec.ofNat_toNat,
    BitVec.setWidth_eq]

/-- The induction over the commands and calls. -/
theorem queue_control {driver : TrfsLogDriver} {selected : TrfsOps → Bool}
    (current : ∀ op : TrfsOps, driver.bitmap.getLsbD op.code = selected op)
    (actions : List TrctlAction) :
    (run TrfsLogDriver.control driver actions).queue =
      driver.queue ++ selectedRecords selected actions := by
  induction actions generalizing driver selected with
  | nil => simp [selectedRecords]
  | cons action actions inductionHypothesis =>
      cases action with
      | command command malloc kmalloc =>
          rw [run_cons, bitmap_control_command, selectedRecords]
          exact inductionHypothesis (getLsbD_trctlBitmap command malloc)
      | trace record allocated =>
          have kept : ∀ op : TrfsOps,
              (driver.control (.trace record allocated)).bitmap.getLsbD op.code = selected op :=
            current
          have emitted := record.emitted_eq driver.bitmap
          rw [current record.encoder.gate] at emitted
          rw [run_cons, inductionHypothesis kept, selectedRecords]
          simp only [TrfsLogDriver.control, TrfsLogDriver.step, emitted, List.append_assoc]
          cases allocated <;> cases selected record.encoder.gate <;> rfl

/-- From the mount on, whatever commands are given between whatever calls, the records offered to
the queue are those of the calls whose operation the last command before them switches on, and for
which there is a buffer.  A new driver traces everything, and a `mknod` counts as a `close`. -/
theorem trctl_controls_trace (bitmap : BitVec 32) (actions : List TrctlAction) :
    (run TrfsLogDriver.control (trfsLogDriverInit bitmap) actions).queue =
      selectedRecords (fun _ => true) actions := by
  have everything : ∀ op : TrfsOps, (trfsLogDriverInit bitmap).bitmap.getLsbD op.code = true := by
    intro op
    rw [trfsLogDriverInit, complement_and_zero, BitVec.getLsbD_allOnes,
      decide_eq_true op.code_lt_width]
  exact queue_control everything actions

end Tracefs
