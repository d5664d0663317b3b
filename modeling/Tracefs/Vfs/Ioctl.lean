import Tracefs.Record.Gate
import Mathlib.Tactic.Common

/-!
# Setting and reading the bitmap

`trctl` sets the bitmap through one command of the character device and reads it
through another.  A bitmap comes back as the result of the system call, on the
same way as an error number.
-/

namespace Tracefs

open Bytes Transition

/-- Whatever `kmalloc` returned, all bits are set. -/
def trfsLogDriverInit (bitmap : BitVec 32) : TrfsLogDriver := ⟨~~~ (bitmap &&& 0), []⟩

/-- `sizeof(trctl_args)`, its only member being the `int` `bitmap`. -/
def sizeofTrctlArgs : Nat := 4

/-- `copy_from_user` of an argument with the given bitmap, of which the last
`left` bytes cannot be read: they become zero.  The result of the call is `left`. -/
def copyFromUser (args : Memory) (bitmap : BitVec 32) (left : Nat) : Memory :=
  args.store 0
    ((wordBytes sizeofTrctlArgs bitmap.toNat).take (sizeofTrctlArgs - left) ++
      List.replicate left 0)

/-- The commands of the device.  Setting takes the user's bitmap, the number of
bytes that cannot be copied and what the allocated `args` holds. -/
inductive IoctlCall where
  | setBitmap (bitmap : BitVec 32) (left : Fin (sizeofTrctlArgs + 1)) (args : Memory)
  | getBitmap

/-- The result of `copy_from_user` is tested for being negative, which it never
is, and then not used. -/
def trfsIoctlBitmapOp (tld : TrfsLogDriver) : IoctlCall → Int × TrfsLogDriver
  | .setBitmap bitmap left args =>
      let args := copyFromUser args bitmap left
      (0, { tld with bitmap := BitVec.ofNat 32 (args.word 0 sizeofTrctlArgs) })
  | .getBitmap => (tld.bitmap.toInt, tld)

/-- What the `ioctl` of the C library returns for a result of the kernel. -/
def ioctlResult (ret : Int) : Int := if -4095 ≤ ret ∧ ret ≤ -1 then -1 else ret

/-- The driver, and the bitmap that the last complete setting asked for. -/
structure IoctlSession where
  tld : TrfsLogDriver
  requested : BitVec 32

namespace IoctlSession

def start (bitmap : BitVec 32) : IoctlSession :=
  ⟨trfsLogDriverInit bitmap, BitVec.allOnes 32⟩

def step (session : IoctlSession) (call : IoctlCall) : IoctlSession where
  tld := (trfsIoctlBitmapOp session.tld call).2
  requested :=
    match call with
    | .setBitmap bitmap left _ => if left = 0 then bitmap else session.requested
    | .getBitmap => session.requested

/-- Reading returns the bitmap requested last.  A setting that could not be
copied is an error and changes nothing. -/
def Answers (session : IoctlSession) (call : IoctlCall) : Prop :=
  let result := trfsIoctlBitmapOp session.tld call
  match call with
  | .setBitmap _ left _ =>
      left ≠ 0 → ioctlResult result.1 = -1 ∧ result.2.bitmap = session.tld.bitmap
  | .getBitmap => ioctlResult result.1 = session.requested.toInt

/-- The argument is copied, or the bitmap is none that looks like an error number
other than -1. -/
def Plain (session : IoctlSession) : IoctlCall → Prop
  | .setBitmap _ left _ => left = 0
  | .getBitmap => ¬ (-4095 ≤ session.requested.toInt ∧ session.requested.toInt ≤ -2)

theorem bitmap_start (bitmap : BitVec 32) :
    (start bitmap).tld.bitmap = (start bitmap).requested := by
  simp [start, trfsLogDriverInit]

theorem word_copyFromUser (args : Memory) (bitmap : BitVec 32) :
    (copyFromUser args bitmap 0).word 0 sizeofTrctlArgs = bitmap.toNat := by
  have whole : (wordBytes sizeofTrctlArgs bitmap.toNat).take sizeofTrctlArgs =
      wordBytes sizeofTrctlArgs bitmap.toNat :=
    List.take_of_length_le (by simp)
  rw [copyFromUser, Nat.sub_zero, whole, List.replicate_zero, List.append_nil]
  exact Memory.word_store_of_lt _ _ bitmap.isLt

theorem ioctlResult_eq_iff (bitmap : BitVec 32) :
    ioctlResult bitmap.toInt = bitmap.toInt ↔
      ¬ (-4095 ≤ bitmap.toInt ∧ bitmap.toInt ≤ -2) := by
  rw [ioctlResult]
  split <;> omega

variable {session : IoctlSession}

theorem answers_iff (current : session.tld.bitmap = session.requested) (call : IoctlCall) :
    session.Answers call ↔ session.Plain call := by
  cases call with
  | setBitmap bitmap left args =>
      -- the result is 0, so that an incomplete copy never shows as an error
      have noError : ioctlResult 0 ≠ -1 := by decide
      simp only [Answers, Plain, trfsIoctlBitmapOp]
      constructor
      · intro reported
        by_contra incomplete
        exact noError (reported incomplete).1
      · intro complete incomplete
        exact absurd complete incomplete
  | getBitmap =>
      simp only [Answers, Plain, trfsIoctlBitmapOp, current]
      exact ioctlResult_eq_iff session.requested

theorem bitmap_step (current : session.tld.bitmap = session.requested) {call : IoctlCall}
    (plain : session.Plain call) :
    (session.step call).tld.bitmap = (session.step call).requested := by
  cases call with
  | setBitmap bitmap left args =>
      obtain rfl : left = 0 := plain
      have copied := word_copyFromUser args bitmap
      simp only [step, trfsIoctlBitmapOp, if_true, Fin.val_zero, copied, BitVec.ofNat_toNat,
        BitVec.setWidth_eq]
  | getBitmap => exact current

/-- Every call of a sequence answers as it should exactly when every argument is
copied and no bitmap that is read looks like an error number. -/
theorem answers_along_iff (bitmap : BitVec 32) (calls : List IoctlCall) :
    Along step Answers (start bitmap) calls ↔ Along step Plain (start bitmap) calls := by
  refine along_iff (fun session => session.tld.bitmap = session.requested) ?_ ?_
    (bitmap_start bitmap) calls
  · exact fun session call current => answers_iff current call
  · intro session call current answers
    exact bitmap_step current ((answers_iff current call).mp answers)

/-- All bits but the lowest read back as -1, and a setting whose argument cannot
be read succeeds and clears the bitmap. -/
theorem not_answers_errnoBitmap :
    (trfsIoctlBitmapOp ⟨0xfffffffe, []⟩ .getBitmap).1 = -2 ∧ ioctlResult (-2) = -1 ∧
      ¬ Along step Answers (start 0)
        [.setBitmap 0xfffffffe 0 fun _ => 0, .getBitmap] ∧
      trfsIoctlBitmapOp ⟨0xffffffff, []⟩ (.setBitmap 5 4 fun _ => 0) = (0, ⟨0, []⟩) ∧
      ¬ Along step Answers (start 0) [.setBitmap 5 4 fun _ => 0] := by
  refine ⟨by decide, by decide, ?_, rfl, ?_⟩
  · rintro ⟨-, answered, -⟩
    have misread : ioctlResult (-2) ≠ -2 := by decide
    exact misread answered
  · rintro ⟨reported, -⟩
    have noError : ioctlResult 0 ≠ -1 := by decide
    exact noError (reported (by decide)).1

end IoctlSession

end Tracefs
