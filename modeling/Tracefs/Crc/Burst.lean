import Mathlib.Algebra.Ring.Nat
import Tracefs.Crc.Checksum

/-!
# Corruption confined to four bytes

Two strings that differ in one block leave registers whose difference is the run of the block's
differences alone, and the suffix carries a nonzero difference on because the step is injective.
Inside the block the argument runs backwards.  A step that ends at a small register had a zero low
byte and no sign to copy, so it only moved the register down; a block of at most four bytes that
ends at zero therefore never left zero.  Both facts rest on the top bytes of the table.
-/

namespace Tracefs.Crc

open Tracefs

/-- The first entry alone has a zero top byte, and no entry has its nine top bits set. -/
theorem crc32TabG_top : ∀ index : Fin 256,
    ((crc32TabG.getD index 0#32).toNat < 2 ^ 24 → index = 0) ∧
      2 ^ 23 ≤ (~~~crc32TabG.getD index 0#32).toNat := by
  decide +kernel

theorem lowByte_of_entry_small (register : BitVec 32)
    (small : (crc32TabG.getD (register &&& 0xff#32).toNat 0#32).toNat < 2 ^ 24) :
    register.toNat % 256 = 0 := by
  have first := (crc32TabG_top ⟨_, lowByte_lt register⟩).1 small
  rw [← toNat_lowByte]
  exact congrArg Fin.val first

theorem not_entry_large (register : BitVec 32) :
    2 ^ 23 ≤ (~~~crc32TabG.getD (register &&& 0xff#32).toNat 0#32).toNat := by
  exact (crc32TabG_top ⟨_, lowByte_lt register⟩).2

theorem toNat_ushiftRight_lt (register : BitVec 32) (positive : register.msb = false) :
    (register >>> 8).toNat < 2 ^ 23 := by
  have bound := BitVec.toNat_lt_of_msb_false positive
  rw [BitVec.toNat_ushiftRight, Nat.shiftRight_eq_div_pow]
  omega

theorem tableStep_msb_of_small {register : BitVec 32}
    (small : (tableStep register).toNat < 2 ^ 23) : register.msb = false := by
  -- A copied sign would leave the complement of the entry below 2 ^ 23.
  by_contra sign
  have negative : register.msb = true := by simpa using sign
  have entry : ~~~crc32TabG.getD (register &&& 0xff#32).toNat 0#32 =
      tableStep register ^^^ (~~~register) >>> 8 := by
    rw [tableStep, BitVec.sshiftRight_eq_of_msb_true negative, BitVec.xor_assoc,
      ← BitVec.not_xor_left, BitVec.xor_self, BitVec.not_zero, BitVec.xor_allOnes]
  have shifted : ((~~~register) >>> 8).toNat < 2 ^ 23 := by
    apply toNat_ushiftRight_lt
    simp [negative]
  have large := not_entry_large register
  rw [entry, BitVec.toNat_xor] at large
  exact absurd (Nat.xor_lt_two_pow small shifted) (Nat.not_lt_of_le large)

/-- A step that ends below `2 ^ 23` only moved the register down one byte. -/
theorem toNat_of_tableStep_small {register : BitVec 32}
    (small : (tableStep register).toNat < 2 ^ 23) :
    register.toNat = 256 * (tableStep register).toNat := by
  have shifted := toNat_ushiftRight_lt register (tableStep_msb_of_small small)
  have step : tableStep register =
      crc32TabG.getD (register &&& 0xff#32).toNat 0#32 ^^^ register >>> 8 := by
    rw [tableStep, BitVec.sshiftRight_eq_of_msb_false (tableStep_msb_of_small small)]
  have entry : crc32TabG.getD (register &&& 0xff#32).toNat 0#32 =
      tableStep register ^^^ register >>> 8 := by
    rw [step, BitVec.xor_assoc, BitVec.xor_self, BitVec.xor_zero]
  have lowByte : register.toNat % 256 = 0 := by
    apply lowByte_of_entry_small
    rw [entry, BitVec.toNat_xor]
    exact Nat.lt_trans (Nat.xor_lt_two_pow small shifted) (by decide)
  have first : crc32TabG.getD 0 0#32 = 0#32 := by decide
  rw [toNat_lowByte, lowByte, first, BitVec.zero_xor] at step
  rw [step, BitVec.toNat_ushiftRight, Nat.shiftRight_eq_div_pow]
  omega

theorem tableStep_injective : Function.Injective tableStep := by
  apply tableStep_linear.injective
  intro register zero
  have small : (tableStep register).toNat < 2 ^ 23 := by
    rw [zero]
    decide
  have shifted := toNat_of_tableStep_small small
  rw [zero] at shifted
  exact BitVec.eq_of_toNat_eq shifted

theorem byteWord_toNat_lt (byte : UInt8) : (byteWord byte).toNat < 2 ^ 8 := by
  have bound := byte.toBitVec.isLt
  rw [byteWord, BitVec.toNat_setWidth]
  omega

/-- Backwards through at most three bytes: a run that ends at zero started small. -/
theorem toNat_lt_of_feed_zero (register : BitVec 32) (bytes : List UInt8)
    (short : bytes.length ≤ 3)
    (zero : feed tableStep register (bytes.map byteWord) = 0#32) :
    register.toNat < 2 ^ (8 * bytes.length) := by
  induction bytes generalizing register with
  | nil =>
      rw [List.map_nil, feed_nil] at zero
      rw [zero]
      decide
  | cons byte bytes inductionHypothesis =>
      have room : bytes.length ≤ 2 := Nat.le_of_succ_le_succ short
      have after := inductionHypothesis (tableStep (register ^^^ byteWord byte))
        (Nat.le_succ_of_le room) zero
      have small : (tableStep (register ^^^ byteWord byte)).toNat < 2 ^ 23 :=
        Nat.lt_of_lt_of_le after (Nat.pow_le_pow_right (by decide) (by omega))
      have before : (register ^^^ byteWord byte).toNat < 2 ^ (8 * (bytes.length + 1)) := by
        rw [toNat_of_tableStep_small small, Nat.mul_add, Nat.pow_add, Nat.mul_comm]
        exact Nat.mul_lt_mul_of_pos_right after (by decide)
      have input : (byteWord byte).toNat < 2 ^ (8 * (bytes.length + 1)) :=
        Nat.lt_of_lt_of_le (byteWord_toNat_lt byte)
          (Nat.pow_le_pow_right (by decide) (by omega))
      have unchanged : register = (register ^^^ byteWord byte) ^^^ byteWord byte := by
        rw [BitVec.xor_assoc, BitVec.xor_self, BitVec.xor_zero]
      rw [unchanged, BitVec.toNat_xor]
      exact Nat.xor_lt_two_pow before input

theorem tableStep_byteWord_small {byte : UInt8}
    (small : (tableStep (byteWord byte)).toNat < 2 ^ 24) : byte = 0 := by
  have step : tableStep (byteWord byte) =
      crc32TabG.getD (byteWord byte &&& 0xff#32).toNat 0#32 := by
    rw [tableStep, byteWord_sshiftRight, BitVec.xor_zero]
  rw [step] at small
  have lowByte := lowByte_of_entry_small (byteWord byte) small
  have value : (byteWord byte).toNat = byte.toNat := by
    rw [byteWord, BitVec.toNat_setWidth]
    exact Nat.mod_eq_of_lt (Nat.lt_trans byte.toNat_lt (by decide))
  rw [value, Nat.mod_eq_of_lt byte.toNat_lt] at lowByte
  exact UInt8.toNat_inj.mp lowByte

/-- A block of at most four bytes that takes the zero register back to zero is zero. -/
theorem zero_of_feed_zero (bytes : List UInt8) (short : bytes.length ≤ 4)
    (zero : feed tableStep 0#32 (bytes.map byteWord) = 0#32) : ∀ byte ∈ bytes, byte = 0 := by
  induction bytes with
  | nil => simp
  | cons byte bytes inductionHypothesis =>
      rw [List.map_cons, feed_cons, BitVec.zero_xor] at zero
      have room : bytes.length ≤ 3 := Nat.le_of_succ_le_succ short
      have small := toNat_lt_of_feed_zero _ bytes room zero
      have first : byte = 0 := tableStep_byteWord_small
        (Nat.lt_of_lt_of_le small (Nat.pow_le_pow_right (by decide) (by omega)))
      have still : tableStep (byteWord 0) = 0#32 := by decide
      rw [first, still] at zero
      intro other member
      rcases List.mem_cons.mp member with rfl | inside
      · exact first
      · exact inductionHypothesis (Nat.le_succ_of_le room) zero other inside

theorem eq_of_differences_zero (x y : List UInt8) (sameLength : x.length = y.length)
    (zero : ∀ byte ∈ xorBytes x y, byte = 0) : x = y := by
  induction x generalizing y with
  | nil => exact (List.length_eq_zero_iff.mp sameLength.symm).symm
  | cons a x inductionHypothesis =>
      obtain _ | ⟨b, y⟩ := y
      · simp at sameLength
      rw [xorBytes, List.zipWith_cons_cons, List.forall_mem_cons] at zero
      have head : a = b := UInt8.xor_eq_zero_iff.mp zero.1
      rw [head, inductionHypothesis y (by simpa using sameLength) zero.2]

/-- Two different blocks of one length, up to four bytes, part the registers. -/
theorem feed_block_injective (register : BitVec 32) (x y : List UInt8)
    (sameLength : x.length = y.length) (short : x.length ≤ 4)
    (same : feed tableStep register (x.map byteWord) = feed tableStep register (y.map byteWord)) :
    x = y := by
  apply eq_of_differences_zero x y sameLength
  apply zero_of_feed_zero
  · rw [length_xorBytes sameLength]
    exact short
  have run := feed_xorBytes register register sameLength
  rwa [BitVec.xor_self, same, BitVec.xor_self] at run

/-- Every corruption confined to a block of one to four bytes changes the checksum. -/
theorem checksumComputeFun_detects_block (seed : BitVec 32) (before x y after : List UInt8)
    (different : x ≠ y) (sameLength : x.length = y.length)
    (shortBlock : 1 ≤ x.length ∧ x.length ≤ 4) :
    checksumComputeFun seed (before ++ x ++ after) ≠
      checksumComputeFun seed (before ++ y ++ after) := by
  intro same
  simp only [checksumComputeFun_eq_feed, List.map_append, feed_append, BitVec.not_inj] at same
  have atBlock := feed_injective tableStep_injective (after.map byteWord) same
  exact different (feed_block_injective _ x y sameLength shortBlock.2 atBlock)

theorem checksumComputeFun_detects_flip :
    checksumComputeFun 0#32 ([0x74] ++ [0x72, 0x66] ++ [0x73]) ≠
      checksumComputeFun 0#32 ([0x74] ++ [0x72, 0x67] ++ [0x73]) :=
  checksumComputeFun_detects_block 0#32 [0x74] [0x72, 0x66] [0x72, 0x67] [0x73]
    (by decide) rfl (by decide)

end Tracefs.Crc
