import Tracefs.Bytes.Memory
import Mathlib.Tactic.Ring

/-!
# Little-endian words and C integers

Field values travel as unsigned numbers; a store keeps the low bytes that fit
the field and a load gives the number back.  `toInt32` and
`toInt64` are the conversions to signed integers, which wrap.
-/

namespace Tracefs.Bytes

/-- The low `width` bytes of `value`, least significant first. -/
def wordBytes : (width : Nat) → (value : Nat) → List UInt8
  | 0, _ => []
  | width + 1, value => UInt8.ofNat value :: wordBytes width (value / 256)

def wordValue : List UInt8 → Nat
  | [] => 0
  | byte :: bytes => byte.toNat + 256 * wordValue bytes

@[simp] theorem length_wordBytes (width value : Nat) :
    (wordBytes width value).length = width := by
  induction width generalizing value with
  | zero => rfl
  | succ width inductionHypothesis => simp [wordBytes, inductionHypothesis]

theorem wordValue_wordBytes (width value : Nat) :
    wordValue (wordBytes width value) = value % 256 ^ width := by
  induction width generalizing value with
  | zero => simp [wordBytes, wordValue, Nat.mod_one]
  | succ width inductionHypothesis =>
      have byteValue : (UInt8.ofNat value).toNat = value % 256 := by simp
      rw [wordBytes, wordValue, byteValue, inductionHypothesis, Nat.pow_succ',
        Nat.mod_mul]

theorem wordValue_lt (bytes : List UInt8) : wordValue bytes < 256 ^ bytes.length := by
  induction bytes with
  | nil => simp [wordValue]
  | cons byte bytes inductionHypothesis =>
      have bound := byte.toNat_lt
      rw [wordValue, List.length_cons, Nat.pow_succ']
      omega

theorem wordValue_append (first second : List UInt8) :
    wordValue (first ++ second) = wordValue first + 256 ^ first.length * wordValue second := by
  induction first with
  | nil => simp [wordValue]
  | cons byte first inductionHypothesis =>
      rw [List.cons_append, wordValue, inductionHypothesis, wordValue, List.length_cons]
      ring

theorem wordValue_cons_mod (byte : UInt8) (bytes : List UInt8) :
    wordValue (byte :: bytes) % 256 = byte.toNat := by
  have bound := byte.toNat_lt
  rw [wordValue]
  omega

namespace Memory

/-- The unsigned number held by the `width` bytes at `offset`. -/
def word (memory : Memory) (offset width : Nat) : Nat :=
  wordValue (memory.load offset width)

theorem word_lt (memory : Memory) (offset width : Nat) :
    memory.word offset width < 256 ^ width := by
  simpa [word] using wordValue_lt (memory.load offset width)

theorem word_add (memory : Memory) (offset first second : Nat) :
    memory.word offset (first + second) =
      memory.word offset first + 256 ^ first * memory.word (offset + first) second := by
  rw [word, load_add, wordValue_append, length_load, word, word]

theorem word_store_same (memory : Memory) (offset width value : Nat) :
    (memory.store offset (wordBytes width value)).word offset width = value % 256 ^ width := by
  have read := memory.load_store_same offset (wordBytes width value)
  rw [length_wordBytes] at read
  rw [word, read, wordValue_wordBytes]

theorem word_store_of_lt (memory : Memory) (offset : Nat) {width value : Nat}
    (fits : value < 256 ^ width) :
    (memory.store offset (wordBytes width value)).word offset width = value := by
  rw [word_store_same, Nat.mod_eq_of_lt fits]

theorem word_store_disjoint (memory : Memory) {offset start width : Nat}
    {bytes : List UInt8}
    (disjoint : start + width ≤ offset ∨ offset + bytes.length ≤ start) :
    (memory.store offset bytes).word start width = memory.word start width := by
  rw [word, load_store_disjoint memory disjoint, word]

theorem word_within {first second : Memory} {offset base count start width : Nat}
    (agree : first.load offset count = second.load base count)
    (bound : start + width ≤ count) :
    first.word (offset + start) width = second.word (base + start) width := by
  rw [word, load_within agree bound, word]

end Memory

/-- Conversion to a 32-bit two's complement `int`. -/
def toInt32 (value : Int) : Int := value.bmod (2 ^ 32)

/-- Conversion of a `size_t` to `int64_t`. -/
def toInt64 (value : Int) : Int := value.bmod (2 ^ 64)

theorem toInt32_of_range {value : Int} (lower : -2 ^ 31 ≤ value) (upper : value < 2 ^ 31) :
    toInt32 value = value := by
  unfold toInt32
  apply Int.bmod_eq_of_le <;> norm_num <;> omega

theorem toInt32_range (value : Int) : -2 ^ 31 ≤ toInt32 value ∧ toInt32 value < 2 ^ 31 := by
  unfold toInt32
  have lower := Int.le_bmod (x := value) (m := 2 ^ 32) (by norm_num)
  have upper := Int.bmod_lt (x := value) (m := 2 ^ 32) (by norm_num)
  norm_num at lower upper ⊢
  omega

theorem toInt32_eq (value : Int) : toInt32 value = (value + 2 ^ 31) % 2 ^ 32 - 2 ^ 31 := by
  rw [toInt32, Int.bmod_def]
  norm_num
  omega

theorem toInt32_toNat (word : BitVec 32) : toInt32 word.toNat = word.toInt :=
  (BitVec.toInt_eq_toNat_bmod word).symm

/-- Truncation on the way to `int` does not see a detour over `int64_t`. -/
theorem toInt32_toInt64 (value : Int) : toInt32 (toInt64 value) = toInt32 value :=
  Int.bmod_bmod_of_dvd (by norm_num)

end Tracefs.Bytes
