import Tracefs.Bytes.Word

/-!
# Decimal numerals

`strtol` in base ten, as the C library with a `long` of 64 bits does it: white space and a sign are
skipped, the digits up to the first other byte are read, and a value out of range is clamped.
`decimal` and `signedDecimal` are the numerals that it reads back.
-/

namespace Tracefs.Bytes

def digit? (byte : UInt8) : Option Nat :=
  if 48 ≤ byte.toNat ∧ byte.toNat ≤ 57 then some (byte.toNat - 48) else none

def isSpace (byte : UInt8) : Bool := byte = 32 ∨ (9 ≤ byte.toNat ∧ byte.toNat ≤ 13)

/-- The value of the digits that come next, after `value` has been read. -/
def readDigits (value : Nat) : List UInt8 → Nat
  | [] => value
  | byte :: rest =>
      match digit? byte with
      | some digit => readDigits (10 * value + digit) rest
      | none => value

def strtol (text : List UInt8) : Int :=
  match text.dropWhile isSpace with
  | [] => 0
  | byte :: rest =>
      if byte = 45 then max (-(readDigits 0 rest : Int)) (-2 ^ 63)
      else if byte = 43 then min (readDigits 0 rest) (2 ^ 63 - 1)
      else min (readDigits 0 (byte :: rest)) (2 ^ 63 - 1)

/-- The conversion of the `long` to an `int` keeps the low half. -/
def atoi (text : List UInt8) : Int := toInt32 (strtol text)

def decimal (number : Nat) : List UInt8 :=
  if number < 10 then [UInt8.ofNat (48 + number)]
  else decimal (number / 10) ++ [UInt8.ofNat (48 + number % 10)]
termination_by number
decreasing_by omega

theorem digit?_ofNat {digit : Nat} (small : digit < 10) :
    digit? (UInt8.ofNat (48 + digit)) = some digit := by
  have code : (UInt8.ofNat (48 + digit)).toNat = 48 + digit :=
    UInt8.toNat_ofNat_of_lt (by show _ < 256; omega)
  rw [digit?, code, if_pos (by omega), Nat.add_sub_cancel_left]

theorem readDigits_ofNat {digit : Nat} (small : digit < 10) (value : Nat) (rest : List UInt8) :
    readDigits value (UInt8.ofNat (48 + digit) :: rest) = readDigits (10 * value + digit) rest := by
  simp only [readDigits, digit?_ofNat small]

theorem readDigits_append {first : List UInt8} (digits : ∀ byte ∈ first, (digit? byte).isSome)
    (value : Nat) (rest : List UInt8) :
    readDigits value (first ++ rest) = readDigits (readDigits value first) rest := by
  induction first generalizing value with
  | nil => rfl
  | cons byte first inductionHypothesis =>
      obtain ⟨digit, read⟩ := Option.isSome_iff_exists.mp (digits byte List.mem_cons_self)
      simp only [List.cons_append, readDigits, read]
      exact inductionHypothesis (fun later member => digits later (List.mem_cons_of_mem _ member)) _

theorem digit?_of_mem_decimal (number : Nat) : ∀ byte ∈ decimal number, (digit? byte).isSome := by
  induction number using decimal.induct with
  | case1 number small =>
      intro byte member
      rw [decimal, if_pos small, List.mem_singleton] at member
      rw [member, digit?_ofNat small]
      rfl
  | case2 number large inductionHypothesis =>
      intro byte member
      rw [decimal, if_neg large] at member
      rcases List.mem_append.mp member with earlier | last
      · exact inductionHypothesis byte earlier
      · rw [List.mem_singleton.mp last, digit?_ofNat (Nat.mod_lt _ (by decide))]
        rfl

theorem readDigits_decimal (number : Nat) : readDigits 0 (decimal number) = number := by
  induction number using decimal.induct with
  | case1 number small =>
      rw [decimal, if_pos small, readDigits_ofNat small, readDigits, Nat.mul_zero, Nat.zero_add]
  | case2 number large inductionHypothesis =>
      rw [decimal, if_neg large, readDigits_append (digit?_of_mem_decimal _), inductionHypothesis,
        readDigits_ofNat (Nat.mod_lt _ (by decide)), readDigits, Nat.div_add_mod]

/-- A text that starts with a digit has no white space or sign to skip. -/
theorem strtol_of_digit {byte : UInt8} {rest : List UInt8} (digit : (digit? byte).isSome) :
    strtol (byte :: rest) = min (readDigits 0 (byte :: rest) : Int) (2 ^ 63 - 1) := by
  have bounds : 48 ≤ byte.toNat ∧ byte.toNat ≤ 57 := by
    by_contra outside
    rw [digit?, if_neg outside] at digit
    cases digit
  have noSpace : isSpace byte = false := by
    rw [isSpace, decide_eq_false_iff_not]
    rintro (rfl | space)
    · exact absurd bounds (by decide)
    · omega
  have noMinus : byte ≠ 45 := by
    rintro rfl
    exact absurd bounds (by decide)
  have noPlus : byte ≠ 43 := by
    rintro rfl
    exact absurd bounds (by decide)
  simp only [strtol, List.dropWhile_cons, noSpace, Bool.false_eq_true, if_false, if_neg noMinus,
    if_neg noPlus]

theorem strtol_decimal {number : Nat} (inRange : number < 2 ^ 63) :
    strtol (decimal number) = number := by
  have read := readDigits_decimal number
  have digits := digit?_of_mem_decimal number
  cases text : decimal number with
  | nil =>
      rw [text] at read
      rw [← read]
      rfl
  | cons byte rest =>
      rw [text] at read digits
      rw [strtol_of_digit (digits byte List.mem_cons_self), read]
      omega

def signedDecimal : Int → List UInt8
  | .ofNat number => decimal number
  | .negSucc number => 45 :: decimal (number + 1)

theorem strtol_signedDecimal {number : Int} (lower : -2 ^ 63 ≤ number) (upper : number < 2 ^ 63) :
    strtol (signedDecimal number) = number := by
  cases number with
  | ofNat number => exact strtol_decimal (Int.ofNat_lt.mp upper)
  | negSucc number =>
      have minus : strtol (45 :: decimal (number + 1)) =
          max (-(readDigits 0 (decimal (number + 1)) : Int)) (-2 ^ 63) := rfl
      rw [signedDecimal, minus, readDigits_decimal]
      omega

end Tracefs.Bytes
