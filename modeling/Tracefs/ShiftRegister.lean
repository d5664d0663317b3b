import Mathlib.Logic.Function.Iterate

/-!
# Linear maps of machine words and the registers they drive

A map of words is linear when it is additive for exclusive or.  A register fed through such a map
is linear in its start and its inputs together, so two runs differ by the run of the differences.
The second part is the reflected shift register of a cyclic redundancy code: bits leave at the low
end, and a one that leaves adds the feedback polynomial.
-/

namespace Tracefs

variable {w : Nat}

theorem xor_eq_self_iff (x y : BitVec w) : x ^^^ y = x ↔ y = 0#w := by
  have cancel := BitVec.xor_right_inj (x := y) (y := 0#w) x
  rwa [BitVec.xor_zero] at cancel

def XorLinear (f : BitVec w → BitVec w) : Prop :=
  ∀ x y, f (x ^^^ y) = f x ^^^ f y

namespace XorLinear

variable {f : BitVec w → BitVec w}

theorem iterate (linear : XorLinear f) (n : Nat) : XorLinear f^[n] := by
  induction n with
  | zero => exact fun _ _ => rfl
  | succ n inductionHypothesis =>
      intro x y
      rw [Function.iterate_succ_apply, Function.iterate_succ_apply, Function.iterate_succ_apply,
        linear, inductionHypothesis]

theorem injective (linear : XorLinear f) (kernel : ∀ x, f x = 0#w → x = 0#w) :
    Function.Injective f := by
  intro x y same
  apply BitVec.xor_eq_zero_iff.mp
  apply kernel
  rw [linear, same, BitVec.xor_self]

end XorLinear

/-- The register after `inputs`, each word added to it before `f` is applied. -/
def feed (f : BitVec w → BitVec w) (register : BitVec w) (inputs : List (BitVec w)) : BitVec w :=
  inputs.foldl (fun register input => f (register ^^^ input)) register

section Feed

variable {f : BitVec w → BitVec w}

@[simp] theorem feed_nil (register : BitVec w) : feed f register [] = register := rfl

@[simp] theorem feed_cons (register input : BitVec w) (inputs : List (BitVec w)) :
    feed f register (input :: inputs) = feed f (f (register ^^^ input)) inputs := rfl

theorem feed_append (register : BitVec w) (first second : List (BitVec w)) :
    feed f register (first ++ second) = feed f (feed f register first) second :=
  List.foldl_append

theorem feed_xor (linear : XorLinear f) (c d : BitVec w) (xs ys : List (BitVec w))
    (sameLength : xs.length = ys.length) :
    feed f (c ^^^ d) (List.zipWith (· ^^^ ·) xs ys) = feed f c xs ^^^ feed f d ys := by
  induction xs generalizing c d ys with
  | nil =>
      obtain rfl := List.length_eq_zero_iff.mp sameLength.symm
      rfl
  | cons x xs inductionHypothesis =>
      obtain _ | ⟨y, ys⟩ := ys
      · simp at sameLength
      have regroup : c ^^^ d ^^^ (x ^^^ y) = (c ^^^ x) ^^^ (d ^^^ y) := by ac_rfl
      rw [List.zipWith_cons_cons, feed_cons, feed_cons, feed_cons, regroup, linear]
      exact inductionHypothesis _ _ ys (by simpa using sameLength)

theorem feed_injective (injective : Function.Injective f) (inputs : List (BitVec w)) :
    Function.Injective fun register => feed f register inputs := by
  induction inputs with
  | nil => exact fun _ _ same => same
  | cons input inputs inductionHypothesis =>
      intro c d same
      have inner := injective (inductionHypothesis same)
      exact (BitVec.xor_left_inj input).mp inner

end Feed

/-! ## Reflected shift registers -/

/-- One shift toward the low end; a one that falls out adds `poly`. -/
def shiftBit (poly register : BitVec w) : BitVec w :=
  if register.getLsbD 0 then (register >>> 1) ^^^ poly else register >>> 1

theorem shiftBit_linear (poly : BitVec w) : XorLinear (shiftBit poly) := by
  intro x y
  simp only [shiftBit, BitVec.getLsbD_xor, BitVec.ushiftRight_xor_distrib]
  -- The two feedbacks cancel when both low bits are set.
  cases x.getLsbD 0 <;> cases y.getLsbD 0
  · rfl
  · exact BitVec.xor_assoc _ _ _
  · simp only [Bool.xor_false, if_true, Bool.false_eq_true, if_false]
    ac_rfl
  · have regroup : (x >>> 1 ^^^ poly) ^^^ (y >>> 1 ^^^ poly) =
        (x >>> 1 ^^^ y >>> 1) ^^^ (poly ^^^ poly) := by ac_rfl
    simp only [Bool.xor_self, Bool.false_eq_true, if_false, if_true]
    rw [regroup, BitVec.xor_self, BitVec.xor_zero]

theorem iterate_shiftBit_of_clear (poly : BitVec w) (n : Nat) (register : BitVec w)
    (clear : ∀ i < n, register.getLsbD i = false) :
    (shiftBit poly)^[n] register = register >>> n := by
  induction n with
  | zero => exact (BitVec.ushiftRight_zero register).symm
  | succ n inductionHypothesis =>
      have lowBit : (register >>> n).getLsbD 0 = false := by
        rw [BitVec.getLsbD_ushiftRight]
        exact clear n (Nat.lt_succ_self n)
      rw [Function.iterate_succ_apply',
        inductionHypothesis fun i below => clear i (Nat.lt_succ_of_lt below), shiftBit, lowBit,
        BitVec.shiftRight_add]
      rfl

/-- `n` shifts act on the low part alone; the rest only moves down. -/
theorem iterate_shiftBit_split (poly low high : BitVec w) (n : Nat)
    (clear : ∀ i < n, high.getLsbD i = false) :
    (shiftBit poly)^[n] (low ^^^ high) = (shiftBit poly)^[n] low ^^^ high >>> n := by
  rw [(shiftBit_linear poly).iterate n, iterate_shiftBit_of_clear poly n high clear]

end Tracefs
