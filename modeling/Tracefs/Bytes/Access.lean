import Tracefs.Bytes.CString
import Tracefs.Bytes.Word

/-!
# Which bytes a read looks at

Offsets are taken from the start of an object.  A read looks at a span of bytes, or
at the bytes of a string up to its terminator and no further than its limit.
-/

namespace Tracefs.Bytes

inductive Access where
  | span (start count : Nat)
  | string (start : Nat) (limit : Option Nat)
  deriving DecidableEq, Repr

namespace Access

/-- The read looks at the byte at `offset`. -/
def Covers (memory : Memory) (base : Nat) : Access → (offset : Nat) → Prop
  | span start count, offset => start ≤ offset ∧ offset < start + count
  | string start limit, offset =>
      start ≤ offset ∧ (∀ most ∈ limit, offset < start + most) ∧
        ∀ earlier, start ≤ earlier → earlier < offset → memory (base + earlier) ≠ 0

/-- The read ends inside an object of `bound` bytes. -/
def Fits (memory : Memory) (base bound : Nat) : Access → Prop
  | span start count => count = 0 ∨ start + count ≤ bound
  | string start limit =>
      (∃ index, start ≤ index ∧ index < bound ∧ memory (base + index) = 0) ∨
        ∃ most ∈ limit, most = 0 ∨ start + most ≤ bound

variable {memory other : Memory} {base bound : Nat}

theorem span_covers_lt_iff (start count : Nat) :
    (∀ offset, (span start count).Covers memory base offset → offset < bound) ↔
      (span start count).Fits memory base bound := by
  constructor
  · intro within
    by_contra beyond
    obtain ⟨some_, long⟩ := not_or.mp beyond
    have last := within (start + count - 1) ⟨by omega, by omega⟩
    omega
  · rintro (nothing | short) offset ⟨lower, upper⟩ <;> omega

/-- Without a terminator in the object, its end is looked at unless the limit comes
first. -/
theorem string_covers_lt_iff (start : Nat) (limit : Option Nat) :
    (∀ offset, (string start limit).Covers memory base offset → offset < bound) ↔
      (string start limit).Fits memory base bound := by
  constructor
  · intro within
    by_contra beyond
    obtain ⟨unterminated, unlimited⟩ := not_or.mp beyond
    have covered : (string start limit).Covers memory base (max start bound) := by
      refine ⟨le_max_left _ _, fun most limited => ?_, fun earlier lower upper zero => ?_⟩
      · have longer : ¬ (most = 0 ∨ start + most ≤ bound) := fun fits =>
          unlimited ⟨most, limited, fits⟩
        omega
      · exact unterminated ⟨earlier, lower, by omega, zero⟩
    exact absurd (within _ covered) (not_lt.mpr (le_max_right _ _))
  · rintro (⟨index, lower, upper, zero⟩ | ⟨most, limited, fits⟩) offset ⟨first, last, nonzero⟩
    · by_contra beyond
      exact nonzero index lower (by omega) zero
    · have short := last most limited
      omega

theorem covers_lt_iff (access : Access) :
    (∀ offset, access.Covers memory base offset → offset < bound) ↔
      access.Fits memory base bound := by
  cases access with
  | span start count => exact span_covers_lt_iff start count
  | string start limit => exact string_covers_lt_iff start limit

/-- Two memories hold the same where the read looks. -/
def Agrees (memory other : Memory) (base : Nat) (access : Access) : Prop :=
  ∀ offset, access.Covers memory base offset → memory (base + offset) = other (base + offset)

theorem Agrees.load {start count : Nat} (agrees : (span start count).Agrees memory other base) :
    memory.load (base + start) count = other.load (base + start) count := by
  apply Memory.load_congr
  intro index inside
  rw [Nat.add_assoc]
  exact agrees (start + index) ⟨by omega, by omega⟩

theorem Agrees.word {start width : Nat} (agrees : (span start width).Agrees memory other base) :
    memory.word (base + start) width = other.word (base + start) width := by
  rw [Memory.word, agrees.load, Memory.word]

theorem Agrees.cString {start limit : Nat}
    (agrees : (string start (some limit)).Agrees memory other base) :
    memory.cString (base + start) limit = other.cString (base + start) limit := by
  induction limit generalizing start with
  | zero => rfl
  | succ limit inductionHypothesis =>
      have first : memory (base + start) = other (base + start) :=
        agrees start ⟨le_rfl, by simp, fun earlier lower upper => absurd lower (by omega)⟩
      rw [Memory.cString, Memory.cString, ← first]
      split
      next => rfl
      next nonzero =>
        rw [Nat.add_assoc, inductionHypothesis]
        rintro offset ⟨lower, upper, clean⟩
        refine agrees offset ⟨by omega, fun most limited => ?_, fun earlier above below => ?_⟩
        · have short := upper limit rfl
          cases limited
          omega
        · by_cases same : earlier = start
          · rwa [same]
          · exact clean earlier (by omega) below

end Access

end Tracefs.Bytes
