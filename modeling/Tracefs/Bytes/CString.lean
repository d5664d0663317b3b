import Tracefs.Bytes.Memory

/-!
# NUL-terminated strings

`CStringAt` says which string lies at an address.  `cString` reads it the way a
library function does, byte by byte, but looks at no more than `limit` bytes:
a string that is not terminated inside its object has no value.
-/

namespace Tracefs.Bytes

/-- What `strcpy` copies for `text`: the characters and the terminator. -/
def terminated (text : List UInt8) : List UInt8 := text ++ [0]

@[simp] theorem length_terminated (text : List UInt8) :
    (terminated text).length = text.length + 1 := by
  simp [terminated]

namespace Memory

/-- `text` and its terminator lie at `offset`. -/
def CStringAt (memory : Memory) (offset : Nat) (text : List UInt8) : Prop :=
  memory.load offset text.length = text ∧ 0 ∉ text ∧ memory (offset + text.length) = 0

/-- Read the string at `offset` from an object with `limit` bytes left. -/
def cString (memory : Memory) : (offset limit : Nat) → Option (List UInt8)
  | _, 0 => none
  | offset, limit + 1 =>
      if memory offset = 0 then some []
      else (cString memory (offset + 1) limit).map (memory offset :: ·)

theorem cStringAt_nil_iff (memory : Memory) (offset : Nat) :
    memory.CStringAt offset [] ↔ memory offset = 0 := by
  simp [CStringAt]

theorem cStringAt_cons_iff (memory : Memory) (offset : Nat) (byte : UInt8)
    (text : List UInt8) :
    memory.CStringAt offset (byte :: text) ↔
      memory offset = byte ∧ byte ≠ 0 ∧ memory.CStringAt (offset + 1) text := by
  unfold CStringAt
  rw [List.length_cons, load_succ, List.cons.injEq, List.mem_cons, not_or,
    Nat.add_assoc offset 1, Nat.add_comm 1]
  constructor
  · rintro ⟨⟨first, rest⟩, ⟨nonzero, clean⟩, final⟩
    exact ⟨first, Ne.symm nonzero, rest, clean, final⟩
  · rintro ⟨first, nonzero, rest, clean, final⟩
    exact ⟨⟨first, rest⟩, ⟨Ne.symm nonzero, clean⟩, final⟩

/-- Reading succeeds exactly on strings terminated inside the object. -/
theorem cString_eq_some_iff (memory : Memory) (offset limit : Nat) (text : List UInt8) :
    memory.cString offset limit = some text ↔
      text.length < limit ∧ memory.CStringAt offset text := by
  induction limit generalizing offset text with
  | zero => simp [cString]
  | succ limit inductionHypothesis =>
      rw [cString]
      split
      next zero =>
        cases text with
        | nil => simp [cStringAt_nil_iff, zero]
        | cons byte text =>
            simp only [Option.some.injEq, List.nil_eq, reduceCtorEq, false_iff,
              cStringAt_cons_iff, zero]
            rintro ⟨-, first, nonzero, -⟩
            exact nonzero first.symm
      next nonzero =>
        cases text with
        | nil => simp [cStringAt_nil_iff, nonzero]
        | cons byte text =>
            simp only [Option.map_eq_some_iff, List.cons.injEq, cStringAt_cons_iff,
              List.length_cons, Nat.add_lt_add_iff_right]
            constructor
            · rintro ⟨rest, found, first, rfl⟩
              obtain ⟨bound, placed⟩ := (inductionHypothesis _ _).mp found
              exact ⟨bound, first, first ▸ nonzero, placed⟩
            · rintro ⟨bound, first, -, placed⟩
              exact ⟨text, (inductionHypothesis _ _).mpr ⟨bound, placed⟩, first, rfl⟩

theorem cStringAt_store (memory : Memory) (offset : Nat) {text : List UInt8}
    (clean : 0 ∉ text) : (memory.store offset (terminated text)).CStringAt offset text := by
  have read := memory.load_store_same offset (terminated text)
  rw [length_terminated, load_add, terminated] at read
  obtain ⟨characters, terminator⟩ := List.append_inj read (by simp)
  refine ⟨characters, clean, ?_⟩
  simpa [load, terminated] using terminator

theorem cStringAt_within {first second : Memory} {offset base count start : Nat}
    {text : List UInt8}
    (agree : first.load offset count = second.load base count)
    (bound : start + text.length < count) :
    first.CStringAt (offset + start) text ↔ second.CStringAt (base + start) text := by
  unfold CStringAt
  rw [load_within agree (Nat.le_of_lt bound), Nat.add_assoc offset, Nat.add_assoc base,
    apply_within agree bound]

end Memory

end Tracefs.Bytes
