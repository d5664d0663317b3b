import Tracefs.Vfs.ReadSuper

/-!
# The mount options as a string

`trfs_parse_options` cuts the string at its commas with `strsep`, skips the empty items and has
`match_token` classify the others.  Both functions are the kernel's.  Every item overwrites the
error of the items before it, so that a file name at the end hides an item that is not recognized.
-/

namespace Tracefs

def comma : UInt8 := 44

/-- The pattern `tfile=%s` up to its argument. -/
def tfileText : List UInt8 := [116, 102, 105, 108, 101, 61]

/-- `strsep(&options, ",")`: the item before the first comma, and the string behind that comma.
Without a comma `options` becomes a null pointer. -/
def strsep (options : List UInt8) : List UInt8 × Option (List UInt8) :=
  (options.takeWhile (· != comma), (options.dropWhile (· != comma)).tail?)

/-- `match_one` for a pattern that is a text followed by `%s`, which matches the whole rest of the
string but not the empty one. -/
def matchOne (text s : List UInt8) : Option (List UInt8) :=
  if s.take text.length ≠ text then none
  else if (s.drop text.length).length = 0 then none
  else some (s.drop text.length)

/-- `match_token` with the table `tokens`, whose last pattern matches everything. -/
def matchToken (s : List UInt8) : MountOption :=
  match matchOne tfileText s with
  | some name => .tfile name
  | none => .unrecognized

/-- The `switch` on the token. -/
def TrfsOptions.switchToken (tOp : TrfsOptions) : MountOption → TrfsOptions
  | .tfile name => ⟨some name, 0⟩
  | .unrecognized => { tOp with err := -22 }

/-- One round of the loop of `trfs_parse_options`. -/
def TrfsOptions.parseItem (tOp : TrfsOptions) (p : List UInt8) : TrfsOptions :=
  if p = [] then tOp else tOp.switchToken (matchToken p)

/-- The two ways in which `strsep` ends. -/
theorem strsep_cases (options : List UInt8) :
    (comma ∉ options ∧ strsep options = (options, none)) ∨
      ∃ item rest, options = item ++ comma :: rest ∧ comma ∉ item ∧
        strsep options = (item, some rest) := by
  induction options with
  | nil => exact .inl ⟨List.not_mem_nil, rfl⟩
  | cons byte tail inductionHypothesis =>
      by_cases separates : byte = comma
      · exact .inr ⟨[], tail, by rw [separates]; rfl, List.not_mem_nil,
          by simp [strsep, separates]⟩
      · have goesOn : strsep (byte :: tail) = (byte :: (strsep tail).1, (strsep tail).2) := by
          simp [strsep, separates]
        have other : comma ≠ byte := fun same => separates same.symm
        rcases inductionHypothesis with ⟨absent, ended⟩ | ⟨item, rest, split, absent, ended⟩
        · exact .inl ⟨List.not_mem_cons_of_ne_of_not_mem other absent, by rw [goesOn, ended]⟩
        · exact .inr ⟨byte :: item, rest, by rw [split]; rfl,
            List.not_mem_cons_of_ne_of_not_mem other absent, by rw [goesOn, ended]⟩

theorem length_lt_of_strsep {options rest : List UInt8} (next : (strsep options).2 = some rest) :
    rest.length < options.length := by
  rcases strsep_cases options with ⟨-, ended⟩ | ⟨item, after, split, -, ended⟩
  · rw [ended] at next
    cases next
  · rw [ended] at next
    cases next
    rw [split, List.length_append, List.length_cons]
    omega

def parseItems (options : List UInt8) (tOp : TrfsOptions) : TrfsOptions :=
  match _ : (strsep options).2 with
  | none => tOp.parseItem (strsep options).1
  | some rest => parseItems rest (tOp.parseItem (strsep options).1)
termination_by options.length
decreasing_by exact length_lt_of_strsep ‹_›

/-- `trfs_parse_options` on the string itself, with its allocations made. -/
def trfsParseOptionString : Option (List UInt8) → TrfsOptions
  | none => ⟨none, -22⟩
  | some options => parseItems options ⟨none, 0⟩

/-! ## The items -/

/-- The items between the commas that are not empty. -/
def optionItems (options : List UInt8) : List (List UInt8) :=
  (options.splitOn comma).filter (· ≠ [])

theorem ne_comma_of_not_mem {item : List UInt8} (absent : comma ∉ item) :
    ∀ byte ∈ item, (byte == comma) = false := by
  intro byte member
  rw [beq_eq_false_iff_ne]
  rintro rfl
  exact absent member

/-- The loop handles the items between the commas in their order. -/
theorem parseItems_eq_foldl (options : List UInt8) (tOp : TrfsOptions) :
    parseItems options tOp = (options.splitOn comma).foldl TrfsOptions.parseItem tOp := by
  induction options, tOp using parseItems.induct with
  | case1 options tOp last =>
      rcases strsep_cases options with ⟨absent, ended⟩ | ⟨item, rest, -, -, ended⟩
      · have single : options.splitOn comma = [options] :=
          List.splitOnP_eq_singleton (ne_comma_of_not_mem absent)
        rw [parseItems, single, ended]
        rfl
      · rw [ended] at last
        cases last
  | case2 options tOp rest next inductionHypothesis =>
      rcases strsep_cases options with ⟨-, ended⟩ | ⟨item, after, split, absent, ended⟩
      · rw [ended] at next
        cases next
      · rw [ended] at next
        cases next
        have first : options.splitOn comma = item :: rest.splitOn comma := by
          rw [split]
          exact List.splitOnP_append_cons_of_forall_mem (ne_comma_of_not_mem absent) _
            (beq_self_eq_true comma) _
        rw [parseItems, first, ended, List.foldl_cons]
        rw [ended] at inductionHypothesis
        exact inductionHypothesis

theorem trfsParseOptions_some (options : List MountOption) :
    trfsParseOptions (some options) = options.foldl TrfsOptions.switchToken ⟨none, 0⟩ := rfl

/-- The empty items do not count, and the others go through the table. -/
theorem trfsParseOptionString_eq (options : List UInt8) :
    trfsParseOptionString (some options) =
      trfsParseOptions (some ((optionItems options).map matchToken)) := by
  have round : TrfsOptions.parseItem = fun tOp p =>
      if decide (p ≠ []) = true then tOp.switchToken (matchToken p) else tOp := by
    funext tOp p
    by_cases empty : p = [] <;> simp [TrfsOptions.parseItem, empty]
  rw [trfsParseOptionString, parseItems_eq_foldl, trfsParseOptions_some, List.foldl_map,
    optionItems, List.foldl_filter, round]

/-- An item of the form `tfile=` with a value behind it. -/
def TfileItem (item : List UInt8) : Prop := ∃ value, value ≠ [] ∧ item = tfileText ++ value

theorem matchToken_tfile {value : List UInt8} (nonempty : value ≠ []) :
    matchToken (tfileText ++ value) = .tfile value := by
  simp [matchToken, matchOne, nonempty]

theorem matchToken_of_not_tfileItem {item : List UInt8} (other : ¬ TfileItem item) :
    matchToken item = .unrecognized := by
  have unmatched : matchOne tfileText item = none := by
    unfold matchOne
    split
    next => rfl
    next starts =>
      split
      next => rfl
      next nonempty =>
        refine absurd ⟨item.drop tfileText.length, List.ne_nil_of_length_pos (by omega), ?_⟩ other
        have split := List.take_append_drop tfileText.length item
        rw [not_not.mp starts] at split
        exact split.symm
  rw [matchToken, unmatched]

/-- The value of the last item of the form `tfile=` with a value, or nothing if there is none. -/
def IsLastValue (items : List (List UInt8)) : Option (List UInt8) → Prop
  | none => ∀ item ∈ items, ¬ TfileItem item
  | some value => value ≠ [] ∧ ∃ before after, items = before ++ (tfileText ++ value) :: after ∧
      ∀ item ∈ after, ¬ TfileItem item

/-- Success is reported exactly for strings of which every item is a trace file, and the file name
is then the last one. -/
def AcceptsExactly (options : List UInt8) : Prop :=
  ((trfsParseOptionString (some options)).err = 0 ↔
    ∀ item ∈ optionItems options, TfileItem item) ∧
  ((trfsParseOptionString (some options)).err = 0 →
    IsLastValue (optionItems options) (trfsParseOptionString (some options)).filename)

section LastItem

variable {options : List UInt8} {before : List (List UInt8)}

/-- What the last item makes of the options before it. -/
theorem trfsParseOptionString_concat {last : List UInt8}
    (ends : optionItems options = before ++ [last]) :
    ∃ tOp : TrfsOptions, trfsParseOptionString (some options) =
      tOp.switchToken (matchToken last) := by
  refine ⟨trfsParseOptions (some (before.map matchToken)), ?_⟩
  rw [trfsParseOptionString_eq, ends, List.map_append, trfsParseOptions_some, List.foldl_append]
  rfl

theorem trfsParseOptionString_of_tfile {value : List UInt8} (nonempty : value ≠ [])
    (ends : optionItems options = before ++ [tfileText ++ value]) :
    trfsParseOptionString (some options) = ⟨some value, 0⟩ := by
  obtain ⟨tOp, parsed⟩ := trfsParseOptionString_concat ends
  rw [parsed, matchToken_tfile nonempty]
  rfl

theorem err_trfsParseOptionString_of_other {last : List UInt8} (other : ¬ TfileItem last)
    (ends : optionItems options = before ++ [last]) :
    (trfsParseOptionString (some options)).err = -22 := by
  obtain ⟨tOp, parsed⟩ := trfsParseOptionString_concat ends
  rw [parsed, matchToken_of_not_tfileItem other]
  rfl

theorem trfsParseOptionString_of_empty (empty : optionItems options = []) :
    trfsParseOptionString (some options) = ⟨none, 0⟩ := by
  rw [trfsParseOptionString_eq, empty]
  rfl

end LastItem

/-- The parser is exact on a string exactly when each of its items is a trace file or the last one
is not. -/
theorem acceptsExactly_iff (options : List UInt8) :
    AcceptsExactly options ↔
      (∀ item ∈ optionItems options, TfileItem item) ∨
        ∃ last ∈ (optionItems options).getLast?, ¬ TfileItem last := by
  unfold AcceptsExactly
  rcases List.eq_nil_or_concat' (optionItems options) with empty | ⟨before, last, ends⟩
  · rw [trfsParseOptionString_of_empty empty, empty]
    simp [IsLastValue]
  · have final : (optionItems options).getLast? = some last := by
      rw [ends, List.getLast?_concat]
    by_cases tfile : TfileItem last
    · obtain ⟨value, nonempty, rfl⟩ := id tfile
      rw [trfsParseOptionString_of_tfile nonempty ends]
      constructor
      · rintro ⟨accepts, -⟩
        exact .inl (accepts.mp rfl)
      · rintro (all | ⟨item, member, other⟩)
        · refine ⟨⟨fun _ => all, fun _ => rfl⟩, fun _ => ⟨nonempty, before, [], ends, ?_⟩⟩
          simp
        · rw [final, Option.mem_some_iff] at member
          exact absurd (member ▸ tfile) other
    · have refused := err_trfsParseOptionString_of_other tfile ends
      constructor
      · intro _
        exact .inr ⟨last, final, tfile⟩
      · intro _
        rw [refused]
        refine ⟨⟨fun zero => absurd zero (by decide), fun all => ?_⟩,
          fun zero => absurd zero (by decide)⟩
        exact absurd (all last (by rw [ends]; exact List.mem_concat_self)) tfile

/-- `bad,tfile=x` -/
def hiddenItem : List UInt8 := [98, 97, 100, 44] ++ tfileText ++ [120]

/-- An item that is not recognized stands before the file name, and success is reported. -/
theorem not_acceptsExactly_hiddenItem :
    trfsParseOptionString (some hiddenItem) = ⟨some [120], 0⟩ ∧ ¬ AcceptsExactly hiddenItem := by
  have items : optionItems hiddenItem = [[98, 97, 100]] ++ [tfileText ++ [120]] := by decide
  have parsed := trfsParseOptionString_of_tfile (List.cons_ne_nil _ _) items
  refine ⟨parsed, ?_⟩
  rintro ⟨accepts, -⟩
  obtain ⟨value, -, same⟩ := accepts.mp (by rw [parsed]) [98, 97, 100] (by rw [items]; simp)
  cases same

end Tracefs
