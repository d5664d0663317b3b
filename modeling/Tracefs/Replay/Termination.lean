import Tracefs.Loop
import Tracefs.Replay.PageLoop
import Mathlib.Data.Finite.Prod
import Mathlib.Data.Fintype.Pi
import Mathlib.Data.Set.Finite.Range

/-!
# Do the loops of treplay end?

The record loop advances by the sizes it reads, the page loop seeks back by a size
and adds it to its own bound.  What the handlers do has no part in either, so the
two are loops over a cursor, and over a position with `fsize` and the page.
-/

namespace Tracefs

open Bytes Loop Relation

variable {State : Type}

/-- The `while` of `trfs_read_tfile_buf` without what is done to the records. -/
def recordLoop (page : Memory) : Nat × Int → Turn (Nat × Int) Nat
  | (buf, len) =>
      if len ≤ 0 then .stops 0
      else
        let rsize := page.word (buf + 4) 2
        if rsize > len then .stops rsize else .turns (buf + rsize, len - rsize)

/-- What the page loop of `main` depends on. -/
structure PageStop where
  position : Nat
  fsize : Int
  page : Memory

namespace PageStop

def start (file : List UInt8) (page : Memory) : PageStop := ⟨0, toInt32 file.length, page⟩

/-- The bytes that the next `read` returns. -/
def data (file : List UInt8) (stop : PageStop) : List UInt8 :=
  (file.drop stop.position).take replayPageSize

/-- The page once they are read; behind them it is as before. -/
def loaded (file : List UInt8) (stop : PageStop) : Memory := stop.page.store 0 (stop.data file)

/-- After a round in which the parser has returned `leftBytes`. -/
def after (file : List UInt8) (stop : PageStop) (leftBytes : Nat) : PageStop where
  position := lseekBack (stop.position + (stop.data file).length) leftBytes
  fsize := stop.fsize - (stop.data file).length + leftBytes
  page := stop.loaded file

end PageStop

/-- The `while` of `main`, which stops by its condition or at the end of the file.
A record loop that advances at all is through with a page after as many records as
the page has bytes. -/
def pageLoop (file : List UInt8) (stop : PageStop) : Turn PageStop Unit :=
  if stop.fsize ≤ 0 ∨ (stop.data file).length = 0 then .stops ()
  else
    match runLoop (recordLoop (stop.loaded file)) ((stop.data file).length + 1)
      (0, ((stop.data file).length : Int)) with
    | none => .stuck
    | some leftBytes =>
        if (stop.after file leftBytes).fsize < 2 ^ 31 then .turns (stop.after file leftBytes)
        else .stuck

/-- The page loop ends by its condition, or by `read` at the end of the file. -/
def EndsByItself (handle : Handlers State) (heap : Nat → Memory) (file : List UInt8)
    (page : Memory) (state : State) : Prop :=
  ∃ steps fuel final, treplay handle heap file steps fuel page state = .finished final ∨
    treplay handle heap file steps fuel page state = .partially final

/-- The sizes on a page never lead to a size of zero. -/
def SizesAdvance (page : Memory) (buf : Nat) (len : Int) : Prop :=
  ∀ cursor rest, ReflTransGen (Follows (recordLoop page)) (buf, len) (cursor, rest) → 0 < rest →
    page.word (cursor + 4) 2 ≠ 0

/-- On every page that is read the sizes advance, `fsize` stays an `int`, and the
loop never comes back to a position with the page and the `fsize` it had there. -/
structure PagesAdvance (file : List UInt8) (page : Memory) : Prop where
  sizes : ∀ stop, ReflTransGen (Follows (pageLoop file)) (.start file page) stop →
    0 < stop.fsize → SizesAdvance (stop.loaded file) 0 (stop.data file).length
  fsize : ∀ stop, ReflTransGen (Follows (pageLoop file)) (.start file page) stop →
    0 < stop.fsize → (stop.data file).length ≠ 0 →
    ∀ fuel leftBytes, runLoop (recordLoop (stop.loaded file)) fuel
      (0, ((stop.data file).length : Int)) = some leftBytes →
    (stop.after file leftBytes).fsize < 2 ^ 31
  forward : ∀ stop, ReflTransGen (Follows (pageLoop file)) (.start file page) stop →
    ¬ TransGen (Follows (pageLoop file)) stop stop

section RecordLoop

variable {page : Memory} {buf : Nat} {len : Int}

theorem recordLoop_stops (atEnd : len ≤ 0) : recordLoop page (buf, len) = .stops 0 := if_pos atEnd

theorem recordLoop_cut (positive : 0 < len) (cut : page.word (buf + 4) 2 > len) :
    recordLoop page (buf, len) = .stops (page.word (buf + 4) 2) := by
  rw [recordLoop, if_neg (by omega)]
  exact if_pos cut

theorem recordLoop_turns (positive : 0 < len) (fits : page.word (buf + 4) 2 ≤ len) :
    Follows (recordLoop page) (buf, len)
      (buf + page.word (buf + 4) 2, len - page.word (buf + 4) 2) := by
  rw [Follows, recordLoop, if_neg (by omega)]
  exact if_neg (by omega)

/-- A turn takes a record off the rest. -/
theorem follows_recordLoop {next : Nat × Int}
    (follows : Follows (recordLoop page) (buf, len) next) :
    0 < len ∧ page.word (buf + 4) 2 ≤ len ∧
      next = (buf + page.word (buf + 4) 2, len - page.word (buf + 4) 2) := by
  by_cases atEnd : len ≤ 0
  · rw [Follows, recordLoop_stops atEnd] at follows
    cases follows
  by_cases cut : page.word (buf + 4) 2 > len
  · rw [Follows, recordLoop_cut (by omega) cut] at follows
    cases follows
  · have turns := recordLoop_turns (by omega) (not_lt.mp cut)
    rw [Follows, show recordLoop page (buf, len) = _ from turns] at follows
    exact ⟨by omega, not_lt.mp cut, (Turn.turns.inj follows).symm⟩

theorem reached_recordLoop {cursor : Nat × Int}
    (reached : ReflTransGen (Follows (recordLoop page)) (buf, len) cursor) :
    ∃ taken : Nat, taken ≤ len.toNat ∧ cursor = (buf + taken, len - taken) := by
  induction reached with
  | refl => exact ⟨0, Nat.zero_le _, by simp⟩
  | tail _ follows inductionHypothesis =>
      obtain ⟨taken, bound, rfl⟩ := inductionHypothesis
      obtain ⟨positive, fits, rfl⟩ := follows_recordLoop follows
      refine ⟨taken + page.word (buf + taken + 4) 2, by omega, ?_⟩
      rw [Prod.mk.injEq]
      omega

theorem finite_reached_recordLoop :
    {cursor | ReflTransGen (Follows (recordLoop page)) (buf, len) cursor}.Finite := by
  refine ((Set.finite_le_nat len.toNat).image
    fun taken => (buf + taken, len - (taken : Int))).subset fun cursor reached => ?_
  obtain ⟨taken, bound, rfl⟩ := reached_recordLoop reached
  exact ⟨taken, bound, rfl⟩

theorem recordLoop_ne_stuck (cursor : Nat × Int) : recordLoop page cursor ≠ .stuck := by
  obtain ⟨buf, len⟩ := cursor
  rw [recordLoop]
  dsimp only
  split
  · exact nofun
  · split <;> exact nofun

theorem halts_recordLoop_iff : Halts (recordLoop page) (buf, len) ↔ SizesAdvance page buf len := by
  rw [halts_iff finite_reached_recordLoop]
  constructor
  · intro advances cursor rest reached positive zero
    have same : Follows (recordLoop page) (cursor, rest) (cursor, rest) := by
      have turns : Follows (recordLoop page) (cursor, rest) _ :=
        recordLoop_turns positive (by omega)
      rwa [zero, Nat.add_zero, Int.natCast_zero, Int.sub_zero] at turns
    exact (advances _ reached).2 (.single same)
  · intro advances ⟨cursor, rest⟩ reached
    refine ⟨recordLoop_ne_stuck _, fun returns => ?_⟩
    obtain ⟨next, follows, back⟩ := TransGen.head'_iff.mp returns
    obtain ⟨positive, fits, rfl⟩ := follows_recordLoop follows
    obtain ⟨taken, -, same⟩ := reached_recordLoop back
    have moved := advances cursor rest reached positive
    rw [Prod.mk.injEq] at same
    omega

/-- A page of so many bytes is done after as many records, or never. -/
theorem runLoop_recordLoop_enough {fuel leftBytes : Nat}
    (ended : runLoop (recordLoop page) fuel (buf, len) = some leftBytes) :
    runLoop (recordLoop page) (len.toNat + 1) (buf, len) = some leftBytes := by
  induction fuel generalizing buf len with
  | zero => cases ended
  | succ fuel inductionHypothesis =>
      cases turn : recordLoop page (buf, len) with
      | stops result =>
          rw [runLoop_of_stops turn] at ended ⊢
          exact ended
      | turns next =>
          obtain ⟨positive, fits, rfl⟩ := follows_recordLoop turn
          rw [runLoop_of_follows turn] at ended
          by_cases zero : page.word (buf + 4) 2 = 0
          · -- the same state with less fuel
            have same : (buf + page.word (buf + 4) 2, len - (page.word (buf + 4) 2 : Int)) =
                (buf, len) := by simp [zero]
            rw [same] at ended
            exact inductionHypothesis ended
          · obtain ⟨extra, enough⟩ : ∃ extra,
                len.toNat = (len - page.word (buf + 4) 2).toNat + 1 + extra :=
              ⟨page.word (buf + 4) 2 - 1, by omega⟩
            rw [runLoop_of_follows turn, enough]
            exact runLoop_add (inductionHypothesis ended) extra
      | stuck => exact absurd turn (recordLoop_ne_stuck _)

variable (handlers : ReturningHandlers State) (heap : Nat → Memory) (base : Nat)
  (page : Memory)

/-- The handlers do not matter to how the parser ends. -/
theorem trfsReadTfileBuf_eq_running_or (fuel buf : Nat) (len : Int) (progress : Progress State) :
    match runLoop (recordLoop page) fuel (buf, len) with
    | none => trfsReadTfileBuf handlers.handle heap base page fuel buf len progress = .running
    | some leftBytes => ∃ final,
        trfsReadTfileBuf handlers.handle heap base page fuel buf len progress =
          .done leftBytes final := by
  induction fuel generalizing buf len progress with
  | zero => rfl
  | succ fuel inductionHypothesis =>
      by_cases atEnd : len ≤ 0
      · rw [runLoop_of_stops (recordLoop_stops atEnd), trfsReadTfileBuf, if_pos atEnd]
        exact ⟨progress, rfl⟩
      by_cases cut : page.word (buf + 4) 2 > len
      · rw [runLoop_of_stops (recordLoop_cut (by omega) cut), trfsReadTfileBuf, if_neg atEnd]
        exact ⟨progress, if_pos cut⟩
      · obtain ⟨next, round⟩ := parseRound_returns heap base page handlers buf
          (page.word (buf + 4) 2) progress
        rw [runLoop_of_follows (recordLoop_turns (by omega) (not_lt.mp cut)), trfsReadTfileBuf,
          if_neg atEnd]
        simp only [if_neg cut, round]
        exact inductionHypothesis _ _ next

theorem runLoop_of_done {fuel buf leftBytes : Nat} {len : Int} {progress final : Progress State}
    (parsed : trfsReadTfileBuf handlers.handle heap base page fuel buf len progress =
      .done leftBytes final) :
    runLoop (recordLoop page) fuel (buf, len) = some leftBytes := by
  have parser := trfsReadTfileBuf_eq_running_or handlers heap base page fuel buf len progress
  rw [parsed] at parser
  split at parser
  next => cases parser
  next bytes ended =>
    obtain ⟨progress, same⟩ := parser
    cases same
    exact ended

theorem trfsReadTfileBuf_ne_running_iff (buf : Nat) (len : Int) (progress : Progress State) :
    (∃ fuel, trfsReadTfileBuf handlers.handle heap base page fuel buf len progress ≠ .running) ↔
      SizesAdvance page buf len := by
  rw [← halts_recordLoop_iff]
  constructor
  · rintro ⟨fuel, ended⟩
    have parser := trfsReadTfileBuf_eq_running_or handlers heap base page fuel buf len progress
    split at parser
    next => exact absurd parser ended
    next leftBytes halted => exact ⟨fuel, leftBytes, halted⟩
  · rintro ⟨fuel, leftBytes, halted⟩
    have parser := trfsReadTfileBuf_eq_running_or handlers heap base page fuel buf len progress
    rw [halted] at parser
    obtain ⟨final, done⟩ := parser
    exact ⟨fuel, by rw [done]; exact nofun⟩

end RecordLoop

namespace ReplayMain

def stop (main : ReplayMain State) : PageStop := ⟨main.position, main.fsize, main.page⟩

theorem data_stop (file : List UInt8) (main : ReplayMain State) :
    main.stop.data file = (file.drop main.position).take replayPageSize := rfl

theorem loaded_stop (file : List UInt8) (main : ReplayMain State) :
    main.stop.loaded file =
      main.page.store 0 ((file.drop main.position).take replayPageSize) := rfl

end ReplayMain

section PageLoop

variable {file : List UInt8} {stop : PageStop}

theorem pageLoop_stops (atEnd : stop.fsize ≤ 0 ∨ (stop.data file).length = 0) :
    pageLoop file stop = .stops () := if_pos atEnd

theorem pageLoop_turns (goesOn : ¬ (stop.fsize ≤ 0 ∨ (stop.data file).length = 0))
    {fuel leftBytes : Nat}
    (parsed : runLoop (recordLoop (stop.loaded file)) fuel
      (0, ((stop.data file).length : Int)) = some leftBytes)
    (inRange : (stop.after file leftBytes).fsize < 2 ^ 31) :
    Follows (pageLoop file) stop (stop.after file leftBytes) := by
  have enough := runLoop_recordLoop_enough parsed
  rw [Int.toNat_natCast] at enough
  rw [Follows, pageLoop, if_neg goesOn, enough]
  exact if_pos inRange

theorem atEnd_of_stops {result : Unit} (stops : pageLoop file stop = .stops result) :
    stop.fsize ≤ 0 ∨ (stop.data file).length = 0 := by
  by_contra goesOn
  rw [pageLoop, if_neg goesOn] at stops
  split at stops
  · cases stops
  · split at stops <;> cases stops

/-- A turn is a round with an end of the parser and with `fsize` an `int`. -/
theorem follows_pageLoop {next : PageStop} (follows : Follows (pageLoop file) stop next) :
    ¬ (stop.fsize ≤ 0 ∨ (stop.data file).length = 0) ∧
      ∃ leftBytes, runLoop (recordLoop (stop.loaded file)) ((stop.data file).length + 1)
          (0, ((stop.data file).length : Int)) = some leftBytes ∧
        next = stop.after file leftBytes ∧ next.fsize < 2 ^ 31 := by
  by_cases atEnd : stop.fsize ≤ 0 ∨ (stop.data file).length = 0
  · rw [Follows, pageLoop_stops atEnd] at follows
    cases follows
  refine ⟨atEnd, ?_⟩
  rw [Follows, pageLoop, if_neg atEnd] at follows
  split at follows
  next => cases follows
  next leftBytes parsed =>
    split at follows
    next inRange =>
      cases follows
      exact ⟨leftBytes, parsed, rfl, inRange⟩
    next => cases follows

theorem length_data_le (file : List UInt8) (stop : PageStop) :
    (stop.data file).length ≤ replayPageSize ∧
      (stop.data file).length ≤ file.length - stop.position := by
  rw [PageStop.data, List.length_take, List.length_drop]
  omega

/-- The variables stay in range, and the page behind its 4096 bytes as it was. -/
structure PageStop.Within (file : List UInt8) (page : Memory) (stop : PageStop) : Prop where
  position : stop.position ≤ file.length
  fsize : -2 ^ 31 ≤ stop.fsize ∧ stop.fsize < 2 ^ 31
  page : ∀ index, replayPageSize ≤ index → stop.page index = page index

theorem fsize_start (file : List UInt8) (page : Memory) :
    (PageStop.start file page).fsize = toInt32 file.length := by
  rw [PageStop.start]

theorem reached_pageLoop {page : Memory}
    (reached : ReflTransGen (Follows (pageLoop file)) (.start file page) stop) :
    stop.Within file page := by
  induction reached with
  | refl =>
      refine ⟨Nat.zero_le _, ?_, fun _ _ => rfl⟩
      rw [fsize_start]
      exact toInt32_range file.length
  | @tail stop next _ follows inductionHypothesis =>
      obtain ⟨goesOn, leftBytes, -, rfl, inRange⟩ := follows_pageLoop follows
      have length := length_data_le file stop
      have position := inductionHypothesis.position
      refine ⟨?_, ⟨?_, inRange⟩, fun index behind => ?_⟩
      · simp only [PageStop.after, lseekBack]
        split <;> omega
      · simp only [PageStop.after, replayPageSize] at *
        omega
      · have outside : index < 0 ∨ 0 + (stop.data file).length ≤ index := by omega
        rw [← inductionHypothesis.page index behind]
        exact Memory.store_of_outside stop.page 0 (stop.data file) outside

/-- Only the page itself can differ between two states of the loop. -/
theorem finite_reached_pageLoop (file : List UInt8) (page : Memory) :
    {stop | ReflTransGen (Follows (pageLoop file)) (.start file page) stop}.Finite := by
  let stopAt (place : Fin (file.length + 1) × Fin (2 ^ 32) × (Fin replayPageSize → Fin 256)) :
      PageStop :=
    ⟨place.1, (place.2.1 : Int) - 2 ^ 31, fun index =>
      if inside : index < replayPageSize then .ofFin (place.2.2 ⟨index, inside⟩) else page index⟩
  refine (Set.finite_range stopAt).subset fun stop reached => ?_
  obtain ⟨position, fsize, same⟩ := reached_pageLoop reached
  have size : (stop.fsize + 2 ^ 31).toNat < 2 ^ 32 := by omega
  refine ⟨⟨⟨stop.position, by omega⟩, ⟨_, size⟩, fun index => (stop.page index).toFin⟩, ?_⟩
  have bytes : (fun index => if inside : index < replayPageSize then
      UInt8.ofFin (stop.page index).toFin else page index) = stop.page := by
    funext index
    by_cases inside : index < replayPageSize
    · rw [dif_pos inside, UInt8.ofFin_toFin]
    · rw [dif_neg inside, same index (not_lt.mp inside)]
  have back : (((stop.fsize + 2 ^ 31).toNat : Nat) : Int) - 2 ^ 31 = stop.fsize := by omega
  simp only [stopAt, back, bytes]

variable (handlers : ReturningHandlers State) (heap : Nat → Memory)

/-- A round of `main` in terms of what the parser makes of the page. -/
theorem treplayLoop_round (steps fuel : Nat) {main : ReplayMain State}
    (goesOn : ¬ (main.stop.fsize ≤ 0 ∨ (main.stop.data file).length = 0)) :
    match runLoop (recordLoop (main.stop.loaded file)) steps
      (0, ((main.stop.data file).length : Int)) with
    | none => treplayLoop handlers.handle heap file steps (fuel + 1) main = .running
    | some leftBytes => ∃ next : ReplayMain State, next.stop = main.stop.after file leftBytes ∧
        treplayLoop handlers.handle heap file steps (fuel + 1) main =
          if next.stop.fsize < 2 ^ 31 then treplayLoop handlers.handle heap file steps fuel next
          else .fault := by
  obtain ⟨positive, nonempty⟩ := not_or.mp goesOn
  have notOver : ¬ main.fsize ≤ 0 := positive
  have parser := trfsReadTfileBuf_eq_running_or handlers heap main.position
    (main.stop.loaded file) steps 0 (main.stop.data file).length main.progress
  simp only [ReplayMain.data_stop, ReplayMain.loaded_stop] at parser nonempty ⊢
  rw [treplayLoop, if_neg notOver]
  dsimp only
  rw [if_neg nonempty]
  split at parser
  next => rw [parser]
  next leftBytes _ =>
    obtain ⟨progress, done⟩ := parser
    refine ⟨main.seekBack ((file.drop main.position).take replayPageSize) leftBytes progress,
      rfl, ?_⟩
    rw [done]
    rfl

theorem runLoop_of_treplayLoop {steps fuel : Nat} {main final : ReplayMain State}
    (ended : treplayLoop handlers.handle heap file steps fuel main = .finished final ∨
      treplayLoop handlers.handle heap file steps fuel main = .partially final) :
    runLoop (pageLoop file) fuel main.stop = some () := by
  induction fuel generalizing main with
  | zero => rcases ended with ended | ended <;> cases ended
  | succ fuel inductionHypothesis =>
      by_cases atEnd : main.stop.fsize ≤ 0 ∨ (main.stop.data file).length = 0
      · exact runLoop_of_stops (pageLoop_stops atEnd) fuel
      have round := treplayLoop_round handlers heap steps fuel atEnd
      split at round
      next =>
        rw [round] at ended
        rcases ended with ended | ended <;> cases ended
      next leftBytes parsed =>
        obtain ⟨next, after, rounds⟩ := round
        by_cases inRange : next.stop.fsize < 2 ^ 31
        · rw [rounds, if_pos inRange] at ended
          rw [after] at inRange
          rw [runLoop_of_follows (pageLoop_turns atEnd parsed inRange), ← after]
          exact inductionHypothesis ended
        · rw [rounds, if_neg inRange] at ended
          rcases ended with ended | ended <;> cases ended

/-- With fuel for a page of records the parser is never the reason not to end. -/
theorem treplayLoop_of_runLoop {fuel : Nat} {main : ReplayMain State}
    (ended : runLoop (pageLoop file) fuel main.stop = some ()) :
    ∃ final,
      treplayLoop handlers.handle heap file (replayPageSize + 1) fuel main = .finished final ∨
        treplayLoop handlers.handle heap file (replayPageSize + 1) fuel main =
          .partially final := by
  induction fuel generalizing main with
  | zero => cases ended
  | succ fuel inductionHypothesis =>
      by_cases atEnd : main.stop.fsize ≤ 0 ∨ (main.stop.data file).length = 0
      · refine ⟨main, ?_⟩
        rw [treplayLoop]
        by_cases atZero : main.fsize ≤ 0
        · exact .inl (if_pos atZero)
        · rw [if_neg atZero]
          exact .inr (if_pos (atEnd.resolve_left atZero))
      cases turn : pageLoop file main.stop with
      | stops => exact absurd (atEnd_of_stops turn) atEnd
      | turns stop =>
          obtain ⟨-, leftBytes, parsed, rfl, inRange⟩ := follows_pageLoop turn
          have bound : (main.stop.data file).length ≤ replayPageSize := by
            rw [ReplayMain.data_stop, List.length_take]
            exact Nat.min_le_left _ _
          obtain ⟨extra, enough⟩ := Nat.exists_eq_add_of_le bound
          have round := treplayLoop_round handlers heap (replayPageSize + 1) fuel atEnd
          rw [enough, Nat.add_right_comm, runLoop_add parsed extra] at round
          obtain ⟨next, after, rounds⟩ := round
          rw [runLoop_of_follows turn, ← after] at ended
          rw [enough, Nat.add_right_comm, rounds, if_pos (after ▸ inRange)]
          have later := inductionHypothesis ended
          rwa [enough, Nat.add_right_comm] at later
      | stuck =>
          rw [runLoop_of_stuck turn] at ended
          cases ended

theorem endsByItself_iff_halts (page : Memory) (state : State) :
    EndsByItself handlers.handle heap file page state ↔
      Halts (pageLoop file) (.start file page) := by
  have started : (ReplayMain.start file page state).stop = .start file page := by
    rw [ReplayMain.stop, ReplayMain.start, PageStop.start]
  rw [← started]
  constructor
  · rintro ⟨steps, fuel, final, ended⟩
    exact ⟨fuel, (), runLoop_of_treplayLoop handlers heap ended⟩
  · rintro ⟨fuel, result, ended⟩
    obtain ⟨final, finished⟩ := treplayLoop_of_runLoop handlers heap ended
    exact ⟨replayPageSize + 1, fuel, final, finished⟩

/-- The page loop is stuck on a page that the record loop does not get through, and
where `fsize` overflows. -/
theorem pageLoop_ne_stuck_iff : pageLoop file stop ≠ .stuck ↔
    (0 < stop.fsize → SizesAdvance (stop.loaded file) 0 (stop.data file).length) ∧
      (0 < stop.fsize → (stop.data file).length ≠ 0 → ∀ fuel leftBytes,
        runLoop (recordLoop (stop.loaded file)) fuel
          (0, ((stop.data file).length : Int)) = some leftBytes →
        (stop.after file leftBytes).fsize < 2 ^ 31) := by
  by_cases atEnd : stop.fsize ≤ 0 ∨ (stop.data file).length = 0
  · rw [pageLoop_stops atEnd]
    refine iff_of_true nofun ⟨fun positive => ?_, fun positive someBytes => ?_⟩
    · have empty := atEnd.resolve_left (by omega)
      intro cursor rest reached left
      obtain ⟨taken, bound, same⟩ := reached_recordLoop reached
      rw [Prod.mk.injEq] at same
      omega
    · exact absurd (atEnd.resolve_left (by omega)) someBytes
  · obtain ⟨positive, someBytes⟩ := not_or.mp atEnd
    rw [← halts_recordLoop_iff]
    constructor
    · intro goesOn
      cases turn : pageLoop file stop with
      | stops => exact absurd (atEnd_of_stops turn) atEnd
      | turns next =>
          obtain ⟨-, leftBytes, parsed, rfl, inRange⟩ := follows_pageLoop turn
          refine ⟨fun _ => ⟨_, leftBytes, parsed⟩, fun _ _ fuel other ended => ?_⟩
          have same := runLoop_recordLoop_enough ended
          rw [Int.toNat_natCast, parsed, Option.some.injEq] at same
          rwa [← same]
      | stuck => exact absurd turn goesOn
    · rintro ⟨halts, inRange⟩
      obtain ⟨fuel, leftBytes, parsed⟩ := halts (by omega)
      have turns := pageLoop_turns atEnd parsed (inRange (by omega) someBytes fuel leftBytes parsed)
      rw [show pageLoop file stop = _ from turns]
      exact nofun

theorem halts_pageLoop_iff (page : Memory) :
    Halts (pageLoop file) (.start file page) ↔ PagesAdvance file page := by
  rw [halts_iff (finite_reached_pageLoop file page)]
  constructor
  · intro advances
    refine ⟨fun stop reached => ?_, fun stop reached => ?_, fun stop reached => ?_⟩
    · exact (pageLoop_ne_stuck_iff.mp (advances stop reached).1).1
    · exact (pageLoop_ne_stuck_iff.mp (advances stop reached).1).2
    · exact (advances stop reached).2
  · rintro ⟨sizes, fsize, forward⟩ stop reached
    exact ⟨pageLoop_ne_stuck_iff.mpr ⟨sizes stop reached, fsize stop reached⟩,
      forward stop reached⟩

end PageLoop

section PageLong

open FramedRecord

variable (handlers : ReturningHandlers State) (heap : Nat → Memory)

/-- Pages that end with records are read one after the other. -/
theorem endsByItself_of_pagesEndRecords {records : List FramedRecord}
    (ends : PagesEndRecords records) (short : (file records).length < 2 ^ 31) (page : Memory)
    (state : State) : EndsByItself handlers.handle heap (file records) page state := by
  obtain ⟨steps, fuel, final, finished, -⟩ :=
    (replaysExactly_iff_of_covered handlers heap page state records (.inl short)).mpr ⟨ends, short⟩
  exact ⟨steps, fuel, final, .inl finished⟩

/-- The size field is on the page when the first bytes of the record are. -/
theorem word_rSize_of_cut {page : Memory} {buf count : Nat} {record : FramedRecord}
    (header : 6 ≤ count) (placed : page.load buf count = record.bytes.take count) :
    page.word (buf + 4) 2 = record.bytes.length := by
  rw [Memory.word, ← record.framed]
  congr 1
  have field : ((page.load buf count).drop 4).take 2 = page.load (buf + 4) 2 := by
    rw [Memory.drop_load _ _ _ _ (by omega), Memory.take_load _ _ _ _ (by omega)]
  rw [← field, placed, List.drop_take, List.take_take, Nat.min_eq_left (by omega)]

/-- Behind the records that a page holds whole stands the beginning of the next. -/
theorem load_of_cut (page : Memory) {first : List FramedRecord} {record : FramedRecord}
    (rest : List FramedRecord) {size : Nat} (starts : (file first).length ≤ size)
    (cut : size ≤ (file first).length + record.bytes.length) :
    (page.store 0 ((file (first ++ record :: rest)).take size)).load (0 + (file first).length)
        (size - (file first).length) = record.bytes.take (size - (file first).length) := by
  have length : ((file (first ++ record :: rest)).take size).length = size := by
    simp only [file_append, file_cons, List.length_take, List.length_append]
    omega
  have stored := page.load_store_same 0 ((file (first ++ record :: rest)).take size)
  rw [length] at stored
  rw [← Memory.drop_load _ _ _ _ starts, stored, List.drop_take, file_append,
    List.drop_left' rfl, file_cons, List.take_append_of_le_length (by omega)]

/-- The parser comes to a record as long as a page that begins further down. -/
theorem runLoop_recordLoop_of_pageLong {first : List FramedRecord} {record : FramedRecord}
    (header : (file first).length + 6 ≤ replayPageSize) (nonempty : first ≠ [])
    (long : record.bytes.length = replayPageSize) (rest : List FramedRecord) (page : Memory) :
    let data := (file (first ++ record :: rest)).take replayPageSize
    data.length = replayPageSize ∧ ∃ fuel,
      runLoop (recordLoop (page.store 0 data)) fuel (0, (data.length : Int)) =
        some replayPageSize := by
  intro data
  have atRecord : AtRecord [] (first ++ record :: rest)
      (⟨0, 0, page, ⟨(), []⟩⟩ : ReplayMain Unit) := ⟨rfl, rfl⟩
  have someBytes : (file first).length ≠ 0 := by
    rwa [Ne, List.length_eq_zero_iff, file_eq_nil_iff]
  obtain ⟨length, reached, -, parsed⟩ :=
    atRecord.page_cut idleHandlers (fun _ _ => 0) (by omega) (by omega)
  have whole : data.length = replayPageSize := length
  have starts : (file first).length ≤ replayPageSize := by omega
  have cuts : replayPageSize ≤ (file first).length + record.bytes.length := by omega
  have begins := load_of_cut page rest starts cuts
  have size : (page.store 0 data).word (0 + (file first).length + 4) 2 = replayPageSize :=
    (word_rSize_of_cut (by omega) begins).trans long
  have cut : trfsReadTfileBuf idleHandlers.handle (fun _ _ => 0) 0 (page.store 0 data)
      (1 + first.length) 0 replayPageSize ⟨(), []⟩ = .done replayPageSize reached := by
    rw [parsed 1, trfsReadTfileBuf, if_neg (by omega)]
    dsimp only
    rw [size, if_pos (by omega)]
  refine ⟨length, 1 + first.length, ?_⟩
  rw [whole]
  exact runLoop_of_done idleHandlers (fun _ _ => 0) 0 (page.store 0 data) cut

/-- The page loop seeks back by a page, to where it has just read. -/
theorem follows_of_pageLong {first : List FramedRecord} {record : FramedRecord}
    (header : (file first).length + 6 ≤ replayPageSize) (nonempty : first ≠ [])
    (long : record.bytes.length = replayPageSize) (rest : List FramedRecord) {fsize : Int}
    (positive : 0 < fsize) (inRange : fsize < 2 ^ 31) (page : Memory) :
    Follows (pageLoop (file (first ++ record :: rest))) ⟨0, fsize, page⟩
      ⟨0, fsize, page.store 0 ((file (first ++ record :: rest)).take replayPageSize)⟩ := by
  obtain ⟨whole, fuel, parsed⟩ := runLoop_recordLoop_of_pageLong header nonempty long rest page
  have length : ((PageStop.mk 0 fsize page).data (file (first ++ record :: rest))).length =
      replayPageSize := whole
  have after : (PageStop.mk 0 fsize page).after (file (first ++ record :: rest)) replayPageSize =
      ⟨0, fsize, page.store 0 ((file (first ++ record :: rest)).take replayPageSize)⟩ := by
    rw [PageStop.after, length, PageStop.mk.injEq]
    refine ⟨?_, ?_, rfl⟩
    · simp [lseekBack]
    · dsimp only
      omega
  rw [← after]
  refine pageLoop_turns ?_ parsed ?_
  · rw [length, not_or]
    exact ⟨not_le.mpr positive, by decide⟩
  · rw [after]
    exact inRange

/-- A record as long as a page behind others on the first page of a trace. -/
theorem not_endsByItself_of_pageLong {first rest : List FramedRecord} {record : FramedRecord}
    (header : (file first).length + 6 ≤ replayPageSize) (nonempty : first ≠ [])
    (long : record.bytes.length = replayPageSize)
    (short : (file (first ++ record :: rest)).length < 2 ^ 31) (page : Memory) (state : State) :
    ¬ EndsByItself handlers.handle heap (file (first ++ record :: rest)) page state := by
  rw [endsByItself_iff_halts]
  intro halts
  have size : (file (first ++ record :: rest)).length =
      (file first).length + (replayPageSize + (file rest).length) := by simp [long]
  have positive : (0 : Int) < (file (first ++ record :: rest)).length := by
    rw [replayPageSize] at size
    omega
  have inRange : ((file (first ++ record :: rest)).length : Int) < 2 ^ 31 := by omega
  have back := follows_of_pageLong header nonempty long rest positive inRange
  have once := back page
  have again := back (page.store 0 ((file (first ++ record :: rest)).take replayPageSize))
  rw [Memory.store_store] at again
  rw [PageStop.start, toInt32_of_range (by omega) inRange] at halts
  exact (halts.of_reached (.single once)).not_returns (.single again)

/-- The record loop ends exactly when the sizes on its page advance, and the page
loop exactly when its pages do.  Of well-formed traces, one whose pages end with
records is read to its end, and one with a record as long as a page behind others on
its first page is not. -/
theorem treplay_ends_iff (handlers : ReturningHandlers State) (heap : Nat → Memory) :
    (∀ (base : Nat) (page : Memory) (buf : Nat) (len : Int) (progress : Progress State),
      (∃ fuel, trfsReadTfileBuf handlers.handle heap base page fuel buf len progress ≠ .running) ↔
        SizesAdvance page buf len) ∧
      (∀ (file : List UInt8) (page : Memory) (state : State),
        EndsByItself handlers.handle heap file page state ↔ PagesAdvance file page) ∧
      (∀ (records : List FramedRecord) (page : Memory) (state : State),
        PagesEndRecords records → (file records).length < 2 ^ 31 →
          EndsByItself handlers.handle heap (file records) page state) ∧
      ∀ (first rest : List FramedRecord) (record : FramedRecord) (page : Memory) (state : State),
        (file first).length + 6 ≤ replayPageSize → first ≠ [] →
          record.bytes.length = replayPageSize →
          (file (first ++ record :: rest)).length < 2 ^ 31 →
            ¬ EndsByItself handlers.handle heap (file (first ++ record :: rest)) page state := by
  refine ⟨fun base page buf len progress => ?_, fun file page state => ?_,
    fun records page state ends short => ?_,
    fun first rest record page state header nonempty long short => ?_⟩
  · exact trfsReadTfileBuf_ne_running_iff handlers heap base page buf len progress
  · rw [endsByItself_iff_halts, halts_pageLoop_iff]
  · exact endsByItself_of_pagesEndRecords handlers heap ends short page state
  · exact not_endsByItself_of_pageLong handlers heap header nonempty long short page state

/-- A page of zeros is never got through, and neither is a trace of two records. -/
theorem not_treplay_ends_cutTrace :
    (∀ fuel, trfsReadTfileBuf idleHandlers.handle (fun _ _ => 0) 0 (fun _ => 0) fuel 0 4096
        ⟨(), []⟩ = .running) ∧
      ¬ EndsByItself idleHandlers.handle (fun _ _ => 0) (file cutTrace) (fun _ => 0) () := by
  constructor
  · intro fuel
    have stays : Follows (recordLoop fun _ => 0) (0, 4096) (0, 4096) := rfl
    have parser := trfsReadTfileBuf_eq_running_or idleHandlers (fun _ _ => 0) 0 (fun _ => 0) fuel
      0 4096 ⟨(), []⟩
    split at parser
    next => exact parser
    next leftBytes ended =>
      have halts : Halts (recordLoop fun _ => 0) (0, 4096) := ⟨fuel, leftBytes, ended⟩
      exact absurd (.single stays) halts.not_returns
  · have size := length_file_cutTrace
    obtain ⟨first, second, cut, short, long⟩ := cutTrace_eq
    rw [cut] at size ⊢
    apply not_endsByItself_of_pageLong
    · simp [short, replayPageSize]
    · exact List.cons_ne_nil _ _
    · exact long
    · omega

end PageLong

end Tracefs
