import Mathlib.Data.Fintype.Card
import Mathlib.Logic.Relation
import Mathlib.Tactic.Common

/-!
# Loops that may not end

One turn of a loop stops it with a result, goes on with another state, or gets
stuck.  If only finitely many states can be reached, a loop ends exactly when none
of them is stuck and none is reached from itself again.
-/

namespace Tracefs.Loop

open Relation

universe u v

inductive Turn (State : Type u) (Result : Type v) where
  | stops (result : Result)
  | turns (state : State)
  | stuck

variable {State : Type u} {Result : Type v}

def runLoop (loop : State → Turn State Result) : (fuel : Nat) → State → Option Result
  | 0, _ => none
  | fuel + 1, state =>
      match loop state with
      | .stops result => some result
      | .turns next => runLoop loop fuel next
      | .stuck => none

def Follows (loop : State → Turn State Result) (state next : State) : Prop :=
  loop state = .turns next

def Halts (loop : State → Turn State Result) (state : State) : Prop :=
  ∃ fuel result, runLoop loop fuel state = some result

variable {loop : State → Turn State Result} {state next : State} {result : Result} {fuel : Nat}

theorem runLoop_of_stops (stops : loop state = .stops result) (fuel : Nat) :
    runLoop loop (fuel + 1) state = some result := by
  rw [runLoop, stops]

theorem runLoop_of_follows (follows : Follows loop state next) (fuel : Nat) :
    runLoop loop (fuel + 1) state = runLoop loop fuel next := by
  rw [runLoop, show loop state = .turns next from follows]

theorem runLoop_of_stuck (stuck : loop state = .stuck) (fuel : Nat) :
    runLoop loop fuel state = none := by
  cases fuel with
  | zero => rfl
  | succ fuel => rw [runLoop, stuck]

theorem runLoop_add (ended : runLoop loop fuel state = some result) (extra : Nat) :
    runLoop loop (fuel + extra) state = some result := by
  induction fuel generalizing state with
  | zero => cases ended
  | succ fuel inductionHypothesis =>
      rw [Nat.add_right_comm]
      cases turn : loop state with
      | stops early =>
          rw [runLoop_of_stops turn] at ended ⊢
          exact ended
      | turns next =>
          rw [runLoop_of_follows turn] at ended ⊢
          exact inductionHypothesis ended
      | stuck => rw [runLoop_of_stuck turn] at ended; cases ended

theorem halts_iff_of_follows (follows : Follows loop state next) :
    Halts loop state ↔ Halts loop next := by
  constructor
  · rintro ⟨fuel, result, ended⟩
    cases fuel with
    | zero => cases ended
    | succ fuel => exact ⟨fuel, result, by rwa [runLoop_of_follows follows] at ended⟩
  · rintro ⟨fuel, result, ended⟩
    exact ⟨fuel + 1, result, by rwa [runLoop_of_follows follows]⟩

theorem Halts.ne_stuck (halts : Halts loop state) : loop state ≠ .stuck := by
  intro stuck
  obtain ⟨fuel, result, ended⟩ := halts
  rw [runLoop_of_stuck stuck] at ended
  cases ended

theorem Halts.of_reached (halts : Halts loop state)
    (reached : ReflTransGen (Follows loop) state next) : Halts loop next := by
  induction reached with
  | refl => exact halts
  | tail _ follows inductionHypothesis =>
      exact (halts_iff_of_follows follows).mp inductionHypothesis

/-- The states behind an end in so many turns are closer to it. -/
theorem runLoop_of_reached (ended : runLoop loop fuel state = some result)
    (reached : ReflTransGen (Follows loop) state next) :
    runLoop loop fuel next = some result := by
  induction reached with
  | refl => exact ended
  | tail _ follows inductionHypothesis =>
      cases fuel with
      | zero => cases inductionHypothesis
      | succ fuel =>
          rw [runLoop_of_follows follows] at inductionHypothesis
          exact runLoop_add inductionHypothesis 1

theorem Halts.not_returns (halts : Halts loop state) : ¬ TransGen (Follows loop) state state := by
  intro returns
  obtain ⟨fuel, result, ended⟩ := halts
  induction fuel with
  | zero => cases ended
  | succ fuel inductionHypothesis =>
      obtain ⟨next, follows, back⟩ := TransGen.head'_iff.mp returns
      rw [runLoop_of_follows follows] at ended
      exact inductionHypothesis (runLoop_of_reached ended back)

theorem halts_iff {start : State}
    (finite : {state | ReflTransGen (Follows loop) start state}.Finite) :
    Halts loop start ↔ ∀ state, ReflTransGen (Follows loop) start state →
      loop state ≠ .stuck ∧ ¬ TransGen (Follows loop) state state := by
  constructor
  · intro halts state reached
    exact ⟨(halts.of_reached reached).ne_stuck, (halts.of_reached reached).not_returns⟩
  · intro advances
    let Reached := {state // ReflTransGen (Follows loop) start state}
    let After (later earlier : Reached) : Prop := TransGen (Follows loop) earlier.1 later.1
    have : Finite Reached := finite
    have : IsTrans Reached After := ⟨fun _ _ _ first second => second.trans first⟩
    have : Std.Irrefl After := ⟨fun state => (advances state.1 state.2).2⟩
    have wellFounded : WellFounded After := Finite.wellFounded_of_trans_of_irrefl After
    -- the later states of a turn are below the earlier ones
    have each (state : Reached) : Halts loop state.1 := by
      induction state using wellFounded.induction with
      | _ state inductionHypothesis =>
          cases turn : loop state.1 with
          | stops result => exact ⟨1, result, runLoop_of_stops turn 0⟩
          | turns next =>
              have follows : Follows loop state.1 next := turn
              exact (halts_iff_of_follows follows).mpr
                (inductionHypothesis ⟨next, state.2.tail follows⟩ (.single follows))
          | stuck => exact absurd turn (advances state.1 state.2).1
    exact each ⟨start, .refl⟩

end Tracefs.Loop
