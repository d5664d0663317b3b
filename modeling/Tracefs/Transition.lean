import Mathlib.Tactic.Common

/-!
# Runs of a transition system

A system is a total step function over actions.  `Along` says that a property
holds at every step of a run.  `observe` runs a system whose steps also show an
output; two such systems are compared by a relation on their states.
-/

namespace Tracefs.Transition

universe u v w x

variable {State : Type u} {Action : Type v}

def run (step : State → Action → State) (start : State) (actions : List Action) : State :=
  actions.foldl step start

@[simp] theorem run_nil (step : State → Action → State) (start : State) :
    run step start [] = start := rfl

@[simp] theorem run_cons (step : State → Action → State) (start : State) (action : Action)
    (actions : List Action) :
    run step start (action :: actions) = run step (step start action) actions := rfl

theorem run_invariant {step : State → Action → State} (Invariant : State → Prop)
    (preserved : ∀ state action, Invariant state → Invariant (step state action))
    {start : State} (initially : Invariant start) (actions : List Action) :
    Invariant (run step start actions) := by
  induction actions generalizing start with
  | nil => exact initially
  | cons action actions inductionHypothesis =>
      exact inductionHypothesis (preserved start action initially)

/-- `property` holds of every action of a run, in the state it is taken in. -/
def Along (step : State → Action → State) (property : State → Action → Prop) :
    State → List Action → Prop
  | _, [] => True
  | state, action :: actions =>
      property state action ∧ Along step property (step state action) actions

/-- Two properties that agree wherever an invariant holds agree along whole runs,
as long as one of them keeps the invariant. -/
theorem along_iff {step : State → Action → State} {first second : State → Action → Prop}
    (Invariant : State → Prop)
    (agree : ∀ state action, Invariant state → (first state action ↔ second state action))
    (preserved : ∀ state action, Invariant state → first state action →
      Invariant (step state action))
    {start : State} (initially : Invariant start) (actions : List Action) :
    Along step first start actions ↔ Along step second start actions := by
  induction actions generalizing start with
  | nil => exact Iff.rfl
  | cons action actions inductionHypothesis =>
      simp only [Along, ← agree start action initially]
      exact and_congr_right fun holds =>
        inductionHypothesis (preserved start action initially holds)

theorem along_run {step : State → Action → State} {property : State → Action → Prop}
    (Invariant : State → Prop)
    (preserved : ∀ state action, Invariant state → property state action →
      Invariant (step state action))
    {start : State} (initially : Invariant start) {actions : List Action}
    (along : Along step property start actions) : Invariant (run step start actions) := by
  induction actions generalizing start with
  | nil => exact initially
  | cons action actions inductionHypothesis =>
      exact inductionHypothesis (preserved start action initially along.1) along.2

theorem along_forall_iff (step : State → Action → State) (property : Action → Prop)
    (start : State) (actions : List Action) :
    Along step (fun _ action => property action) start actions ↔
      ∀ action ∈ actions, property action := by
  induction actions generalizing start with
  | nil => simp [Along]
  | cons action actions inductionHypothesis => simp [Along, inductionHypothesis]

theorem along_of_forall_mem {step : State → Action → State} {property : State → Action → Prop}
    {start : State} {actions : List Action}
    (always : ∀ action ∈ actions, ∀ state, property state action) :
    Along step property start actions := by
  induction actions generalizing start with
  | nil => trivial
  | cons action actions inductionHypothesis =>
      exact ⟨always action (by simp) start,
        inductionHypothesis fun later member => always later (by simp [member])⟩

theorem run_append (step : State → Action → State) (start : State)
    (first second : List Action) :
    run step start (first ++ second) = run step (run step start first) second :=
  List.foldl_append

theorem run_append_singleton (step : State → Action → State) (start : State)
    (actions : List Action) (action : Action) :
    run step start (actions ++ [action]) = step (run step start actions) action := by
  simp [run]

theorem along_append (step : State → Action → State) (property : State → Action → Prop)
    (start : State) (first second : List Action) :
    Along step property start (first ++ second) ↔
      Along step property start first ∧ Along step property (run step start first) second := by
  induction first generalizing start with
  | nil => simp [Along]
  | cons action first inductionHypothesis =>
      simp only [List.cons_append, Along, inductionHypothesis, run_cons, and_assoc]

/-- A measure that every step of a kind lowers bounds the runs of such steps. -/
theorem length_le_of_along {step : State → Action → State} {property : State → Action → Prop}
    (Invariant : State → Prop) (measure : State → Nat)
    (preserved : ∀ state action, Invariant state → property state action →
      Invariant (step state action))
    (lower : ∀ state action, Invariant state → property state action →
      measure (step state action) < measure state)
    {start : State} (initially : Invariant start) {actions : List Action}
    (along : Along step property start actions) : actions.length ≤ measure start := by
  induction actions generalizing start with
  | nil => exact Nat.zero_le _
  | cons action actions inductionHypothesis =>
      have rest := inductionHypothesis (preserved start action initially along.1) along.2
      have first := lower start action initially along.1
      rw [List.length_cons]
      omega

theorem along_append_singleton (step : State → Action → State)
    (property : State → Action → Prop) (start : State) (actions : List Action)
    (action : Action) :
    Along step property start (actions ++ [action]) ↔
      Along step property start actions ∧ property (run step start actions) action := by
  induction actions generalizing start with
  | nil => simp [Along]
  | cons first actions inductionHypothesis =>
      simp only [List.cons_append, Along, inductionHypothesis, run_cons, and_assoc]

section Observed

variable {Abstract : Type w} {Output : Type x}

/-- The state after a finite sequence of actions, and what each action showed. -/
def observe (step : State → Action → State × Output) (start : State) :
    List Action → State × List Output
  | [] => (start, [])
  | action :: actions =>
      let next := step start action
      let rest := observe step next.1 actions
      (rest.1, next.2 :: rest.2)

/-- A relation kept by every action, whose related steps show the same output,
is kept by whole runs. -/
theorem observe_simulates {concrete : State → Action → State × Output}
    {abstract : Abstract → Action → Abstract × Output} (Related : State → Abstract → Prop)
    (Admissible : Action → Prop)
    (simulates : ∀ state specification action, Admissible action →
      Related state specification →
        (concrete state action).2 = (abstract specification action).2 ∧
          Related (concrete state action).1 (abstract specification action).1)
    {state : State} {specification : Abstract} (related : Related state specification)
    {actions : List Action} (admissible : ∀ action ∈ actions, Admissible action) :
    (observe concrete state actions).2 = (observe abstract specification actions).2 ∧
      Related (observe concrete state actions).1 (observe abstract specification actions).1 := by
  induction actions generalizing state specification with
  | nil => exact ⟨rfl, related⟩
  | cons action actions inductionHypothesis =>
      obtain ⟨shown, next⟩ :=
        simulates state specification action (admissible action (by simp)) related
      obtain ⟨restShown, final⟩ := inductionHypothesis next
        fun later membership => admissible later (List.mem_cons_of_mem _ membership)
      simp only [observe]
      exact ⟨by rw [shown, restShown], final⟩

end Observed

end Tracefs.Transition
