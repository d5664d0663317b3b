import Mathlib.Tactic.Common

/-!
# Waiting for a condition

A task that waits for a condition tests it once, and while it is false joins the wait queue, tests
again, and sleeps.  A wake-up reaches every task in the queue: one that sleeps runs again, one that
has not slept yet will not sleep.  Joining before the second test is what makes the wait safe, as
long as whoever makes the condition true wakes the queue afterwards.
-/

namespace Tracefs.WaitQueue

universe u

/-- Where a task stands in the wait. -/
inductive Wait (Condition : Type u) where
  | testing (condition : Condition)
  | joining (condition : Condition)
  | joined (condition : Condition) (woken : Bool)
  | asleep (condition : Condition)
  | done

namespace Wait

variable {Condition : Type u}

/-- The next step of the waiting task itself.  A task that finds the condition false after it has
joined sleeps, unless a wake-up has reached it since. -/
def advance (holds : Condition → Bool) : Wait Condition → Wait Condition
  | testing condition => if holds condition then done else joining condition
  | joining condition => joined condition false
  | joined condition woken =>
      if holds condition then done else if woken then joining condition else asleep condition
  | asleep condition => asleep condition
  | done => done

/-- What a wake-up of the queue does to one task. -/
def wake : Wait Condition → Wait Condition
  | joined condition _ => joined condition true
  | asleep condition => joining condition
  | wait => wait

/-- A signal, or the end of the time to wait, ends the wait once the first test has failed. -/
def interrupt : Wait Condition → Wait Condition
  | testing condition => testing condition
  | _ => done

/-- No task sleeps on a condition that holds, or a wake-up is on its way. -/
def Covered (holds : Condition → Bool) (wakePending : Prop) (wait : Wait Condition) : Prop :=
  ∀ condition, wait = asleep condition → holds condition = true → wakePending

variable {holds : Condition → Bool} {wakePending : Prop} {wait : Wait Condition}

theorem wake_ne_asleep (wait : Wait Condition) (condition : Condition) :
    wait.wake ≠ asleep condition := by
  cases wait <;> simp [wake]

theorem wake_eq_done : wait.wake = done ↔ wait = done := by
  cases wait <;> simp [wake]

theorem covered_wake (holds : Condition → Bool) (wakePending : Prop) (wait : Wait Condition) :
    wait.wake.Covered holds wakePending :=
  fun condition sleeps => absurd sleeps (wake_ne_asleep wait condition)

/-- A task falls asleep only on a condition it has just found false. -/
theorem Covered.advance (covered : wait.Covered holds wakePending) :
    (wait.advance holds).Covered holds wakePending := by
  intro condition sleeps held
  cases wait with
  | asleep condition => exact covered _ sleeps held
  | joined tested woken =>
      simp only [Wait.advance] at sleeps
      split at sleeps
      · cases sleeps
      · rename_i failed
        split at sleeps
        · cases sleeps
        · cases sleeps
          exact absurd held failed
  | testing tested =>
      simp only [Wait.advance] at sleeps
      split at sleeps <;> cases sleeps
  | joining tested => cases sleeps
  | done => cases sleeps

theorem Covered.interrupt : wait.interrupt.Covered holds wakePending := by
  intro condition sleeps
  cases wait <;> cases sleeps

/-- A store that makes no condition true needs no wake-up of its own. -/
theorem Covered.store (covered : wait.Covered holds wakePending) {after : Condition → Bool}
    {pendingAfter : Prop} (held : ∀ condition, after condition = true → holds condition = true)
    (stillPending : wakePending → pendingAfter) : wait.Covered after pendingAfter :=
  fun condition sleeps holdsAfter =>
    stillPending (covered condition sleeps (held condition holdsAfter))

/-- The waiting task can always go on, except from its sleep. -/
theorem advance_eq_self_iff :
    wait.advance holds = wait ↔ wait = done ∨ ∃ condition, wait = asleep condition := by
  cases wait with
  | testing condition => by_cases held : holds condition = true <;> simp [advance, held]
  | joining condition => simp [advance]
  | joined condition woken =>
      by_cases held : holds condition = true <;> cases woken <;> simp [advance, held]
  | asleep condition => simp [advance]
  | done => simp [advance]

/-- The wait ends by itself only on a condition that holds. -/
theorem advance_eq_done (waits : wait ≠ done) (ends : wait.advance holds = done) :
    ∃ condition, holds condition = true := by
  cases wait with
  | testing condition | joined condition =>
      refine ⟨condition, ?_⟩
      by_contra fails
      simp only [advance, if_neg fails] at ends
      first
        | cases ends
        | split at ends <;> cases ends
  | joining => cases ends
  | asleep => cases ends
  | done => exact absurd rfl waits

/-- Steps that a waiting task can still take before it is done or sleeps. -/
def rank : Wait Condition → Nat
  | testing _ => 4
  | joining _ => 3
  | joined _ true => 4
  | joined _ false => 2
  | asleep _ => 1
  | done => 0

theorem rank_advance (moves : wait.advance holds ≠ wait) :
    (wait.advance holds).rank < wait.rank := by
  cases wait with
  | testing condition => by_cases held : holds condition = true <;> simp [advance, rank, held]
  | joining condition => simp [advance, rank]
  | joined condition woken =>
      by_cases held : holds condition = true <;> cases woken <;> simp [advance, rank, held]
  | asleep condition => exact absurd rfl moves
  | done => exact absurd rfl moves

theorem rank_wake_le (wait : Wait Condition) : wait.wake.rank ≤ wait.rank + 2 := by
  cases wait with
  | joined condition woken => cases woken <;> simp [wake, rank]
  | _ => simp [wake, rank]

end Wait

end Tracefs.WaitQueue
