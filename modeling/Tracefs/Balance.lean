import Mathlib.Algebra.BigOperators.Group.List.Basic
import Mathlib.Algebra.Group.Pi.Basic
import Mathlib.Algebra.Ring.Int.Defs

/-!
# Accounts of resources

A program takes and drops units of resources.  The balance of what it has done
says for each resource how many units it has taken more than dropped.  What it
still knows about is kept in slots, one unit in each.
-/

namespace Tracefs.Balance

universe u v

variable {Resource : Type u} [DecidableEq Resource]

inductive Entry (Resource : Type u) where
  | take (resource : Resource)
  | drop (resource : Resource)

/-- One unit of a resource. -/
def unit (resource : Resource) : Resource → Int := Pi.single resource 1

def Entry.amount : Entry Resource → Resource → Int
  | take resource => unit resource
  | drop resource => -unit resource

def balance (entries : List (Entry Resource)) : Resource → Int :=
  (entries.map Entry.amount).sum

@[simp] theorem unit_self (resource : Resource) : unit resource resource = 1 :=
  Pi.single_eq_same _ _

theorem unit_of_ne {resource other : Resource} (different : other ≠ resource) :
    unit resource other = 0 :=
  Pi.single_eq_of_ne different _

theorem unit_ne_zero (resource : Resource) : unit resource ≠ 0 := by
  intro zero
  have one := congrFun zero resource
  rw [unit_self] at one
  cases one

@[simp] theorem balance_nil : balance ([] : List (Entry Resource)) = 0 := rfl

@[simp] theorem balance_cons (entry : Entry Resource) (entries : List (Entry Resource)) :
    balance (entry :: entries) = entry.amount + balance entries := by
  simp [balance]

@[simp] theorem balance_append (first second : List (Entry Resource)) :
    balance (first ++ second) = balance first + balance second := by
  simp [balance]

/-- What a sequence of actions adds, when each makes some entries. -/
def total {Action : Type v} (entries : Action → List (Entry Resource)) (actions : List Action) :
    Resource → Int :=
  balance (actions.flatMap entries)

section Total

variable {Action : Type v} (entries : Action → List (Entry Resource))

@[simp] theorem total_nil : total entries [] = 0 := rfl

@[simp] theorem total_cons (action : Action) (actions : List Action) :
    total entries (action :: actions) = balance (entries action) + total entries actions := by
  simp [total]

@[simp] theorem total_append (first second : List Action) :
    total entries (first ++ second) = total entries first + total entries second := by
  simp [total]

end Total

/-- The units that are kept in slots, some of which are empty. -/
def stored (slots : List (Option Resource)) : Resource → Int :=
  fun resource => slots.count (some resource)

theorem unit_apply (resource other : Resource) :
    unit resource other = if resource = other then 1 else 0 := by
  by_cases same : resource = other
  · rw [if_pos same, same, unit_self]
  · rw [if_neg same, unit_of_ne fun equal => same equal.symm]

@[simp] theorem stored_append (slots : List (Option Resource)) (slot : Option Resource) :
    stored (slots ++ [slot]) = stored slots + slot.elim 0 unit := by
  funext other
  cases slot with
  | none => simp [stored]
  | some resource => simp [stored, unit_apply, List.count_singleton]

/-- Clearing a slot gives up what is in it. -/
theorem stored_clear (slots : List (Option Resource)) (index : Nat) :
    stored (slots.set index none) = stored slots - (slots.getD index none).elim 0 unit := by
  by_cases inside : index < slots.length
  · funext other
    have positive : slots[index] = some other → 0 < slots.count (some other) :=
      fun held => List.count_pos_iff.mpr (List.mem_of_getElem held)
    cases held : slots[index] with
    | none => simp [stored, List.getD, inside, held, List.count_set]
    | some resource =>
        by_cases same : resource = other
        · subst same
          have counted := positive held
          simp only [stored, List.count_set inside, held, List.getD,
            List.getElem?_eq_getElem inside, Option.getD_some, Option.elim_some, Pi.sub_apply,
            unit_self, beq_self_eq_true, if_true, reduceCtorEq, beq_iff_eq, if_false]
          omega
        · simp [stored, List.count_set, inside, held, List.getD, unit_apply, same]
  · have unchanged : slots.set index none = slots := List.set_eq_of_length_le (by omega)
    have outside : slots.getD index none = none := by simp [List.getD, inside]
    rw [unchanged, outside, Option.elim_none, sub_zero]

end Tracefs.Balance
