import Mathlib

/-! # Three-valued logic

    A condition of SQL is true, false or unknown. A comparison with NULL is
    unknown, AND and OR are Kleene's, and WHERE keeps the rows whose condition is
    true.
-/

namespace Sql

/-- A truth value; `none` is unknown. -/
abbrev Truth := Option Bool

namespace Truth

def and : Truth → Truth → Truth
  | some false, _ => some false
  | _, some false => some false
  | some true, some true => some true
  | _, _ => none

def or : Truth → Truth → Truth
  | some true, _ => some true
  | _, some true => some true
  | some false, some false => some false
  | _, _ => none

/-- What WHERE asks of a condition. -/
def holds : Truth → Bool
  | some b => b
  | none => false

@[simp] theorem holds_and (a b : Truth) : (a.and b).holds = (a.holds && b.holds) := by
  rcases a with _ | _ | _ <;> rcases b with _ | _ | _ <;> rfl

@[simp] theorem holds_or (a b : Truth) : (a.or b).holds = (a.holds || b.holds) := by
  rcases a with _ | _ | _ <;> rcases b with _ | _ | _ <;> rfl

end Truth

/-- A comparison of two columns or values, either of which may be NULL. -/
def compare {α : Type} (rel : α → α → Bool) : Option α → Option α → Truth
  | some a, some b => some (rel a b)
  | _, _ => none

/-- `IS NOT NULL`. -/
def isNotNull {α : Type} (a : Option α) : Truth := some a.isSome

@[simp] theorem holds_compare_some {α : Type} (rel : α → α → Bool) (a b : α) :
    (compare rel (some a) (some b)).holds = rel a b := rfl

@[simp] theorem holds_compare_right {α : Type} (rel : α → α → Bool) (a : Option α) (b : α) :
    (compare rel a (some b)).holds = a.any fun x => rel x b := by
  cases a <;> rfl

@[simp] theorem holds_isNotNull {α : Type} (a : Option α) : (isNotNull a).holds = a.isSome := rfl

end Sql
