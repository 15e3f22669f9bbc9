import IncidentEvidence.Py.ExactHex
import IncidentEvidence.Py.FloatFormat

/-! # Exact arithmetic that overflows

    Rational numbers up to the size of the largest double: a result beyond it is an
    infinity, and an integer beyond it does not convert. Within the range nothing is
    rounded, so on numbers that doubles represent the operations are those of Python.
-/

namespace Py

namespace BoundedFloat

/-- From here on a number rounds to infinity. -/
def overflow : ℕ := 2 ^ 1024 - 2 ^ 970

/-- A number is below the overflow. -/
def InRange : ExactFloat → Prop
  | .fin q => |q| < overflow
  | _ => True

/-- A result, in the range. -/
def round : ExactFloat → ExactFloat
  | .fin q => if (overflow : ℚ) ≤ |q| then .inf (decide (q < 0)) else .fin q
  | x => x

theorem inRange_round (x : ExactFloat) : InRange (round x) := by
  cases x with
  | fin q =>
    show InRange (if (overflow : ℚ) ≤ |q| then .inf (decide (q < 0)) else .fin q)
    by_cases h : (overflow : ℚ) ≤ |q|
    · rw [if_pos h]
      trivial
    · rw [if_neg h]
      exact not_le.mp h
  | inf s => trivial
  | nan => trivial

theorem round_eq {x : ExactFloat} (h : InRange x) : round x = x := by
  cases x with
  | fin q => exact if_neg (not_le.mpr h)
  | inf s => rfl
  | nan => rfl

end BoundedFloat

/-- A number of exact arithmetic in the range of the doubles. -/
structure BoundedFloat where
  value : ExactFloat
  inRange : BoundedFloat.InRange value

namespace BoundedFloat

/-- The result of an operation. -/
def ofExact (x : ExactFloat) : BoundedFloat := ⟨round x, inRange_round x⟩

end BoundedFloat

open BoundedFloat in
instance : PyFloat BoundedFloat where
  le a b := PyFloat.le a.value b.value
  isFinite a := PyFloat.isFinite a.value
  isInf a := PyFloat.isInf a.value
  inf := ofExact PyFloat.inf
  literal m k := ofExact (PyFloat.literal m k)
  ofInt i := if overflow ≤ i.natAbs then none else some (ofExact (.fin i))
  neg a := ofExact (PyFloat.neg a.value)
  abs a := ofExact (PyFloat.abs a.value)
  add a b := ofExact (PyFloat.add a.value b.value)
  sub a b := ofExact (PyFloat.sub a.value b.value)
  mul a b := ofExact (PyFloat.mul a.value b.value)
  truediv a b := (PyFloat.truediv a.value b.value).map ofExact

instance : FloatHex BoundedFloat := ⟨fun a => FloatHex.hex a.value⟩

instance : FloatFormat BoundedFloat where
  toInt a := FloatFormat.toInt a.value
  eqInt a i := FloatFormat.eqInt a.value i
  repr a := FloatFormat.repr a.value

/-- Adding no time changes nothing. -/
theorem BoundedFloat.add_sub_zero {a : BoundedFloat} (h : PyFloat.isFinite a = true) :
    PyFloat.add a (PyFloat.sub PyFloat.zero PyFloat.zero) = a := by
  obtain ⟨x, hx⟩ := a
  obtain ⟨q, rfl⟩ := ExactFloat.isFinite_iff.mp h
  have hzero : (PyFloat.sub PyFloat.zero PyFloat.zero : BoundedFloat).value = .fin 0 := by
    decide +kernel
  show ofExact (PyFloat.add (.fin q)
    (PyFloat.sub PyFloat.zero PyFloat.zero : BoundedFloat).value) = _
  rw [hzero, ExactFloat.add_fin, Rat.add_zero]
  simp only [ofExact, round_eq hx]

end Py
