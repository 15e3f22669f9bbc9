import IncidentEvidence.Py.Float

/-! # Counting with floats, and writing them

    `FloatFormat` adds what the metrics page needs of a float: `int`, the comparison
    with an integer and `repr`. `CountingPyFloat` says that counting by ones never
    leaves the finite floats: above `2 ** 53` a double stays where it is.
-/

namespace Py

open PyFloat

/-- What a float is written with. -/
class FloatFormat (F : Type) where
  /-- `int(x)`; `none` for the infinities and NaN. -/
  toInt : F → Option Int
  /-- `x == i`. -/
  eqInt : F → Int → Bool
  /-- `repr(x)`. -/
  repr : F → Str

/-- The floats that have an integer part are the finite ones. -/
class LawfulFloatFormat (F : Type) [PyFloat F] [FloatFormat F] : Prop where
  isSome_toInt : ∀ x : F, (FloatFormat.toInt x).isSome = isFinite x

/-- Short literals are finite, and so is a finite float plus one. -/
class CountingPyFloat (F : Type) [PyFloat F] : Prop where
  zero_le_one : le (zero : F) (literal 1 0) = true
  finite_literal : ∀ {m k : ℕ}, m < 2 ^ 53 → isFinite (literal m k : F) = true
  finite_add_one : ∀ {x : F}, isFinite x = true → isFinite (add x (literal 1 0)) = true

/-- The characters a finite number is written with. -/
def isNumberChar (c : CodePoint) : Bool :=
  c.isDigit || c = .scalar '.' || c = .scalar 'e' || c = .scalar '+' || c = .scalar '-'

theorem isNumberChar_of_digits {s : Str} (h : ∀ c ∈ s, c.isDigit = true) :
    ∀ c ∈ s, isNumberChar c = true := by
  intro c hc
  simp [isNumberChar, h c hc]

theorem isNumberChar_decimalInt (i : Int) : ∀ c ∈ decimalInt i, isNumberChar c = true := by
  cases i with
  | ofNat n => exact isNumberChar_of_digits fun c hc => isDigit_of_mem_decimal hc
  | negSucc n =>
    intro c hc
    rcases List.mem_cons.mp hc with rfl | hc
    · decide
    · exact isNumberChar_of_digits (fun c hc => isDigit_of_mem_decimal hc) c hc

theorem isDigit_of_mem_fixedDigits {width n : ℕ} {c : CodePoint} (h : c ∈ fixedDigits 10 width n) :
    c.isDigit = true := by
  have hdigit : ∀ k < 10, (Nat.digitChar k).isDigit = true := by decide
  induction width generalizing n with
  | zero => exact absurd h List.not_mem_nil
  | succ width ih =>
    rcases List.mem_append.mp h with h | h
    · exact ih h
    · rw [List.mem_singleton.mp h]
      exact hdigit (n % 10) (Nat.mod_lt n (by decide))

/-- `repr` writes a finite number with digits, a point, an exponent and signs. -/
class PlainFloatFormat (F : Type) [PyFloat F] [FloatFormat F] : Prop where
  plain : ∀ x : F, isFinite x = true → ∀ c ∈ FloatFormat.repr x, isNumberChar c = true

/-! ### Exact arithmetic -/

namespace ExactFloat

/-- A rational number in decimal notation, cut after 17 places. -/
def decimalRat (q : ℚ) : Str :=
  let places := fixedDigits 10 17 (q.num.natAbs % q.den * 10 ^ 17 / q.den)
  let places := (places.reverse.dropWhile fun c => c = .scalar '0').reverse
  (if q < 0 then str "-" else []) ++ decimal (q.num.natAbs / q.den) ++
    .scalar '.' :: (if places = [] then str "0" else places)

def repr : ExactFloat → Str
  | .fin q => decimalRat q
  | .inf true => str "-inf"
  | .inf false => str "inf"
  | .nan => str "nan"

def toInt : ExactFloat → Option Int
  | .fin q => some (q.num.tdiv q.den)
  | _ => none

def eqInt : ExactFloat → Int → Bool
  | .fin q, i => q = i
  | _, _ => false

end ExactFloat

instance : FloatFormat ExactFloat := ⟨ExactFloat.toInt, ExactFloat.eqInt, ExactFloat.repr⟩

instance : LawfulFloatFormat ExactFloat where
  isSome_toInt x := by cases x <;> rfl

instance : PlainFloatFormat ExactFloat where
  plain x hx := by
    obtain ⟨q, rfl⟩ := ExactFloat.isFinite_iff.mp hx
    have hdigit : ∀ n : ℕ, ∀ c ∈ fixedDigits 10 17 n, isNumberChar c = true := by
      intro n c hc
      exact isNumberChar_of_digits (fun c hc => isDigit_of_mem_fixedDigits hc) c hc
    have hplaces : ∀ c ∈ ((fixedDigits 10 17 (q.num.natAbs % q.den * 10 ^ 17 / q.den)).reverse.dropWhile
        fun c => c = .scalar '0').reverse, isNumberChar c = true := by
      intro c hc
      have hc := (List.dropWhile_sublist _).mem (List.mem_reverse.mp hc)
      exact hdigit _ c (List.mem_reverse.mp hc)
    intro c hc
    change c ∈ ExactFloat.decimalRat q at hc
    unfold ExactFloat.decimalRat at hc
    simp only [List.mem_append, List.mem_cons] at hc
    rcases hc with (hc | hc) | rfl | hc
    · by_cases hq : q < 0
      · rw [if_pos hq] at hc
        rw [List.mem_singleton.mp hc]
        decide
      · rw [if_neg hq] at hc
        exact absurd hc List.not_mem_nil
    · exact isNumberChar_of_digits (fun c hc => isDigit_of_mem_decimal hc) c hc
    · decide
    · split at hc
      · rw [List.mem_singleton.mp hc]
        decide
      · exact hplaces c hc

instance : CountingPyFloat ExactFloat where
  zero_le_one := by simp
  finite_literal _ := rfl
  finite_add_one := by
    intro x hx
    obtain ⟨q, rfl⟩ := ExactFloat.isFinite_iff.mp hx
    rfl

example : FloatFormat.repr (PyFloat.literal 25 3 : ExactFloat) = str "0.025" := by decide +kernel

end Py
