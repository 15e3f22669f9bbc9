import IncidentEvidence.Py.Float
import IncidentEvidence.Py.Json
import Mathlib.Tactic.Ring

/-! # `float.hex` for exact numbers

    A rational number with a normal double of the same value is written the way
    CPython writes that double. The other rationals, which no double represents,
    are written as a fraction, so that the text still determines the number.
-/

namespace Py.ExactFloat

/-- The 52 bits after the leading one and the binary exponent of `n / d`, when a
    normal double has that value. -/
def normal (n d : Nat) : Option (Nat × Int) :=
  let l := n.log2
  let k := d.log2
  let e : Int := l - k
  if d = 2 ^ k ∧ n ≠ 0 ∧ l ≤ 52 ∧ -1022 ≤ e ∧ e ≤ 1023 then
    some (n * 2 ^ (52 - l) - 2 ^ 52, e)
  else none

/-- `%+d`. -/
def signedDecimal (e : Int) : Str :=
  .scalar (if e < 0 then '-' else '+') :: decimal e.natAbs

/-- The sign of a rational in front of its absolute value. -/
def sign (q : ℚ) : Str := if q < 0 then str "-" else []

/-- `float.hex` of a rational. -/
def hexRat (q : ℚ) : Str :=
  if q = 0 then str "0x0.0p+0"
  else
    match normal q.num.natAbs q.den with
    | some (m, e) =>
      sign q ++ (str "0x1." ++ (fixedDigits 16 13 m ++ .scalar 'p' :: signedDecimal e))
    | none => decimalInt q.num ++ .scalar '/' :: decimal q.den

/-- `float.hex`. -/
def hex : ExactFloat → Str
  | .fin q => hexRat q
  | .inf negative => if negative then str "-inf" else str "inf"
  | .nan => str "nan"

example : hex (fin (3 / 2)) = str "0x1.8000000000000p+0" := by decide +kernel

example : hex (fin (-1 / 4)) = str "-0x1.0000000000000p-2" := by decide +kernel

/-! ### The text determines the number -/

theorem normal_spec {n d m : Nat} {e : Int} (h : normal n d = some (m, e)) :
    ∃ l k : Nat, d = 2 ^ k ∧ l ≤ 52 ∧ e = l - k ∧ m + 2 ^ 52 = n * 2 ^ (52 - l) ∧ m < 2 ^ 52 := by
  simp only [normal, Option.ite_none_right_eq_some, Option.some.injEq, Prod.mk.injEq] at h
  obtain ⟨⟨hd, hn, hl, -, -⟩, rfl, rfl⟩ := h
  have hlow : 2 ^ n.log2 ≤ n := Nat.log2_self_le hn
  have hhigh : n < 2 ^ (n.log2 + 1) := Nat.lt_log2_self
  have hsplit : 2 ^ 52 = 2 ^ n.log2 * 2 ^ (52 - n.log2) := by
    rw [← Nat.pow_add]
    congr 1
    omega
  have h52 : 2 ^ 52 ≤ n * 2 ^ (52 - n.log2) := by
    rw [hsplit]
    exact Nat.mul_le_mul_right _ hlow
  have h53 : n * 2 ^ (52 - n.log2) < 2 * 2 ^ 52 := by
    calc n * 2 ^ (52 - n.log2) < 2 ^ (n.log2 + 1) * 2 ^ (52 - n.log2) :=
          Nat.mul_lt_mul_of_pos_right hhigh (Nat.two_pow_pos _)
      _ = 2 * 2 ^ 52 := by rw [hsplit, Nat.pow_succ]; ring
  exact ⟨n.log2, d.log2, hd, hl, rfl, by omega, by omega⟩

/-- Fraction bits and exponent determine the quotient. -/
theorem normal_inj {n d n' d' : Nat} {r : Nat × Int} (h : normal n d = some r)
    (h' : normal n' d' = some r) : n * d' = n' * d := by
  obtain ⟨m, e⟩ := r
  obtain ⟨l, k, rfl, hl, he, hm, -⟩ := normal_spec h
  obtain ⟨l', k', rfl, hl', he', hm', -⟩ := normal_spec h'
  have heq : n * 2 ^ (52 - l) = n' * 2 ^ (52 - l') := by rw [← hm, ← hm']
  have hexp : 52 - l + (l' + k) = 52 + k' := by omega
  have hexp' : 52 - l' + (l' + k) = 52 + k := by omega
  have key : n * 2 ^ k' * 2 ^ 52 = n' * 2 ^ k * 2 ^ 52 := by
    calc n * 2 ^ k' * 2 ^ 52 = n * 2 ^ (52 + k') := by rw [Nat.pow_add]; ring
      _ = n * 2 ^ (52 - l) * 2 ^ (l' + k) := by rw [← hexp, Nat.pow_add]; ring
      _ = n' * 2 ^ (52 - l') * 2 ^ (l' + k) := by rw [heq]
      _ = n' * 2 ^ (52 + k) := by rw [← hexp', Nat.pow_add]; ring
      _ = n' * 2 ^ k * 2 ^ 52 := by rw [Nat.pow_add]; ring
  exact Nat.eq_of_mul_eq_mul_right (Nat.two_pow_pos 52) key

theorem signedDecimal_injective : Function.Injective signedDecimal := by
  intro e e' h
  simp only [signedDecimal, List.cons.injEq, CodePoint.scalar.injEq] at h
  have habs := decimal_injective h.2
  have hsign := h.1
  split at hsign <;> split at hsign <;> first | omega | exact absurd hsign (by decide)

theorem slash_not_mem_normal (q : ℚ) (m : Nat) (e : Int) : CodePoint.scalar '/' ∉
    sign q ++ (str "0x1." ++ (fixedDigits 16 13 m ++ .scalar 'p' :: signedDecimal e)) := by
  have hdigits : CodePoint.scalar '/' ∉ fixedDigits 16 13 m :=
    not_mem_fixedDigits (by decide) (by decide) (by decide)
  have hdecimal : CodePoint.scalar '/' ∉ decimal e.natAbs := fun h =>
    absurd (isDigit_of_mem_decimal h) (by decide)
  have hprefix : CodePoint.scalar '/' ∉ str "0x1." := by decide
  have hsign : CodePoint.scalar '/' ∉ sign q := by
    unfold sign
    split <;> decide
  have hsigned : CodePoint.scalar '/' ∉ signedDecimal e := by
    unfold signedDecimal
    split <;> simp [hdecimal]
  simp [hdigits, hprefix, hsign, hsigned]

/-- Two signed texts with a digit in front have the same sign. -/
theorem sign_inj {p q : ℚ} {r s : Str} (h : sign p ++ .scalar '0' :: r = sign q ++ .scalar '0' :: s) :
    (p < 0 ↔ q < 0) ∧ r = s := by
  unfold sign at h
  have hminus : str "-" = [.scalar '-'] := rfl
  split at h <;> split at h <;>
    simp_all only [List.cons_append, List.nil_append, List.cons.injEq, true_and,
      CodePoint.scalar.injEq, and_self, iff_self, Char.reduceEq, false_and]

/-- The three ways a rational is written. -/
theorem hexRat_cases (q : ℚ) :
    (q = 0 ∧ hexRat q = str "0x0.0p+0") ∨
    (∃ m e, normal q.num.natAbs q.den = some (m, e) ∧ hexRat q =
      sign q ++ (str "0x1." ++ (fixedDigits 16 13 m ++ .scalar 'p' :: signedDecimal e))) ∨
    hexRat q = decimalInt q.num ++ .scalar '/' :: decimal q.den := by
  unfold hexRat
  split
  · next h => exact Or.inl ⟨h, rfl⟩
  · split
    · next m e h => exact Or.inr (Or.inl ⟨m, e, h, rfl⟩)
    · exact Or.inr (Or.inr rfl)

/-- The absolute value and the sign determine a rational. -/
theorem rat_ext_of_abs {p q : ℚ} (hsign : p < 0 ↔ q < 0)
    (h : p.num.natAbs * q.den = q.num.natAbs * p.den) : p = q := by
  rw [← Rat.num_neg, ← Rat.num_neg] at hsign
  rw [Rat.eq_iff_mul_eq_mul]
  have hcast : (p.num.natAbs : Int) * q.den = q.num.natAbs * p.den := by exact_mod_cast h
  rcases lt_or_ge p.num 0 with hp | hp
  · rw [Int.ofNat_natAbs_of_nonpos hp.le, Int.ofNat_natAbs_of_nonpos (hsign.mp hp).le] at hcast
    linarith
  · have hq : 0 ≤ q.num := not_lt.mp fun hq => absurd (hsign.mpr hq) (not_lt.mpr hp)
    rwa [Int.natAbs_of_nonneg hp, Int.natAbs_of_nonneg hq] at hcast

theorem hexRat_injective : Function.Injective hexRat := by
  intro p q h
  have hzero : CodePoint.scalar '/' ∉ str "0x0.0p+0" := by decide
  have hratio : ∀ r : ℚ, CodePoint.scalar '/' ∈ decimalInt r.num ++ .scalar '/' :: decimal r.den := by
    simp
  -- zero is written with another leading digit
  have hlead : ∀ (r : ℚ) (rest : Str), sign r ++ (str "0x1." ++ rest) ≠ str "0x0.0p+0" := by
    intro r rest heq
    unfold sign at heq
    split at heq
    · exact absurd (congrArg List.head? heq) (by simp [str])
    · exact absurd (congrArg (·[2]?) heq) (by simp [str])
  rcases hexRat_cases p with ⟨hp0, hp⟩ | ⟨m, e, hnp, hp⟩ | hp <;>
    rcases hexRat_cases q with ⟨hq0, hq⟩ | ⟨m', e', hnq, hq⟩ | hq <;> rw [hp, hq] at h
  · exact hp0.trans hq0.symm
  · exact absurd h.symm (hlead _ _)
  · exact absurd (h ▸ hratio q) hzero
  · exact absurd h (hlead _ _)
  · obtain ⟨hsign, hrest⟩ :=
      sign_inj (r := str "x1." ++ (fixedDigits 16 13 m ++ .scalar 'p' :: signedDecimal e))
        (s := str "x1." ++ (fixedDigits 16 13 m' ++ .scalar 'p' :: signedDecimal e')) h
    obtain ⟨hfraction, hexponent⟩ := List.append_inj (List.append_cancel_left hrest) (by simp)
    obtain ⟨-, -, -, -, -, -, hm⟩ := normal_spec hnp
    obtain ⟨-, -, -, -, -, -, hm'⟩ := normal_spec hnq
    have h13 : 16 ^ 13 = 2 ^ 52 := by decide
    have hmm : m = m' :=
      fixedDigits_inj (by decide) (by decide) (h13 ▸ hm) (h13 ▸ hm') hfraction
    have hee : e = e' := signedDecimal_injective (List.cons.inj hexponent).2
    rw [hmm, hee] at hnp
    exact rat_ext_of_abs hsign (normal_inj hnp hnq)
  · exact absurd (h ▸ hratio q) (slash_not_mem_normal p m e)
  · exact absurd (h ▸ hratio p) hzero
  · exact absurd (h ▸ hratio p) (slash_not_mem_normal q m' e')
  · have hslash : ∀ s : Str, EndsNumber (.scalar '/' :: s) := fun s =>
      endsNumber_cons (by decide)
    obtain ⟨hnum, hden⟩ := decimalInt_append_inj (hslash _) (hslash _) h
    simp only [List.cons.injEq, true_and] at hden
    exact Rat.ext hnum (decimal_injective hden)

theorem encodable_hexRat (q : ℚ) : Encodable (hexRat q) := by
  have hsign : Encodable (sign q) := by
    unfold sign
    split <;> simp
  rcases hexRat_cases q with ⟨_, h⟩ | ⟨m, e, _, h⟩ | h <;> rw [h]
  · exact encodable_str _
  · simp [hsign, signedDecimal]
  · simp

instance : FloatHex ExactFloat := ⟨hex⟩

instance : LawfulFloatHex ExactFloat where
  hex_inj := by
    intro a b ha hb h
    obtain ⟨p, rfl⟩ := isFinite_iff.mp ha
    obtain ⟨q, rfl⟩ := isFinite_iff.mp hb
    exact congrArg fin (hexRat_injective h)
  hex_encodable a := by
    cases a with
    | fin q => exact encodable_hexRat q
    | inf negative => cases negative <;> exact encodable_str _
    | nan => exact encodable_str _

end Py.ExactFloat
