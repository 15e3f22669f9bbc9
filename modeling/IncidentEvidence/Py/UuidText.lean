import IncidentEvidence.Py.JsonEncoder
import IncidentEvidence.Py.Uuid

/-! # UUIDs from text

    The constructor `UUID(text)`. It takes off what may stand around the 32
    hexadecimal digits and reads them with `int(digits, 16)`, which accepts more than
    plain digits; a `HexInt` is any such reader. What `str` writes is read back
    (`UUID.ofText_str`).
-/

namespace Py

/-! ### Reading a number -/

/-- `int(text, 16)`; `none` is `ValueError`. -/
class HexInt where
  int16 : Str → Option Int

/-- The number that hexadecimal digits spell. -/
def hexValue (digits : List ℕ) : ℕ := digits.foldl (fun n d => n * 16 + d) 0

/-- Plain digits, in either case, are read as the number they spell. -/
class LawfulHexInt [HexInt] : Prop where
  digits : ∀ (s : Str) (ds : List ℕ), s ≠ [] → s.mapM hexDigit = some ds →
    HexInt.int16 s = some (hexValue ds : Int)

/-- Plain digits only. -/
def plainInt16 (s : Str) : Option Int :=
  if s = [] then none else (s.mapM hexDigit).map fun ds => (hexValue ds : Int)

theorem hexValue_append (ds : List ℕ) (d : ℕ) : hexValue (ds ++ [d]) = hexValue ds * 16 + d := by
  unfold hexValue
  rw [List.foldl_append]
  rfl

/-- The digits of a number spell it. -/
theorem mapM_hexDigit_fixedDigits {width n : ℕ} (h : n < 16 ^ width) :
    ∃ ds, (fixedDigits 16 width n).mapM hexDigit = some ds ∧ hexValue ds = n := by
  induction width generalizing n with
  | zero =>
    obtain rfl : n = 0 := by simpa using h
    exact ⟨[], rfl, rfl⟩
  | succ width ih =>
    have hdiv : n / 16 < 16 ^ width :=
      Nat.div_lt_of_lt_mul (by rw [← Nat.pow_succ']; exact h)
    obtain ⟨ds, hds, hvalue⟩ := ih hdiv
    refine ⟨ds ++ [n % 16], ?_, ?_⟩
    · rw [fixedDigits, List.mapM_append, hds]
      simp only [List.mapM_cons, List.mapM_nil, hexDigit_digit, Option.pure_def,
        Option.bind_eq_bind, Option.bind_some]
    · rw [hexValue_append, hvalue]
      omega

/-! ### Taking off what surrounds the digits -/

/-- `text.strip(chars)`. -/
def stripChars (chars s : Str) : Str :=
  ((s.dropWhile (· ∈ chars)).reverse.dropWhile (· ∈ chars)).reverse

theorem stripChars_of_disjoint {chars s : Str} (h : ∀ c ∈ s, c ∉ chars) :
    stripChars chars s = s := by
  have hnone : ∀ t : Str, (∀ c ∈ t, c ∉ chars) → t.dropWhile (· ∈ chars) = t := by
    intro t ht
    cases t with
    | nil => rfl
    | cons c t =>
      have hc := ht c List.mem_cons_self
      exact List.dropWhile_cons_of_neg (by simpa using hc)
  unfold stripChars
  rw [hnone s h, hnone s.reverse fun c hc => h c (List.mem_reverse.mp hc), List.reverse_reverse]

/-- Nothing is replaced where the first character does not occur. -/
theorem replace_of_not_mem {o : CodePoint} {old new s : Str} (h : o ∉ s) :
    replace (o :: old) new s = s := by
  unfold replace
  induction s with
  | nil => rfl
  | cons c s ih =>
    rw [List.mem_cons, not_or] at h
    have hnot : (o :: old).isPrefixOf (c :: s) = false := by
      simp [List.isPrefixOf, h.1]
    rw [replaceFrom, hnot, ih h.2]
    rfl

/-- Replacing a character by nothing leaves the others. -/
theorem replace_singleton (o : CodePoint) (s : Str) : replace [o] [] s = s.filter (· ≠ o) := by
  unfold replace
  induction s with
  | nil => rfl
  | cons c s ih =>
    rw [replaceFrom]
    by_cases hc : c = o
    · subst hc
      simp [ih]
    · have hne : ¬ o = c := fun heq => hc heq.symm
      simp [List.isPrefixOf, hne, hc, ih]

/-! ### The constructor -/

namespace UUID

/-- `UUID(text)`; `none` is `ValueError`. -/
def ofText [HexInt] (text : Str) : Option UUID :=
  let hex := replace (Py.str "uuid:") [] (replace (Py.str "urn:") [] text)
  let hex := replace (Py.str "-") [] (stripChars (Py.str "\x7b\x7d") hex)
  if hex.length ≠ 32 then none
  else
    match HexInt.int16 hex with
    | none => none
    | some i => if h : 0 ≤ i ∧ i < 2 ^ 128 then some ⟨i.toNat, by omega⟩ else none

theorem mem_str {u : UUID} {c : CodePoint} (h : c ∈ u.str) : c = .scalar '-' ∨ c ∈ u.hex := by
  have hdash : ∀ {d}, d ∈ Py.str "-" → d = .scalar '-' := List.mem_singleton.mp
  simp only [str, List.mem_append] at h
  rcases h with (((((((h | h) | h) | h) | h) | h) | h) | h) | h
  · exact Or.inr (List.mem_of_mem_take h)
  · exact Or.inl (hdash h)
  · exact Or.inr (List.mem_of_mem_drop (List.mem_of_mem_take h))
  · exact Or.inl (hdash h)
  · exact Or.inr (List.mem_of_mem_drop (List.mem_of_mem_take h))
  · exact Or.inl (hdash h)
  · exact Or.inr (List.mem_of_mem_drop (List.mem_of_mem_take h))
  · exact Or.inl (hdash h)
  · exact Or.inr (List.mem_of_mem_drop h)

theorem not_mem_hex {c : Char} (hc : ∀ k < 16, Nat.digitChar k ≠ c) (u : UUID) :
    CodePoint.scalar c ∉ u.hex :=
  not_mem_fixedDigits (by decide) (by decide) hc

/-- The digits without the dashes. -/
theorem filter_str (u : UUID) : u.str.filter (· ≠ .scalar '-') = u.hex := by
  have hkeep : ∀ s : Str, (∀ c ∈ s, c ∈ u.hex) → s.filter (· ≠ .scalar '-') = s := by
    intro s hs
    apply List.filter_eq_self.mpr
    intro c hc
    rw [decide_eq_true_iff]
    rintro rfl
    exact not_mem_hex (by decide) u (hs _ hc)
  have hslice : ∀ i j, ∀ c ∈ (u.hex.drop i).take j, c ∈ u.hex :=
    fun i j c hc => List.mem_of_mem_drop (List.mem_of_mem_take hc)
  have hdash : (Py.str "-").filter (· ≠ .scalar '-') = [] := by decide
  have hsplit : ∀ i j, u.hex.drop i = (u.hex.drop i).take j ++ u.hex.drop (i + j) := by
    intro i j
    rw [← List.drop_drop, List.take_append_drop]
  unfold str
  simp only [List.filter_append, hdash, List.nil_append,
    hkeep _ (fun c hc => List.mem_of_mem_take hc), hkeep _ (hslice 8 4), hkeep _ (hslice 12 4),
    hkeep _ (hslice 16 4), hkeep _ (fun c hc => List.mem_of_mem_drop hc), List.append_assoc]
  rw [← hsplit 16 4, ← hsplit 12 4, ← hsplit 8 4, List.take_append_drop]

/-- **What `str` writes is read back.** -/
theorem ofText_str [HexInt] [LawfulHexInt] (u : UUID) : ofText u.str = some u := by
  have habsent : ∀ c : Char, (∀ k < 16, Nat.digitChar k ≠ c) → c ≠ '-' →
      CodePoint.scalar c ∉ u.str := by
    intro c hc hdash hmem
    rcases mem_str hmem with heq | hhex
    · exact hdash (CodePoint.scalar.inj heq)
    · exact not_mem_hex hc u hhex
  have hu := habsent 'u' (by decide) (by decide)
  have hbraces : ∀ c ∈ u.str, c ∉ Py.str "\x7b\x7d" := by
    intro c hc hbrace
    have hcases : c = .scalar '\x7b' ∨ c = .scalar '\x7d' := by simpa [Py.str] using hbrace
    rcases hcases with rfl | rfl
    · exact habsent '\x7b' (by decide) (by decide) hc
    · exact habsent '\x7d' (by decide) (by decide) hc
  have hhex : replace (Py.str "-") [] (stripChars (Py.str "\x7b\x7d")
      (replace (Py.str "uuid:") [] (replace (Py.str "urn:") [] u.str))) = u.hex := by
    rw [show Py.str "urn:" = .scalar 'u' :: Py.str "rn:" from rfl, replace_of_not_mem hu,
      show Py.str "uuid:" = .scalar 'u' :: Py.str "uid:" from rfl, replace_of_not_mem hu,
      stripChars_of_disjoint hbraces, show Py.str "-" = [.scalar '-'] from rfl, replace_singleton,
      filter_str]
  have hlength : u.hex.length = 32 := fixedDigits_length 16 32 u.int
  obtain ⟨ds, hds, hvalue⟩ := mapM_hexDigit_fixedDigits (show u.int < 16 ^ 32 by
    have := u.inRange
    omega)
  have hread : HexInt.int16 u.hex = some (u.int : Int) := by
    rw [LawfulHexInt.digits u.hex ds (by
      intro hnil
      rw [hnil] at hlength
      cases hlength) hds, hvalue]
  have hrange : 0 ≤ (u.int : Int) ∧ (u.int : Int) < 2 ^ 128 := by
    have := u.inRange
    omega
  unfold ofText
  simp only [hhex, hlength, hread, ne_eq, not_true_eq_false, if_false, dif_pos hrange,
    Int.toNat_natCast]

end UUID

end Py
