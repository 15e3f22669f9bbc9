import IncidentEvidence.Py.Str

/-! # `repr` of a string

    A literal between single quotes, or between double quotes when the text has
    single quotes only. Which characters beyond ASCII are printable is a table of
    Unicode and a parameter here.

    The main result is that texts with one literal are equal (`repr_injective`). The
    words of a literal are of three kinds (`reprWord_cases`), and none is the
    beginning of another one.
-/

namespace Py

/-! ### Literals -/

/-- The quote of a literal. -/
def quoteOf (s : Str) : Char :=
  if .scalar '\x27' ∈ s ∧ .scalar '"' ∉ s then '"' else '\x27'

/-- The letter after the backslash of a two-character escape. -/
def reprLetter (q : Char) (c : CodePoint) : Option Char :=
  if c = .scalar q then some q
  else if c = .scalar '\\' then some '\\'
  else if c = .scalar '\t' then some 't'
  else if c = .scalar '\n' then some 'n'
  else if c = .scalar '\r' then some 'r'
  else none

section literals
variable (printable : CodePoint → Bool)

/-- The character stands for itself, as far as it needs no two-character escape. -/
def reprPlain (c : CodePoint) : Bool :=
  if c.ord < 0x7f then 0x20 ≤ c.ord else c.ord ≠ 0x7f && printable c

/-- The letter and the number of digits of an escape by number. -/
def reprWidth (c : CodePoint) : Char × ℕ :=
  if c.ord ≤ 0xff then ('x', 2) else if c.ord ≤ 0xffff then ('u', 4) else ('U', 8)

/-- One character of a literal. -/
def reprWord (q : Char) (c : CodePoint) : Str :=
  match reprLetter q c with
  | some e => [.scalar '\\', .scalar e]
  | none =>
    if reprPlain printable c then [c]
    else .scalar '\\' :: .scalar (reprWidth c).1 :: fixedDigits 16 (reprWidth c).2 c.ord

/-- `repr(s)`. -/
def repr (s : Str) : Str :=
  .scalar (quoteOf s) :: (s.flatMap (reprWord printable (quoteOf s)) ++ [.scalar (quoteOf s)])

/-! ### Reading a literal back -/

variable {printable} {q : Char}

theorem CodePoint.ord_lt (c : CodePoint) : c.ord < 16 ^ 8 := by
  cases c with
  | scalar c =>
    have h := c.valid
    show c.toNat < 16 ^ 8
    rcases h with h | h
    · have h' : c.toNat < 0xD800 := h
      omega
    · have h' : c.toNat < 0x110000 := h.2
      omega
  | surrogate s =>
    have h := s.isLt
    show 0xD800 + (s : ℕ) < 16 ^ 8
    omega

/-- A number fits in the digits of its escape. -/
theorem ord_lt_reprWidth (c : CodePoint) : c.ord < 16 ^ (reprWidth c).2 := by
  unfold reprWidth
  by_cases h : c.ord ≤ 0xff
  · rw [if_pos h]
    show c.ord < 256
    omega
  · rw [if_neg h]
    by_cases h' : c.ord ≤ 0xffff
    · rw [if_pos h']
      show c.ord < 65536
      omega
    · rw [if_neg h']
      exact c.ord_lt

/-- The letter tells the number of digits. -/
theorem reprWidth_eq {a b : CodePoint} (h : (reprWidth a).1 = (reprWidth b).1) :
    (reprWidth a).2 = (reprWidth b).2 := by
  unfold reprWidth at *
  split_ifs at * <;> first | rfl | exact absurd h (by decide)

theorem reprLetter_inj (hq : q = '"' ∨ q = '\x27') {a b : CodePoint} {e : Char}
    (ha : reprLetter q a = some e) (hb : reprLetter q b = some e) : a = b := by
  -- a letter is the escape of one character
  have decode : ∀ (c : CodePoint) (f : Char), reprLetter q c = some f →
      c = match f with
        | 't' => .scalar '\t'
        | 'n' => .scalar '\n'
        | 'r' => .scalar '\r'
        | g => .scalar g := by
    intro c f h
    unfold reprLetter at h
    rcases hq with rfl | rfl <;>
      (split_ifs at h <;> (obtain rfl := Option.some.inj h; assumption))
  rw [decode a e ha, decode b e hb]

/-- It is none of the letters of an escape by number. -/
theorem reprLetter_ne_width (hq : q = '"' ∨ q = '\x27') (a b : CodePoint) :
    reprLetter q a ≠ some (reprWidth b).1 := by
  unfold reprLetter reprWidth
  rcases hq with rfl | rfl <;> (split_ifs <;> decide)

theorem reprLetter_eq_none {c : CodePoint} (h : reprLetter q c = none) :
    c ≠ .scalar q ∧ c ≠ .scalar '\\' := by
  unfold reprLetter at h
  constructor
  · intro hc
    rw [if_pos hc] at h
    cases h
  · intro hc
    by_cases hcq : c = .scalar q
    · rw [if_pos hcq] at h
      cases h
    · rw [if_neg hcq, if_pos hc] at h
      cases h

/-- A word is the character itself, or a backslash and a letter, or a backslash and a number. -/
theorem reprWord_cases (printable : CodePoint → Bool) (q : Char) (c : CodePoint) :
    (reprWord printable q c = [c] ∧ c ≠ .scalar q ∧ c ≠ .scalar '\\') ∨
      (∃ e, reprLetter q c = some e ∧ reprWord printable q c = [.scalar '\\', .scalar e]) ∨
      reprWord printable q c =
        .scalar '\\' :: .scalar (reprWidth c).1 :: fixedDigits 16 (reprWidth c).2 c.ord := by
  unfold reprWord
  cases hletter : reprLetter q c with
  | some e => exact Or.inr (Or.inl ⟨e, rfl, rfl⟩)
  | none =>
    by_cases hplain : reprPlain printable c = true
    · exact Or.inl ⟨by simp [hplain], reprLetter_eq_none hletter⟩
    · exact Or.inr (Or.inr (by simp [hplain]))

/-- The words at the start of two equal texts are of one character. -/
theorem reprWord_append_inj (hq : q = '"' ∨ q = '\x27') {a b : CodePoint} {r s : Str}
    (h : reprWord printable q a ++ r = reprWord printable q b ++ s) : a = b ∧ r = s := by
  suffices hab : a = b by
    subst hab
    exact ⟨rfl, List.append_cancel_left h⟩
  rcases reprWord_cases printable q a with ⟨ha, -, hna⟩ | ⟨e, he, ha⟩ | ha <;>
    rcases reprWord_cases printable q b with ⟨hb, -, hnb⟩ | ⟨f, hf, hb⟩ | hb <;>
      rw [ha, hb] at h <;>
      simp only [List.cons_append, List.nil_append, List.cons.injEq, true_and,
        CodePoint.scalar.injEq] at h
  · exact h.1
  · exact absurd h.1 hna
  · exact absurd h.1 hna
  · exact absurd h.1.symm hnb
  · obtain ⟨rfl, -⟩ := h
    exact reprLetter_inj hq he hf
  · obtain ⟨rfl, -⟩ := h
    exact absurd he (reprLetter_ne_width hq a b)
  · exact absurd h.1.symm hnb
  · obtain ⟨hletter, -⟩ := h
    rw [← hletter] at hf
    exact absurd hf (reprLetter_ne_width hq b a)
  · obtain ⟨hletter, hdigits⟩ := h
    have hwidth := reprWidth_eq hletter
    have hequal := (List.append_inj hdigits (by simp [hwidth])).1
    rw [hwidth] at hequal
    have hlt : a.ord < 16 ^ (reprWidth b).2 := by
      rw [← hwidth]
      exact ord_lt_reprWidth a
    exact CodePoint.ord_injective
      (fixedDigits_inj (by decide) (by decide) hlt (ord_lt_reprWidth b) hequal)

/-- A word is no quote. -/
theorem reprWord_ne_quote (hq : q = '"' ∨ q = '\x27') (c : CodePoint) (r s : Str) :
    reprWord printable q c ++ r ≠ .scalar q :: s := by
  intro h
  have hslash : CodePoint.scalar '\\' ≠ .scalar q := by
    rcases hq with rfl | rfl <;> decide
  rcases reprWord_cases printable q c with ⟨hc, hne, -⟩ | ⟨e, -, hc⟩ | hc
  · rw [hc, List.cons_append, List.cons.injEq] at h
    exact hne h.1
  · rw [hc, List.cons_append, List.cons.injEq] at h
    exact hslash h.1
  · rw [hc, List.cons_append, List.cons.injEq] at h
    exact hslash h.1

theorem quoteOf_cases (s : Str) : quoteOf s = '"' ∨ quoteOf s = '\x27' := by
  unfold quoteOf
  by_cases h : CodePoint.scalar '\x27' ∈ s ∧ CodePoint.scalar '"' ∉ s
  · exact Or.inl (if_pos h)
  · exact Or.inr (if_neg h)

/-- **A literal is read back.** -/
theorem repr_injective (printable : CodePoint → Bool) : Function.Injective (repr printable) := by
  intro s t h
  obtain ⟨hquote, hbody⟩ := List.cons_eq_cons.mp h
  have hsame : quoteOf s = quoteOf t := CodePoint.scalar.inj hquote
  rw [← hsame] at hbody
  have hq := quoteOf_cases s
  exact (flatMap_append_inj (fun _ _ _ _ => reprWord_append_inj hq)
    (fun c r u => reprWord_ne_quote hq c r u) hbody).1

example : repr (fun _ => true) (str "it\x27s") = str "\"it\x27s\"" := by decide

end literals

end Py
