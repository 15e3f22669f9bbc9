import IncidentEvidence.Py.JsonDecode
import Mathlib.Data.List.Infix

/-! # JSON text with other line ends

    A text in which certain characters, the breaks, are replaced by newlines, and the whitespace
    at the end by other whitespace. A break is a control character or is not ASCII, so it is no
    part of a literal or of an escape: these are read alike. -/

namespace Py

/-- A visible ASCII character. A token starts with one, and outside strings it has no others. -/
def isVisible (c : CodePoint) : Bool := 0x20 < c.ord && c.ord < 0x80

/-- The text has been read from one point to another, through characters of one kind. -/
def Through (kind : CodePoint → Prop) (s rest : Str) : Prop :=
  ∃ used, s = used ++ rest ∧ ∀ c ∈ used, kind c

section through
variable {kind kind' : CodePoint → Prop} {s r rest : Str} {c : CodePoint}

theorem Through.refl (s : Str) : Through kind s s := ⟨[], rfl, by simp⟩

theorem Through.trans (h : Through kind s r) (h' : Through kind r rest) : Through kind s rest := by
  obtain ⟨used, rfl, hused⟩ := h
  obtain ⟨used', rfl, hused'⟩ := h'
  exact ⟨used ++ used', by rw [List.append_assoc], List.forall_mem_append.mpr ⟨hused, hused'⟩⟩

theorem Through.cons (hc : kind c) (h : Through kind s rest) : Through kind (c :: s) rest := by
  obtain ⟨used, rfl, hused⟩ := h
  exact ⟨c :: used, rfl, List.forall_mem_cons.mpr ⟨hc, hused⟩⟩

theorem Through.mono (h : Through kind s rest) (hkind : ∀ c, kind c → kind' c) :
    Through kind' s rest := by
  obtain ⟨used, hs, hused⟩ := h
  exact ⟨used, hs, fun c hc => hkind c (hused c hc)⟩

theorem Through.suffix (h : Through kind s rest) : rest <:+ s := by
  obtain ⟨used, rfl, -⟩ := h
  exact List.suffix_append used rest

end through

section respaced
variable (breaks : CodePoint → Bool)

/-- The second text is the first with newlines for its breaks, and other whitespace at its
    end. -/
inductive Respaced : Str → Str → Prop where
  | spaces {w w' : Str} : (∀ c ∈ w, isJsonSpace c = true) → (∀ c ∈ w', isJsonSpace c = true) →
      Respaced w w'
  | same {c : CodePoint} {s t : Str} : breaks c = false → Respaced s t →
      Respaced (c :: s) (c :: t)
  | line {c : CodePoint} {s t : Str} : breaks c = true → Respaced s t →
      Respaced (c :: s) (.scalar '\n' :: t)
  | crlf {s t : Str} : breaks (.scalar '\r') = true → Respaced s t →
      Respaced (.scalar '\r' :: .scalar '\n' :: s) (.scalar '\n' :: t)

/-- A break that may stand inside a string. -/
def isInnerBreak (c : CodePoint) : Bool := breaks c && decide (0x80 ≤ c.ord)

/-- A break is a control character or is not ASCII. -/
def BreaksOutside : Prop := ∀ c, breaks c = true → c.ord < 0x20 ∨ 0x80 ≤ c.ord

variable {breaks}

theorem isJsonSpace_iff {c : CodePoint} : isJsonSpace c = true ↔
    c = .scalar ' ' ∨ c = .scalar '\t' ∨ c = .scalar '\n' ∨ c = .scalar '\r' := by
  simp [isJsonSpace, str]

theorem isJsonSpace_of_visible {c : CodePoint} (h : isVisible c = true) : isJsonSpace c = false := by
  by_contra hspace
  rcases isJsonSpace_iff.mp (by simpa using hspace) with rfl | rfl | rfl | rfl <;>
    exact absurd h (by decide)

theorem isInnerBreak_of_visible {c : CodePoint} (h : isVisible c = true) :
    isInnerBreak breaks c = false := by
  unfold isVisible at h
  unfold isInnerBreak
  simp only [Bool.and_eq_true, decide_eq_true_eq] at h
  simp only [Bool.and_eq_false_iff, decide_eq_false_iff_not]
  exact .inr (by omega)

theorem isInnerBreak_of_space {c : CodePoint} (h : isJsonSpace c = true) :
    isInnerBreak breaks c = false := by
  have hord : c.ord < 0x80 := by
    rcases isJsonSpace_iff.mp h with rfl | rfl | rfl | rfl <;> decide
  unfold isInnerBreak
  simp only [Bool.and_eq_false_iff, decide_eq_false_iff_not]
  exact .inr (by omega)

theorem breaks_of_visible (hbreaks : BreaksOutside breaks) {c : CodePoint}
    (h : isVisible c = true) : breaks c = false := by
  by_contra hbreak
  have hord := hbreaks c (by simpa using hbreak)
  simp only [isVisible, Bool.and_eq_true, decide_eq_true_eq] at h
  omega

/-- Any text can be respaced. -/
theorem exists_respaced (breaks : CodePoint → Bool) (s : Str) : ∃ t, Respaced breaks s t := by
  induction s with
  | nil => exact ⟨[], .spaces (by simp) (by simp)⟩
  | cons c s ih =>
    obtain ⟨t, ht⟩ := ih
    cases hc : breaks c with
    | false => exact ⟨c :: t, .same hc ht⟩
    | true => exact ⟨_, .line hc ht⟩

variable {s t : Str}

/-! ### Visible characters -/

/-- The text starts with a visible character. -/
def StartsVisible (s : Str) : Prop := ∃ c rest, s = c :: rest ∧ isVisible c = true

/-- A visible character stays. -/
theorem Respaced.visible (hbreaks : BreaksOutside breaks) {c : CodePoint} (hc : isVisible c = true)
    (h : Respaced breaks (c :: s) t) : ∃ t', t = c :: t' ∧ Respaced breaks s t' := by
  cases h with
  | spaces hw _ =>
    have hspace := hw c List.mem_cons_self
    rw [isJsonSpace_of_visible hc] at hspace
    exact absurd hspace (by simp)
  | same _ h => exact ⟨_, rfl, h⟩
  | line hbreak _ =>
    rw [breaks_of_visible hbreaks hc] at hbreak
    exact absurd hbreak (by simp)
  | crlf _ _ => exact absurd hc (by decide)

/-- Both texts start with the same visible character, or neither starts with one. -/
theorem Respaced.heads (hbreaks : BreaksOutside breaks) (h : Respaced breaks s t) :
    (∃ c s' t', isVisible c = true ∧ s = c :: s' ∧ t = c :: t' ∧ Respaced breaks s' t') ∨
      ¬ StartsVisible s ∧ ¬ StartsVisible t := by
  have hspaces : ∀ w : Str, (∀ c ∈ w, isJsonSpace c = true) → ¬ StartsVisible w := by
    intro w hw hstart
    obtain ⟨c, rest, rfl, hc⟩ := hstart
    have hspace := hw c List.mem_cons_self
    rw [isJsonSpace_of_visible hc] at hspace
    exact absurd hspace (by simp)
  have hcons : ∀ {c : CodePoint} {rest : Str}, isVisible c = false → ¬ StartsVisible (c :: rest) := by
    intro c rest hc hstart
    obtain ⟨d, rest', heq, hd⟩ := hstart
    rw [(List.cons.inj heq).1, hd] at hc
    exact absurd hc (by simp)
  cases h with
  | spaces hw hw' => exact .inr ⟨hspaces _ hw, hspaces _ hw'⟩
  | @same c s t _ h =>
    cases hc : isVisible c with
    | true => exact .inl ⟨c, s, t, hc, rfl, rfl, h⟩
    | false => exact .inr ⟨hcons hc, hcons hc⟩
  | @line c s t hbreak h =>
    have hc : isVisible c = false := by
      by_contra hc
      rw [breaks_of_visible hbreaks (by simpa using hc)] at hbreak
      exact absurd hbreak (by simp)
    exact .inr ⟨hcons hc, hcons (by decide)⟩
  | crlf _ _ => exact .inr ⟨hcons (by decide), hcons (by decide)⟩

/-! ### Whitespace -/

theorem through_skipWhitespace (s : Str) :
    Through (fun c => isJsonSpace c = true) s (skipWhitespace s) :=
  ⟨s.takeWhile isJsonSpace, List.takeWhile_append_dropWhile.symm,
    fun _ hc => List.mem_takeWhile_imp hc⟩

theorem skipWhitespace_eq_nil : skipWhitespace s = [] ↔ ∀ c ∈ s, isJsonSpace c = true := by
  unfold skipWhitespace
  rw [List.dropWhile_eq_nil_iff]

theorem skipWhitespace_space {c : CodePoint} (hc : isJsonSpace c = true) :
    skipWhitespace (c :: s) = skipWhitespace s :=
  List.dropWhile_cons_of_pos hc

theorem Respaced.skip_nil (h : Respaced breaks s t) (hs : skipWhitespace s = []) :
    skipWhitespace t = [] := by
  rw [skipWhitespace_eq_nil] at hs ⊢
  induction h with
  | spaces _ hw' => exact hw'
  | same _ _ ih =>
    obtain ⟨hc, hrest⟩ := List.forall_mem_cons.mp hs
    exact List.forall_mem_cons.mpr ⟨hc, ih hrest⟩
  | line _ _ ih =>
    obtain ⟨-, hrest⟩ := List.forall_mem_cons.mp hs
    exact List.forall_mem_cons.mpr ⟨by decide, ih hrest⟩
  | crlf _ _ ih =>
    obtain ⟨-, -, hrest⟩ := by simpa using hs
    exact List.forall_mem_cons.mpr ⟨by decide, ih hrest⟩

/-- After whitespace, a visible character is where it was. -/
theorem Respaced.skip {c : CodePoint} {rest : Str} (h : Respaced breaks s t)
    (hbreaks : BreaksOutside breaks) (hs : skipWhitespace s = c :: rest)
    (hc : isVisible c = true) : ∃ t', skipWhitespace t = c :: t' ∧ Respaced breaks rest t' := by
  induction h with
  | spaces hw _ =>
    rw [skipWhitespace_eq_nil.mpr hw] at hs
    exact absurd hs (by simp)
  | @same d s t hbreak h ih =>
    cases hd : isJsonSpace d with
    | true =>
      rw [skipWhitespace_space hd] at hs ⊢
      exact ih hs
    | false =>
      have hkeep : ∀ l : Str, skipWhitespace (d :: l) = d :: l :=
        fun l => List.dropWhile_cons_of_neg (by simp [hd])
      rw [hkeep] at hs ⊢
      obtain ⟨rfl, rfl⟩ := List.cons.inj hs
      exact ⟨t, rfl, h⟩
  | @line d s t hbreak h ih =>
    rw [skipWhitespace_space (by decide)]
    cases hd : isJsonSpace d with
    | true =>
      rw [skipWhitespace_space hd] at hs
      exact ih hs
    | false =>
      -- a break that is no whitespace is no token either
      have hkeep : skipWhitespace (d :: s) = d :: s := List.dropWhile_cons_of_neg (by simp [hd])
      rw [hkeep] at hs
      obtain ⟨rfl, -⟩ := List.cons.inj hs
      rw [breaks_of_visible hbreaks hc] at hbreak
      exact absurd hbreak (by simp)
  | crlf _ _ ih =>
    rw [skipWhitespace_space (by decide), skipWhitespace_space (by decide)] at hs
    rw [skipWhitespace_space (by decide)]
    exact ih hs

/-! ### Escapes, constants and numbers -/

variable {α β : Type}

/-- Reading the two texts gives the same value, through visible characters. -/
def Reads (breaks : CodePoint → Bool) (s : Str) (x y : α × Str) : Prop :=
  Through (fun c => isVisible c = true) s x.2 ∧ y.1 = x.1 ∧ Respaced breaks x.2 y.2

/-- Reading both texts fails, or gives the same value through visible characters. -/
inductive Matches (breaks : CodePoint → Bool) (s : Str) :
    Option (α × Str) → Option (α × Str) → Prop where
  | none : Matches breaks s none none
  | some {x y : α × Str} : Reads breaks s x y → Matches breaks s (some x) (some y)

theorem Reads.after {r : Str} {x y : α × Str} (h : Reads breaks r x y)
    (hr : Through (fun c => isVisible c = true) s r) : Reads breaks s x y :=
  ⟨hr.trans h.1, h.2⟩

theorem Matches.through {x : α × Str} {y : Option (α × Str)} (h : Matches breaks s (Option.some x) y) :
    Through (fun c => isVisible c = true) s x.2 := by
  generalize hx : Option.some x = x' at h
  cases h with
  | none => exact absurd hx (by simp)
  | some hread =>
    rw [Option.some.inj hx]
    exact hread.1

theorem Matches.bind {x y : Option (α × Str)} {f : α × Str → Option (β × Str)}
    (h : Matches breaks s x y)
    (hf : ∀ a r r', Respaced breaks r r' → Matches breaks r (f (a, r)) (f (a, r'))) :
    Matches breaks s (x.bind f) (y.bind f) := by
  cases h with
  | none => exact .none
  | @some x y hxy =>
    obtain ⟨a, r⟩ := x
    obtain ⟨a', r'⟩ := y
    obtain ⟨hthrough, rfl, hrest⟩ := hxy
    show Matches breaks s (f (a', r)) (f (a', r'))
    have hnext := hf a' r r' hrest
    generalize f (a', r) = x, f (a', r') = y at hnext ⊢
    cases hnext with
    | none => exact .none
    | some hread => exact .some (hread.after hthrough)

/-- One character of the kind that `f` reads. -/
def pick (f : CodePoint → Option α) : Str → Option (α × Str)
  | [] => none
  | c :: rest => (f c).map (·, rest)

theorem matches_pick (hbreaks : BreaksOutside breaks) {f : CodePoint → Option α}
    (hf : ∀ c a, f c = some a → isVisible c = true) (h : Respaced breaks s t) :
    Matches breaks s (pick f s) (pick f t) := by
  have hnone : ∀ l : Str, ¬ StartsVisible l → pick f l = none := by
    intro l hl
    cases l with
    | nil => rfl
    | cons c rest =>
      cases hc : f c with
      | none => simp [pick, hc]
      | some a => exact absurd ⟨c, rest, rfl, hf c a hc⟩ hl
  rcases h.heads hbreaks with ⟨c, s', t', hc, rfl, rfl, hrest⟩ | ⟨hs, ht⟩
  · cases hfc : f c with
    | none =>
      simp only [pick, hfc, Option.map_none]
      exact .none
    | some a =>
      simp only [pick, hfc, Option.map_some]
      exact .some ⟨(Through.refl s').cons hc, rfl, hrest⟩
  · rw [hnone s hs, hnone t ht]
    exact .none

theorem isVisible_of_hexDigit {c : CodePoint} {n : ℕ} (h : hexDigit c = some n) :
    isVisible c = true := by
  unfold hexDigit at h
  dsimp only at h
  simp only [isVisible, Bool.and_eq_true, decide_eq_true_eq]
  split_ifs at h <;> omega

theorem hex4_eq (s : Str) : hex4 s =
    (pick hexDigit s).bind fun a => (pick hexDigit a.2).bind fun b =>
      (pick hexDigit b.2).bind fun c => (pick hexDigit c.2).bind fun d =>
        some ((a.1 * 16 + b.1) * 256 + c.1 * 16 + d.1, d.2) := by
  rcases s with _ | ⟨a, _ | ⟨b, _ | ⟨c, _ | ⟨d, rest⟩⟩⟩⟩
  · rfl
  · cases ha : hexDigit a <;> simp [hex4, pick, ha]
  · cases ha : hexDigit a <;> cases hb : hexDigit b <;> simp [hex4, pick, ha, hb]
  · cases ha : hexDigit a <;> cases hb : hexDigit b <;> cases hc : hexDigit c <;>
      simp [hex4, pick, ha, hb, hc]
  · cases ha : hexDigit a <;> cases hb : hexDigit b <;> cases hc : hexDigit c <;>
      cases hd : hexDigit d <;> simp [hex4, pick, ha, hb, hc, hd]

theorem matches_hex4 (hbreaks : BreaksOutside breaks) (h : Respaced breaks s t) :
    Matches breaks s (hex4 s) (hex4 t) := by
  have hdigit : ∀ {l l' : Str}, Respaced breaks l l' →
      Matches breaks l (pick hexDigit l) (pick hexDigit l') :=
    fun hl => matches_pick hbreaks (fun _ _ => isVisible_of_hexDigit) hl
  rw [hex4_eq, hex4_eq]
  refine (hdigit h).bind fun a _ _ ha => (hdigit ha).bind fun b _ _ hb =>
    (hdigit hb).bind fun c _ _ hc => (hdigit hc).bind fun d r r' hd => ?_
  exact .some ⟨.refl r, rfl, hd⟩

/-- A given character. -/
def exactly (d c : CodePoint) : Option Unit := if c = d then some () else none

theorem isVisible_of_exactly {d : CodePoint} (hd : isVisible d = true) (c : CodePoint) (u : Unit)
    (h : exactly d c = some u) : isVisible c = true := by
  unfold exactly at h
  by_cases hc : c = d
  · rw [hc]
    exact hd
  · simp [hc] at h

theorem lowSurrogate_eq (s : Str) : lowSurrogate s =
    (pick (exactly (.scalar '\\')) s).bind fun a => (pick (exactly (.scalar 'u')) a.2).bind fun b =>
      (hex4 b.2).bind fun low => if isLowSurrogate low.1 then some low else none := by
  rcases s with _ | ⟨a, _ | ⟨b, rest⟩⟩
  · rfl
  · by_cases ha : a = .scalar '\\' <;> simp [lowSurrogate, pick, exactly, ha]
  · by_cases ha : a = .scalar '\\' <;> by_cases hb : b = .scalar 'u' <;>
      simp [lowSurrogate, pick, exactly, ha, hb]
    cases hex4 rest with
    | none => rfl
    | some low => rfl

theorem matches_lowSurrogate (hbreaks : BreaksOutside breaks) (h : Respaced breaks s t) :
    Matches breaks s (lowSurrogate s) (lowSurrogate t) := by
  rw [lowSurrogate_eq, lowSurrogate_eq]
  refine (matches_pick hbreaks (isVisible_of_exactly (by decide)) h).bind fun _ _ _ ha =>
    (matches_pick hbreaks (isVisible_of_exactly (by decide)) ha).bind fun _ _ _ hb =>
      (matches_hex4 hbreaks hb).bind fun low r r' hlow => ?_
  show Matches breaks r (if isLowSurrogate low then some (low, r) else none)
    (if isLowSurrogate low then some (low, r') else none)
  by_cases hl : isLowSurrogate low = true
  · rw [if_pos hl, if_pos hl]
    exact .some ⟨.refl r, rfl, hlow⟩
  · rw [if_neg hl, if_neg hl]
    exact .none

theorem isVisible_of_unescape {c d : CodePoint} (h : unescape c = some d) : isVisible c = true := by
  unfold unescape at h
  have hmem : c ∈ str "\"\\/bfnrt" := by
    by_contra hc
    have hnone : ((str "\"\\/bfnrt").zip (str "\"\\/\x08\x0c\n\r\t")).lookup c = none := by
      simp [str] at hc ⊢
      simp [hc]
    rw [hnone] at h
    exact absurd h (by simp)
  have hall : ∀ c ∈ str "\"\\/bfnrt", isVisible c = true := by decide
  exact hall c hmem

theorem scanEscape_respaced (hbreaks : BreaksOutside breaks) (h : Respaced breaks s t)
    {d : CodePoint} {rest : Str} (hs : scanEscape s = .ok (d, rest)) :
    Through (fun c => isVisible c = true) s rest ∧
      ∃ rest', scanEscape t = .ok (d, rest') ∧ Respaced breaks rest rest' := by
  rcases h.heads hbreaks with ⟨c, s', t', hc, rfl, rfl, hrest⟩ | ⟨hnone, -⟩
  · by_cases hu : c = .scalar 'u'
    · subst hu
      simp only [scanEscape, if_true] at hs ⊢
      have hhex := matches_hex4 hbreaks hrest
      generalize hex4 s' = x, hex4 t' = y at hhex hs ⊢
      cases hhex with
      | none => exact absurd hs (by simp)
      | @some x y hread =>
        obtain ⟨n, r⟩ := x
        obtain ⟨n', r'⟩ := y
        obtain ⟨hthrough, rfl, hr⟩ := hread
        simp only at hs ⊢
        have hlow : Matches breaks r (if isHighSurrogate n' = true then lowSurrogate r else none)
            (if isHighSurrogate n' = true then lowSurrogate r' else none) := by
          by_cases hhigh : isHighSurrogate n' = true
          · rw [if_pos hhigh, if_pos hhigh]
            exact matches_lowSurrogate hbreaks hr
          · rw [if_neg hhigh, if_neg hhigh]
            exact .none
        generalize (if isHighSurrogate n' = true then lowSurrogate r else none) = x,
          (if isHighSurrogate n' = true then lowSurrogate r' else none) = y at hlow hs ⊢
        cases hlow with
        | none =>
          obtain ⟨rfl, rfl⟩ := Prod.mk.inj (Except.ok.inj hs)
          exact ⟨hthrough.cons hc, r', rfl, hr⟩
        | @some x y hread =>
          obtain ⟨low, q⟩ := x
          obtain ⟨low', q'⟩ := y
          obtain ⟨hthrough', rfl, hq⟩ := hread
          obtain ⟨rfl, rfl⟩ := Prod.mk.inj (Except.ok.inj hs)
          exact ⟨(hthrough.trans hthrough').cons hc, q', rfl, hq⟩
    · simp only [scanEscape, if_neg hu] at hs ⊢
      cases hd : unescape c with
      | none => simp [hd] at hs
      | some d' =>
        simp only [hd] at hs ⊢
        obtain ⟨rfl, rfl⟩ := Prod.mk.inj (Except.ok.inj hs)
        exact ⟨(Through.refl s').cons hc, t', rfl, hrest⟩
  · -- an escape starts with a visible character
    exfalso
    apply hnone
    cases s with
    | nil => exact absurd hs (by simp [scanEscape])
    | cons c s' =>
      refine ⟨c, s', rfl, ?_⟩
      by_cases hu : c = .scalar 'u'
      · rw [hu]
        decide
      · simp only [scanEscape, if_neg hu] at hs
        cases hd : unescape c with
        | none => simp [hd] at hs
        | some d' => exact isVisible_of_unescape hd

/-- A name of visible characters stands before both texts or before neither. -/
theorem afterPrefix_respaced (hbreaks : BreaksOutside breaks) {name : Str}
    (hname : ∀ c ∈ name, isVisible c = true) (h : Respaced breaks s t) (v : α) :
    Matches breaks s ((afterPrefix name s).map (v, ·)) ((afterPrefix name t).map (v, ·)) := by
  have hnil : ∀ l : Str, afterPrefix [] l = some l := fun l => rfl
  have hcons : ∀ (c : CodePoint) (name : Str) (l : Str), isVisible c = true → ¬ StartsVisible l →
      afterPrefix (c :: name) l = none := by
    intro c name l hc hl
    cases l with
    | nil => simp [afterPrefix]
    | cons d l =>
      have hne : d ≠ c := by
        rintro rfl
        exact hl ⟨d, l, rfl, hc⟩
      simp [afterPrefix, hne]
  have hsame : ∀ (c d : CodePoint) (name l : Str), afterPrefix (c :: name) (d :: l) =
      if d = c then afterPrefix name l else none := by
    intro c d name l
    by_cases hdc : d = c
    · simp [afterPrefix, hdc]
    · simp [afterPrefix, hdc]
  induction name generalizing s t with
  | nil =>
    rw [hnil, hnil]
    exact .some ⟨.refl s, rfl, h⟩
  | cons c name ih =>
    obtain ⟨hc, hrest⟩ := List.forall_mem_cons.mp hname
    rcases h.heads hbreaks with ⟨d, s', t', hd, rfl, rfl, h'⟩ | ⟨hs, ht⟩
    · rw [hsame, hsame]
      by_cases hdc : d = c
      · rw [if_pos hdc, if_pos hdc]
        have hnext := ih hrest h'
        generalize (afterPrefix name s').map (v, ·) = x, (afterPrefix name t').map (v, ·) = y
          at hnext ⊢
        cases hnext with
        | none => exact .none
        | some hread => exact .some (hread.after ((Through.refl s').cons hd))
      · rw [if_neg hdc, if_neg hdc]
        exact .none
    · rw [hcons c name s hc hs, hcons c name t hc ht]
      exact .none

theorem findConstant_respaced (hbreaks : BreaksOutside breaks) (h : Respaced breaks s t)
    {l : List (Str × Json)} (hl : ∀ p ∈ l, ∀ c ∈ p.1, isVisible c = true) :
    Matches breaks s (l.findSome? fun (name, v) => (afterPrefix name s).map (v, ·))
      (l.findSome? fun (name, v) => (afterPrefix name t).map (v, ·)) := by
  induction l with
  | nil => exact .none
  | cons p l ih =>
    obtain ⟨name, v⟩ := p
    obtain ⟨hname, hrest⟩ := List.forall_mem_cons.mp hl
    rw [List.findSome?_cons, List.findSome?_cons]
    have hfirst := afterPrefix_respaced hbreaks hname h v
    simp only
    generalize (afterPrefix name s).map (v, ·) = x, (afterPrefix name t).map (v, ·) = y
      at hfirst ⊢
    cases hfirst with
    | none => exact ih hrest
    | some hread => exact .some hread

theorem scanConstant_respaced (hbreaks : BreaksOutside breaks) (h : Respaced breaks s t) :
    Matches breaks s (scanConstant s) (scanConstant t) :=
  findConstant_respaced hbreaks h (by decide)

theorem isVisible_of_isDigit {c : CodePoint} (h : c.isDigit = true) : isVisible c = true := by
  cases c with
  | surrogate i => exact absurd h (by simp [CodePoint.isDigit])
  | scalar c =>
    simp only [CodePoint.isDigit, Char.isDigit, Bool.and_eq_true, decide_eq_true_eq,
      ge_iff_le, UInt32.le_iff_toNat_le] at h
    simp only [isVisible, Bool.and_eq_true, decide_eq_true_eq]
    have hord : (CodePoint.scalar c).ord = c.val.toNat := rfl
    have hlow : '0'.val.toNat = 48 := rfl
    have hhigh : '9'.val.toNat = 57 := rfl
    omega

/-- The digits at the start of a text, and what follows. -/
def digits (s : Str) : Str × Str := (s.takeWhile CodePoint.isDigit, s.dropWhile CodePoint.isDigit)

theorem digits_cons {c : CodePoint} (hc : c.isDigit = true) (l : Str) :
    digits (c :: l) = (c :: (digits l).1, (digits l).2) := by
  simp [digits, hc]

theorem digits_none {l : Str} (hl : ∀ c rest, l = c :: rest → c.isDigit = false) :
    digits l = ([], l) := by
  cases l with
  | nil => rfl
  | cons c rest => simp [digits, hl c rest rfl]

theorem not_isDigit_of_not_starts (hs : ¬ StartsVisible s) :
    ∀ c rest, s = c :: rest → c.isDigit = false := by
  intro c rest heq
  by_contra hc
  exact hs ⟨c, rest, heq, isVisible_of_isDigit (by simpa using hc)⟩

theorem digits_respaced (hbreaks : BreaksOutside breaks) (h : Respaced breaks s t) :
    Reads breaks s (digits s) (digits t) := by
  induction s generalizing t with
  | nil =>
    rcases h.heads hbreaks with ⟨c, s', t', -, heq, -, -⟩ | ⟨-, ht⟩
    · exact absurd heq (by simp)
    · rw [digits_none (not_isDigit_of_not_starts ht)]
      exact ⟨.refl [], rfl, h⟩
  | cons c s ih =>
    rcases h.heads hbreaks with ⟨d, s', t', hd, heq, rfl, hrest⟩ | ⟨hs, ht⟩
    · obtain ⟨rfl, rfl⟩ := List.cons.inj heq
      cases hdigit : c.isDigit with
      | true =>
        rw [digits_cons hdigit, digits_cons hdigit]
        obtain ⟨hthrough, hvalue, hafter⟩ := ih hrest
        exact ⟨hthrough.cons hd, congrArg (c :: ·) hvalue, hafter⟩
      | false =>
        have hnone : ∀ l : Str, digits (c :: l) = ([], c :: l) := by
          intro l
          apply digits_none
          intro d rest heq
          rw [← (List.cons.inj heq).1]
          exact hdigit
        rw [hnone, hnone]
        exact ⟨.refl _, rfl, h⟩
    · rw [digits_none (not_isDigit_of_not_starts hs), digits_none (not_isDigit_of_not_starts ht)]
      exact ⟨.refl _, rfl, h⟩

theorem scanSign_respaced (hbreaks : BreaksOutside breaks) (h : Respaced breaks s t) :
    Reads breaks s (scanSign s) (scanSign t) := by
  have hnone : ∀ l : Str, ¬ StartsVisible l → scanSign l = ([], l) := by
    intro l hl
    cases l with
    | nil => rfl
    | cons c rest =>
      have hne : c ≠ .scalar '-' := by
        rintro rfl
        exact hl ⟨_, rest, rfl, by decide⟩
      simp [scanSign, hne]
  rcases h.heads hbreaks with ⟨c, s', t', hc, rfl, rfl, hrest⟩ | ⟨hs, ht⟩
  · by_cases hsign : c = .scalar '-'
    · simp only [scanSign, if_pos hsign]
      exact ⟨(Through.refl s').cons hc, rfl, hrest⟩
    · simp only [scanSign, if_neg hsign]
      exact ⟨.refl _, rfl, h⟩
  · rw [hnone s hs, hnone t ht]
    exact ⟨.refl s, rfl, h⟩

theorem scanExponentSign_respaced (hbreaks : BreaksOutside breaks) (h : Respaced breaks s t) :
    Reads breaks s (scanExponentSign s) (scanExponentSign t) := by
  have hnone : ∀ l : Str, ¬ StartsVisible l → scanExponentSign l = ([], l) := by
    intro l hl
    cases l with
    | nil => rfl
    | cons c rest =>
      have hne : ¬ (c = .scalar '-' ∨ c = .scalar '+') := by
        rintro (rfl | rfl)
        · exact hl ⟨_, rest, rfl, by decide⟩
        · exact hl ⟨_, rest, rfl, by decide⟩
      simp only [scanExponentSign, if_neg hne]
  rcases h.heads hbreaks with ⟨c, s', t', hc, rfl, rfl, hrest⟩ | ⟨hs, ht⟩
  · by_cases hsign : c = .scalar '-' ∨ c = .scalar '+'
    · simp only [scanExponentSign, if_pos hsign]
      exact ⟨(Through.refl s').cons hc, rfl, hrest⟩
    · simp only [scanExponentSign, if_neg hsign]
      exact ⟨.refl _, rfl, h⟩
  · rw [hnone s hs, hnone t ht]
    exact ⟨.refl s, rfl, h⟩

theorem scanInteger_respaced (hbreaks : BreaksOutside breaks) (h : Respaced breaks s t) :
    Matches breaks s (scanInteger s) (scanInteger t) := by
  have hnone : ∀ l : Str, ¬ StartsVisible l → scanInteger l = none := by
    intro l hl
    cases l with
    | nil => rfl
    | cons c rest =>
      have hdigit := not_isDigit_of_not_starts hl c rest rfl
      have hzero : c ≠ .scalar '0' := by
        rintro rfl
        exact absurd hdigit (by decide)
      simp [scanInteger, hzero, hdigit]
  rcases h.heads hbreaks with ⟨c, s', t', hc, rfl, rfl, hrest⟩ | ⟨hs, ht⟩
  · by_cases hzero : c = .scalar '0'
    · simp only [scanInteger, if_pos hzero]
      exact .some ⟨(Through.refl s').cons hc, rfl, hrest⟩
    · cases hdigit : c.isDigit with
      | true =>
        simp only [scanInteger, if_neg hzero, hdigit, if_true]
        obtain ⟨hthrough, hvalue, hafter⟩ := digits_respaced hbreaks hrest
        exact .some ⟨hthrough.cons hc, congrArg (c :: ·) hvalue, hafter⟩
      | false =>
        simp only [scanInteger, if_neg hzero, hdigit]
        exact .none
  · rw [hnone s hs, hnone t ht]
    exact .none

theorem scanFraction_respaced (hbreaks : BreaksOutside breaks) (h : Respaced breaks s t) :
    Reads breaks s (scanFraction s) (scanFraction t) := by
  have hnone : ∀ l : Str, (∀ d rest, l = .scalar '.' :: d :: rest → d.isDigit = false) →
      scanFraction l = ([], l) := by
    intro l hl
    unfold scanFraction
    split
    · next p d rest =>
      rw [if_neg]
      rintro ⟨rfl, hd⟩
      rw [hl d rest rfl] at hd
      exact absurd hd (by simp)
    · rfl
  have hstay : scanFraction s = ([], s) → scanFraction t = ([], t) →
      Reads breaks s (scanFraction s) (scanFraction t) := by
    intro hs ht
    rw [hs, ht]
    exact ⟨.refl s, rfl, h⟩
  have hhidden : ∀ l : Str, ¬ StartsVisible l → scanFraction l = ([], l) := by
    intro l hl
    apply hnone
    rintro d rest rfl
    exact absurd ⟨_, _, rfl, by decide⟩ hl
  rcases h.heads hbreaks with ⟨p, s', t', hp, rfl, rfl, hrest⟩ | ⟨hs, ht⟩
  · rcases hrest.heads hbreaks with ⟨d, s'', t'', hd, rfl, rfl, hrest'⟩ | ⟨hs', ht'⟩
    · by_cases hpoint : p = .scalar '.' ∧ d.isDigit = true
      · simp only [scanFraction, if_pos hpoint]
        obtain ⟨hthrough, hvalue, hafter⟩ := digits_respaced hbreaks hrest'
        exact ⟨(hthrough.cons hd).cons hp, congrArg (fun l => p :: d :: l) hvalue, hafter⟩
      · apply hstay <;> simp only [scanFraction, if_neg hpoint]
    · have hpointless : ∀ l : Str, ¬ StartsVisible l → scanFraction (p :: l) = ([], p :: l) := by
        intro l hl
        apply hnone
        intro d rest heq
        obtain ⟨-, rfl⟩ := List.cons.inj heq
        exact not_isDigit_of_not_starts hl d rest rfl
      exact hstay (hpointless s' hs') (hpointless t' ht')
  · exact hstay (hhidden s hs) (hhidden t ht)

theorem scanExponent_respaced (hbreaks : BreaksOutside breaks) (h : Respaced breaks s t) :
    Reads breaks s (scanExponent s) (scanExponent t) := by
  have hhidden : ∀ l : Str, ¬ StartsVisible l → scanExponent l = ([], l) := by
    intro l hl
    cases l with
    | nil => rfl
    | cons e rest =>
      have hne : ¬ ((e = .scalar 'e' ∨ e = .scalar 'E') ∧
          (scanExponentSign rest).2.takeWhile CodePoint.isDigit ≠ []) := by
        rintro ⟨rfl | rfl, -⟩
        · exact hl ⟨_, rest, rfl, by decide⟩
        · exact hl ⟨_, rest, rfl, by decide⟩
      simp only [scanExponent, if_neg hne]
  rcases h.heads hbreaks with ⟨e, s', t', he, rfl, rfl, hrest⟩ | ⟨hs, ht⟩
  · obtain ⟨hsign, hsame, hafter⟩ := scanExponentSign_respaced hbreaks hrest
    obtain ⟨hdigits, hvalue, hend⟩ := digits_respaced hbreaks hafter
    have hvalue' : (scanExponentSign t').2.takeWhile CodePoint.isDigit =
        (scanExponentSign s').2.takeWhile CodePoint.isDigit := hvalue
    by_cases hexp : (e = .scalar 'e' ∨ e = .scalar 'E') ∧
        (scanExponentSign s').2.takeWhile CodePoint.isDigit ≠ []
    · have hexp' : (e = .scalar 'e' ∨ e = .scalar 'E') ∧
          (scanExponentSign t').2.takeWhile CodePoint.isDigit ≠ [] := by
        rw [hvalue']
        exact hexp
      simp only [scanExponent, if_pos hexp, if_pos hexp']
      refine ⟨(hsign.trans hdigits).cons he, ?_, hend⟩
      show e :: (_ ++ _) = e :: (_ ++ _)
      rw [hsame, hvalue']
    · have hexp' : ¬ ((e = .scalar 'e' ∨ e = .scalar 'E') ∧
          (scanExponentSign t').2.takeWhile CodePoint.isDigit ≠ []) := by
        rw [hvalue']
        exact hexp
      simp only [scanExponent, if_neg hexp, if_neg hexp']
      exact ⟨.refl _, rfl, h⟩
  · rw [hhidden s hs, hhidden t ht]
    exact ⟨.refl s, rfl, h⟩

/-- A number is read alike. -/
theorem matchNumber_respaced (hbreaks : BreaksOutside breaks) (h : Respaced breaks s t) :
    Matches breaks s (matchNumber s) (matchNumber t) := by
  unfold matchNumber
  obtain ⟨hsign, hsame, hafter⟩ := scanSign_respaced hbreaks h
  have hinteger := scanInteger_respaced hbreaks hafter
  simp only
  generalize scanInteger (scanSign s).2 = x, scanInteger (scanSign t).2 = y at hinteger ⊢
  cases hinteger with
  | none => exact .none
  | @some x y hread =>
    obtain ⟨whole, r⟩ := x
    obtain ⟨whole', r'⟩ := y
    obtain ⟨hwhole, rfl, hr⟩ := hread
    obtain ⟨hfraction, hsame', hr'⟩ := scanFraction_respaced hbreaks hr
    obtain ⟨hexponent, hsame'', hr''⟩ := scanExponent_respaced hbreaks hr'
    have hthrough := ((hsign.trans hwhole).trans hfraction).trans hexponent
    simp only
    rw [hsame, hsame', hsame'']
    by_cases hint : (scanFraction r).1 = [] ∧ (scanExponent (scanFraction r).2).1 = []
    · rw [if_pos hint, if_pos hint]
      exact .some ⟨hthrough, rfl, hr''⟩
    · rw [if_neg hint, if_neg hint]
      exact .some ⟨hthrough, rfl, hr''⟩

end respaced

end Py
