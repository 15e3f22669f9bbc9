import IncidentEvidence.Py.Str
import Mathlib.Data.List.Sort

/-! # JSON values and the compact encoder

    The values `json.dumps` and `json.loads` exchange, and the encoder with
    `ensure_ascii=False`, `sort_keys=True` and `separators=(",", ":")`.

    The main result is that the encoding is unambiguous: two values whose
    objects list their keys in increasing order and which hold no floats have
    the same text only if they are equal (`dumps_inj`). The proof reads the text
    from the left, so every lemma carries the rest of the text along. The encoder
    raises for one kind of value only: an integer with too many digits
    (`jsonDumps`).
-/

namespace Py

/-! ### Values -/

/-- A JSON value. A float keeps the text of its literal: `NaN`, `Infinity` and
    `-Infinity` are floats to `json.loads`. -/
inductive Json where
  | null
  | bool (b : Bool)
  | int (i : Int)
  | float (literal : Str)
  | str (s : Str)
  | arr (items : List Json)
  | obj (fields : List (Str × Json))

/-! ### Encoder -/

/-- The letter after the backslash of a two-character escape (`ESCAPE_DCT`). -/
def shortEscape (c : CodePoint) : Option Char :=
  if c = .scalar '"' then some '"'
  else if c = .scalar '\\' then some '\\'
  else if c = .scalar '\n' then some 'n'
  else if c = .scalar '\r' then some 'r'
  else if c = .scalar '\t' then some 't'
  else if c = .scalar '\x0c' then some 'f'
  else if c = .scalar '\x08' then some 'b'
  else none

/-- One character inside a JSON string, as `encode_basestring` writes it. -/
def escapeChar (c : CodePoint) : Str :=
  match shortEscape c with
  | some e => [.scalar '\\', .scalar e]
  | none =>
    if c.ord < 0x20 then .scalar '\\' :: .scalar 'u' :: fixedDigits 16 4 c.ord
    else [c]

/-- The characters of a string between its quotes. -/
def escape (s : Str) : Str := s.flatMap escapeChar

/-- A JSON string literal. -/
def quote (s : Str) : Str := .scalar '"' :: (escape s ++ [.scalar '"'])

/-- `",".join(parts)`. -/
def joinComma : List Str → Str
  | [] => []
  | x :: xs => x ++ xs.flatMap fun y => .scalar ',' :: y

/-- `"key":value`. -/
def field (kv : Str × Str) : Str := quote kv.1 ++ .scalar ':' :: kv.2

/-- `sort_keys=True`: the members in key order. -/
def sortKeys (fields : List (Str × Str)) : List (Str × Str) :=
  fields.insertionSort fun a b => a.1 ≤ b.1

mutual

/-- `json.dumps(value, ensure_ascii=False, sort_keys=True, separators=(",", ":"))`. -/
def dumps : Json → Str
  | .null => str "null"
  | .bool true => str "true"
  | .bool false => str "false"
  | .int i => decimalInt i
  | .float literal => literal
  | .str s => quote s
  | .arr items => .scalar '[' :: (joinComma (dumpsItems items) ++ [.scalar ']'])
  | .obj fields =>
    .scalar '{' :: (joinComma ((sortKeys (dumpsFields fields)).map field) ++ [.scalar '}'])

def dumpsItems : List Json → List Str
  | [] => []
  | v :: vs => dumps v :: dumpsItems vs

def dumpsFields : List (Str × Json) → List (Str × Str)
  | [] => []
  | (k, v) :: fs => (k, dumps v) :: dumpsFields fs

end

@[simp] theorem dumpsFields_keys (fs : List (Str × Json)) :
    (dumpsFields fs).map Prod.fst = fs.map Prod.fst := by
  induction fs with
  | nil => rfl
  | cons kv fs ih =>
    obtain ⟨k, v⟩ := kv
    simp [dumpsFields, ih]

/-! ### Canonical values -/

mutual

/-- No float anywhere, and every object lists distinct keys in increasing order. -/
def Json.Canonical : Json → Prop
  | .float _ => False
  | .arr items => CanonicalItems items
  | .obj fields => (fields.map Prod.fst).Pairwise (· < ·) ∧ CanonicalFields fields
  | _ => True

def CanonicalItems : List Json → Prop
  | [] => True
  | v :: vs => v.Canonical ∧ CanonicalItems vs

def CanonicalFields : List (Str × Json) → Prop
  | [] => True
  | (_, v) :: fs => v.Canonical ∧ CanonicalFields fs

end

theorem canonicalItems_iff {vs : List Json} : CanonicalItems vs ↔ ∀ v ∈ vs, v.Canonical := by
  induction vs with
  | nil => simp [CanonicalItems]
  | cons v vs ih => simp [CanonicalItems, ih]

/-- Sorting does nothing to members that are in order already. -/
theorem sortKeys_dumpsFields {fs : List (Str × Json)}
    (h : (fs.map Prod.fst).Pairwise (· < ·)) : sortKeys (dumpsFields fs) = dumpsFields fs := by
  apply List.Pairwise.insertionSort_eq
  have hkeys : ((dumpsFields fs).map Prod.fst).Pairwise (· < ·) := by simpa using h
  exact (List.pairwise_map.mp hkeys).imp fun hab => le_of_lt hab

/-! ### Strings are read back uniquely -/

theorem shortEscape_eq_none {c : CodePoint} (h : shortEscape c = none) :
    c ≠ .scalar '"' ∧ c ≠ .scalar '\\' := by
  unfold shortEscape at h
  constructor <;> rintro rfl <;> simp at h

theorem shortEscape_ne_u (c : CodePoint) : shortEscape c ≠ some 'u' := by
  unfold shortEscape
  split_ifs <;> decide

theorem shortEscape_inj {a b : CodePoint} {e : Char} (ha : shortEscape a = some e)
    (hb : shortEscape b = some e) : a = b := by
  have decode : ∀ c : CodePoint, ∀ f, shortEscape c = some f →
      c = match f with
        | 'n' => .scalar '\n'
        | 'r' => .scalar '\r'
        | 't' => .scalar '\t'
        | 'f' => .scalar '\x0c'
        | 'b' => .scalar '\x08'
        | g => .scalar g := by
    intro c f h
    unfold shortEscape at h
    split_ifs at h with h1 h2 h3 h4 h5 h6 h7 <;>
      (obtain rfl := Option.some.inj h; assumption)
  rw [decode a e ha, decode b e hb]

/-- An escaped character is the character itself, when that needs no escape, or
    a backslash and more. -/
theorem escapeChar_cases (c : CodePoint) :
    (escapeChar c = [c] ∧ c ≠ .scalar '"' ∧ c ≠ .scalar '\\') ∨
      (∃ e, shortEscape c = some e ∧ escapeChar c = [.scalar '\\', .scalar e]) ∨
      (c.ord < 0x20 ∧
        escapeChar c = .scalar '\\' :: .scalar 'u' :: fixedDigits 16 4 c.ord) := by
  unfold escapeChar
  cases hc : shortEscape c with
  | some e => exact Or.inr (Or.inl ⟨e, rfl, rfl⟩)
  | none =>
    by_cases hlt : c.ord < 0x20
    · exact Or.inr (Or.inr ⟨hlt, by simp [hlt]⟩)
    · exact Or.inl ⟨by simp [hlt], shortEscape_eq_none hc⟩

/-- Two escaped characters that start two equal texts are the same character. -/
theorem escapeChar_append_inj {a b : CodePoint} {r s : Str}
    (h : escapeChar a ++ r = escapeChar b ++ s) : a = b ∧ r = s := by
  suffices hab : a = b by
    subst hab
    exact ⟨rfl, List.append_cancel_left h⟩
  rcases escapeChar_cases a with ⟨ha, _, hna⟩ | ⟨e, he, ha⟩ | ⟨hlta, ha⟩ <;>
    rcases escapeChar_cases b with ⟨hb, _, hnb⟩ | ⟨f, hf, hb⟩ | ⟨hltb, hb⟩ <;>
      rw [ha, hb] at h <;>
      simp only [List.cons_append, List.nil_append, List.cons.injEq, true_and,
        CodePoint.scalar.injEq] at h
  · exact h.1
  · exact absurd h.1 hna
  · exact absurd h.1 hna
  · exact absurd h.1.symm hnb
  · obtain ⟨rfl, _⟩ := h
    exact shortEscape_inj he hf
  · obtain ⟨rfl, _⟩ := h
    exact absurd he (shortEscape_ne_u a)
  · exact absurd h.1.symm hnb
  · obtain ⟨rfl, _⟩ := h
    exact absurd hf (shortEscape_ne_u b)
  · have hdig := (List.append_inj h (by simp)).1
    exact CodePoint.ord_injective
      (fixedDigits_inj (by decide) (by decide) (by omega) (by omega) hdig)

/-- An escaped character is no quote. -/
theorem escapeChar_ne_quote (c : CodePoint) (t u : Str) : escapeChar c ++ t ≠ .scalar '"' :: u := by
  intro heq
  rcases escapeChar_cases c with ⟨hc, hne, _⟩ | ⟨e, _, hc⟩ | ⟨_, hc⟩ <;>
    rw [hc, List.cons_append, List.cons.injEq] at heq
  · exact hne heq.1
  · exact absurd heq.1 (by decide)
  · exact absurd heq.1 (by decide)

theorem escape_append_inj {a b r s : Str}
    (h : escape a ++ .scalar '"' :: r = escape b ++ .scalar '"' :: s) : a = b ∧ r = s :=
  flatMap_append_inj (fun _ _ _ _ => escapeChar_append_inj) escapeChar_ne_quote h

theorem quote_append_inj {a b r s : Str} (h : quote a ++ r = quote b ++ s) :
    a = b ∧ r = s := by
  simp only [quote, List.cons_append, List.append_assoc, List.nil_append, List.cons.injEq,
    true_and] at h
  exact escape_append_inj h

/-! ### Integers are read back uniquely -/

/-- A text that cannot continue a number. -/
def EndsNumber (r : Str) : Prop := ∀ c, r.head? = some c → c.isDigit = false

theorem decimalInt_append_inj {i j : Int} {r s : Str} (hr : EndsNumber r) (hs : EndsNumber s)
    (h : decimalInt i ++ r = decimalInt j ++ s) : i = j ∧ r = s := by
  have hnat : ∀ m n : Nat, decimal m ++ r = decimal n ++ s → m = n ∧ r = s := by
    intro m n hmn
    obtain ⟨hd, hrs⟩ := digits_append_inj (fun _ => isDigit_of_mem_decimal)
      (fun _ => isDigit_of_mem_decimal) hr hs hmn
    exact ⟨decimal_injective hd, hrs⟩
  have hminus : ∀ (n : Nat) (t u : Str), decimal n ++ t ≠ .scalar '-' :: u := by
    intro n t u heq
    cases hd : decimal n with
    | nil => exact decimal_ne_nil n hd
    | cons c cs =>
      rw [hd, List.cons_append, List.cons.injEq] at heq
      have := isDigit_of_mem_decimal (n := n) (c := c) (by simp [hd])
      rw [heq.1] at this
      exact absurd this (by decide)
  cases i with
  | ofNat m =>
    cases j with
    | ofNat n =>
      obtain ⟨rfl, hrs⟩ := hnat m n h
      exact ⟨rfl, hrs⟩
    | negSucc n => exact absurd h (hminus m r _)
  | negSucc m =>
    cases j with
    | ofNat n => exact absurd h.symm (hminus n s _)
    | negSucc n =>
      simp only [decimalInt, List.cons_append, List.cons.injEq, true_and] at h
      obtain ⟨hmn, hrs⟩ := hnat (m + 1) (n + 1) h
      exact ⟨by rw [Nat.succ.inj hmn], hrs⟩

/-! ### Values are read back uniquely -/

/-- Which constructor a value has, `true` and `false` told apart. -/
def Json.shape : Json → Nat
  | .null => 0
  | .bool true => 1
  | .bool false => 2
  | .int _ => 3
  | .float _ => 4
  | .str _ => 5
  | .arr _ => 6
  | .obj _ => 7

/-- The shape of the value whose text starts with a character; `8` for the
    characters that separate or close values. -/
def shapeOfHead (c : CodePoint) : Nat :=
  if c = .scalar 'n' then 0
  else if c = .scalar 't' then 1
  else if c = .scalar 'f' then 2
  else if c = .scalar '-' ∨ c.isDigit = true then 3
  else if c = .scalar '"' then 5
  else if c = .scalar '[' then 6
  else if c = .scalar '{' then 7
  else 8

/-- The head of an encoded value tells the shapes apart. -/
theorem dumps_head {v : Json} (hv : v.Canonical) :
    ∃ c t, dumps v = c :: t ∧ shapeOfHead c = v.shape := by
  cases v with
  | null => exact ⟨_, _, rfl, by decide⟩
  | bool b => cases b <;> exact ⟨_, _, rfl, by decide⟩
  | int i =>
    cases i with
    | negSucc n => exact ⟨_, _, rfl, (by decide : shapeOfHead (.scalar '-') = 3)⟩
    | ofNat n =>
      cases hd : decimal n with
      | nil => exact absurd hd (decimal_ne_nil n)
      | cons c t =>
        have hc : c.isDigit = true := isDigit_of_mem_decimal (n := n) (by simp [hd])
        refine ⟨c, t, hd, ?_⟩
        have hne : c ≠ .scalar 'n' ∧ c ≠ .scalar 't' ∧ c ≠ .scalar 'f' := by
          refine ⟨?_, ?_, ?_⟩ <;> rintro rfl <;> exact absurd hc (by decide)
        simp [shapeOfHead, hne, hc, Json.shape]
  | float l => exact absurd hv (by simp [Json.Canonical])
  | str s =>
    exact ⟨_, _, by simp only [dumps, quote]; rfl, (by decide : shapeOfHead (.scalar '"') = 5)⟩
  | arr xs =>
    exact ⟨_, _, by simp only [dumps]; rfl, (by decide : shapeOfHead (.scalar '[') = 6)⟩
  | obj fs =>
    exact ⟨_, _, by simp only [dumps]; rfl, (by decide : shapeOfHead (.scalar '{') = 7)⟩

/-- Two values that start two equal texts have the same shape. -/
theorem shape_eq_of_append {v w : Json} (hv : v.Canonical) (hw : w.Canonical) {r s : Str}
    (h : dumps v ++ r = dumps w ++ s) : v.shape = w.shape := by
  obtain ⟨c, t, hc, hcv⟩ := dumps_head hv
  obtain ⟨d, u, hd, hdw⟩ := dumps_head hw
  rw [hc, hd, List.cons_append, List.cons_append, List.cons.injEq] at h
  rw [← hcv, ← hdw, h.1]

/-- No value starts with a separator or a closing bracket. -/
theorem dumps_append_ne {v : Json} (hv : v.Canonical) {c : CodePoint} (hc : shapeOfHead c = 8)
    (r s : Str) : dumps v ++ r ≠ c :: s := by
  intro h
  obtain ⟨d, t, hd, hdv⟩ := dumps_head hv
  rw [hd, List.cons_append, List.cons.injEq] at h
  rw [h.1, hc] at hdv
  cases v with
  | bool b => cases b <;> simp [Json.shape] at hdv
  | _ => simp [Json.shape] at hdv

theorem endsNumber_cons {c : CodePoint} {r : Str} (h : c.isDigit = false) :
    EndsNumber (c :: r) := by
  intro d hd
  simp only [List.head?_cons, Option.some.injEq] at hd
  rw [← hd, h]

/-- After a value inside a bracket comes a comma or the closing bracket. -/
theorem endsNumber_tail (parts : List Str) {close : CodePoint} (r : Str)
    (h : close.isDigit = false) :
    EndsNumber ((parts.flatMap fun y => .scalar ',' :: y) ++ close :: r) := by
  cases parts with
  | nil => exact endsNumber_cons h
  | cons p ps =>
    rw [List.flatMap_cons, List.append_assoc, List.cons_append]
    exact endsNumber_cons (by decide)

/-- Joined parts are read back one by one, given that each part is: the parts
    are told from the closing bracket by their first characters. -/
theorem joinComma_append_inj {α : Type} {render : α → Str} {close : CodePoint}
    (hcomma : close ≠ .scalar ',') (hdigit : close.isDigit = false) :
    ∀ {xs ys : List α},
      (∀ x ∈ xs, ∀ y ∈ ys, ∀ r s, EndsNumber r → EndsNumber s →
        render x ++ r = render y ++ s → x = y ∧ r = s) →
      (∀ x ∈ xs ++ ys, ∀ r s, render x ++ r ≠ close :: s) →
      ∀ {r s : Str}, joinComma (xs.map render) ++ close :: r =
        joinComma (ys.map render) ++ close :: s → xs = ys ∧ r = s := by
  -- the induction runs over the parts after the first, each behind its comma
  have tail : ∀ (xs ys : List α),
      (∀ x ∈ xs, ∀ y ∈ ys, ∀ r s, EndsNumber r → EndsNumber s →
        render x ++ r = render y ++ s → x = y ∧ r = s) →
      ∀ r s : Str, ((xs.map render).flatMap fun y => .scalar ',' :: y) ++ close :: r =
        ((ys.map render).flatMap fun y => .scalar ',' :: y) ++ close :: s → xs = ys ∧ r = s := by
    intro xs
    induction xs with
    | nil =>
      intro ys _ r s h
      cases ys with
      | nil => simpa using h
      | cons y ys =>
        simp only [List.map_nil, List.flatMap_nil, List.nil_append, List.map_cons,
          List.flatMap_cons, List.cons_append, List.cons.injEq] at h
        exact absurd h.1 hcomma
    | cons x xs ih =>
      intro ys hinj r s h
      cases ys with
      | nil =>
        simp only [List.map_nil, List.flatMap_nil, List.nil_append, List.map_cons,
          List.flatMap_cons, List.cons_append, List.cons.injEq] at h
        exact absurd h.1.symm hcomma
      | cons y ys =>
        simp only [List.map_cons, List.flatMap_cons, List.cons_append, List.append_assoc,
          List.cons.injEq, true_and] at h
        obtain ⟨hxy, hrest⟩ := hinj x (by simp) y (by simp) _ _ (endsNumber_tail _ _ hdigit)
          (endsNumber_tail _ _ hdigit) h
        obtain ⟨hxs, hrs⟩ := ih ys (fun a ha b hb => hinj a (by simp [ha]) b (by simp [hb]))
          r s hrest
        exact ⟨by rw [hxy, hxs], hrs⟩
  intro xs ys hinj hhead r s h
  cases xs with
  | nil =>
    cases ys with
    | nil => simpa [joinComma] using h
    | cons y ys =>
      simp only [joinComma, List.map_nil, List.nil_append, List.map_cons, List.append_assoc] at h
      exact absurd h.symm (hhead y (by simp) _ _)
  | cons x xs =>
    cases ys with
    | nil =>
      simp only [joinComma, List.map_nil, List.nil_append, List.map_cons, List.append_assoc] at h
      exact absurd h (hhead x (by simp) _ _)
    | cons y ys =>
      simp only [joinComma, List.map_cons, List.append_assoc] at h
      obtain ⟨hxy, hrest⟩ := hinj x (by simp) y (by simp) _ _ (endsNumber_tail _ _ hdigit)
        (endsNumber_tail _ _ hdigit) h
      obtain ⟨hxs, hrs⟩ := tail xs ys
        (fun a ha b hb => hinj a (by simp [ha]) b (by simp [hb])) r s hrest
      exact ⟨by rw [hxy, hxs], hrs⟩

theorem dumpsItems_eq_map (vs : List Json) : dumpsItems vs = vs.map dumps := by
  induction vs with
  | nil => rfl
  | cons v vs ih => simp [dumpsItems, ih]

/-- A member `"key":value` of an object. -/
def member (kv : Str × Json) : Str := field (kv.1, dumps kv.2)

theorem dumpsFields_eq_map (fs : List (Str × Json)) :
    (dumpsFields fs).map field = fs.map member := by
  induction fs with
  | nil => rfl
  | cons kv fs ih =>
    obtain ⟨k, v⟩ := kv
    simp [dumpsFields, ih, member]

theorem canonicalFields_iff {fs : List (Str × Json)} :
    CanonicalFields fs ↔ ∀ kv ∈ fs, kv.2.Canonical := by
  induction fs with
  | nil => simp [CanonicalFields]
  | cons kv fs ih =>
    obtain ⟨k, v⟩ := kv
    simp [CanonicalFields, ih]

/-- An encoded value at the start of a text determines the value and the rest. -/
def Json.ReadBack (v : Json) : Prop :=
  ∀ w : Json, v.Canonical → w.Canonical → ∀ r s : Str, EndsNumber r → EndsNumber s →
    dumps v ++ r = dumps w ++ s → v = w ∧ r = s

theorem member_append_inj {k l : Str} {v w : Json} (hv : v.Canonical) (hw : w.Canonical)
    (ih : v.ReadBack) {r s : Str} (hr : EndsNumber r) (hs : EndsNumber s)
    (h : member (k, v) ++ r = member (l, w) ++ s) : (k, v) = (l, w) ∧ r = s := by
  simp only [member, field, List.append_assoc, List.cons_append] at h
  obtain ⟨rfl, hrest⟩ := quote_append_inj h
  simp only [List.cons.injEq, true_and] at hrest
  obtain ⟨rfl, hrs⟩ := ih w hv hw r s hr hs hrest
  exact ⟨rfl, hrs⟩

theorem arr_readBack {xs : List Json} (ih : ∀ x ∈ xs, x.ReadBack) : (Json.arr xs).ReadBack := by
  intro w hv hw r s hr hs h
  have hshape := shape_eq_of_append hv hw h
  cases w with
  | arr ys =>
    simp only [Json.Canonical, canonicalItems_iff] at hv hw
    simp only [dumps, dumpsItems_eq_map, List.cons_append, List.append_assoc, List.nil_append,
      List.cons.injEq, true_and] at h
    obtain ⟨rfl, hrs⟩ := joinComma_append_inj (by decide) (by decide)
      (fun x hx y hy r s hr hs heq => ih x hx y (hv x hx) (hw y hy) r s hr hs heq)
      (fun x hx r s => dumps_append_ne
        ((List.mem_append.mp hx).elim (hv x) (hw x)) (by decide) r s) h
    exact ⟨rfl, hrs⟩
  | bool b => cases b <;> simp [Json.shape] at hshape
  | _ => simp [Json.shape] at hshape

theorem obj_readBack {fs : List (Str × Json)} (ih : ∀ kv ∈ fs, kv.2.ReadBack) :
    (Json.obj fs).ReadBack := by
  intro w hv hw r s hr hs h
  have hshape := shape_eq_of_append hv hw h
  cases w with
  | obj gs =>
    simp only [Json.Canonical, canonicalFields_iff] at hv hw
    simp only [dumps, sortKeys_dumpsFields hv.1, sortKeys_dumpsFields hw.1, dumpsFields_eq_map,
      List.cons_append, List.append_assoc, List.nil_append, List.cons.injEq, true_and] at h
    obtain ⟨rfl, hrs⟩ := joinComma_append_inj (by decide) (by decide)
      (fun x hx y hy r s hr hs heq =>
        member_append_inj (hv.2 x hx) (hw.2 y hy) (ih x hx) hr hs heq)
      (fun x _ r s heq => by simp [member, field, quote] at heq) h
    exact ⟨rfl, hrs⟩
  | bool b => cases b <;> simp [Json.shape] at hshape
  | _ => simp [Json.shape] at hshape

mutual

theorem readBack : ∀ v : Json, v.ReadBack
  | .arr xs => arr_readBack (items_readBack xs)
  | .obj fs => obj_readBack (fields_readBack fs)
  | .float _ => fun _ hv => absurd hv (by simp [Json.Canonical])
  | .int i => by
    intro w hv hw r s hr hs h
    have hshape := shape_eq_of_append hv hw h
    cases w with
    | int j =>
      simp only [dumps] at h
      obtain ⟨rfl, hrs⟩ := decimalInt_append_inj hr hs h
      exact ⟨rfl, hrs⟩
    | bool b => cases b <;> simp [Json.shape] at hshape
    | _ => simp [Json.shape] at hshape
  | .str a => by
    intro w hv hw r s hr hs h
    have hshape := shape_eq_of_append hv hw h
    cases w with
    | str b =>
      simp only [dumps] at h
      obtain ⟨rfl, hrs⟩ := quote_append_inj h
      exact ⟨rfl, hrs⟩
    | bool b => cases b <;> simp [Json.shape] at hshape
    | _ => simp [Json.shape] at hshape
  | .null => by
    intro w hv hw r s hr hs h
    have hshape := shape_eq_of_append hv hw h
    cases w with
    | null => exact ⟨rfl, List.append_cancel_left h⟩
    | bool b => cases b <;> simp [Json.shape] at hshape
    | _ => simp [Json.shape] at hshape
  | .bool a => by
    intro w hv hw r s hr hs h
    have hshape := shape_eq_of_append hv hw h
    cases w with
    | bool b =>
      have hab : a = b := by cases a <;> cases b <;> simp_all [Json.shape]
      subst hab
      exact ⟨rfl, List.append_cancel_left h⟩
    | _ => cases a <;> simp [Json.shape] at hshape

theorem items_readBack : ∀ xs : List Json, ∀ x ∈ xs, x.ReadBack
  | [], _, hx => absurd hx (by simp)
  | v :: vs, x, hx => by
    rcases List.mem_cons.mp hx with heq | hmem
    · exact heq ▸ readBack v
    · exact items_readBack vs x hmem

theorem fields_readBack : ∀ fs : List (Str × Json), ∀ kv ∈ fs, kv.2.ReadBack
  | [], _, hx => absurd hx (by simp)
  | (k, v) :: fs, x, hx => by
    rcases List.mem_cons.mp hx with rfl | hmem
    · exact readBack v
    · exact fields_readBack fs x hmem

end

/-- **The encoding is unambiguous.** -/
theorem dumps_inj {v w : Json} (hv : v.Canonical) (hw : w.Canonical)
    (h : dumps v = dumps w) : v = w :=
  (readBack v w hv hw [] [] (by simp [EndsNumber]) (by simp [EndsNumber]) (by rw [h])).1

/-! ### Encodable texts -/

mutual

/-- Every string in the value, keys included, can be encoded in UTF-8. -/
def Json.Encodable : Json → Prop
  | .float literal => Py.Encodable literal
  | .str s => Py.Encodable s
  | .arr items => EncodableItems items
  | .obj fields => EncodableFields fields
  | _ => True

def EncodableItems : List Json → Prop
  | [] => True
  | v :: vs => v.Encodable ∧ EncodableItems vs

def EncodableFields : List (Str × Json) → Prop
  | [] => True
  | (k, v) :: fs => Py.Encodable k ∧ v.Encodable ∧ EncodableFields fs

end

theorem encodable_escapeChar {c : CodePoint} : Encodable (escapeChar c) ↔ Encodable [c] := by
  rcases escapeChar_cases c with ⟨hc, _⟩ | ⟨e, he, hc⟩ | ⟨hlt, hc⟩
  · rw [hc]
  · rw [hc]
    have : ∃ d, c = .scalar d := by
      unfold shortEscape at he
      split_ifs at he <;> exact ⟨_, by assumption⟩
    simp [Encodable, this]
  · rw [hc]
    have : ∃ d, c = .scalar d := by
      cases c with
      | scalar d => exact ⟨d, rfl⟩
      | surrogate s => simp only [CodePoint.ord] at hlt; omega
    obtain ⟨d, rfl⟩ := this
    simp

@[simp] theorem encodable_quote {s : Str} : Encodable (quote s) ↔ Encodable s := by
  have hesc : Encodable (escape s) ↔ Encodable s := by
    induction s with
    | nil => simp [escape]
    | cons c s ih =>
      have hsplit : escape (c :: s) = escapeChar c ++ escape s := by simp [escape]
      have hcons : Encodable (c :: s) ↔ Encodable [c] ∧ Encodable s := by
        rw [← encodable_append]; rfl
      rw [hsplit, encodable_append, encodable_escapeChar, ih, hcons]
  simp [quote, hesc]

theorem encodable_joinComma {parts : List Str} (h : ∀ p ∈ parts, Encodable p) :
    Encodable (joinComma parts) := by
  cases parts with
  | nil => simp [joinComma]
  | cons p ps =>
    simp only [joinComma, encodable_append]
    refine ⟨h p (by simp), fun c hc => ?_⟩
    obtain ⟨q, hq, hcq⟩ := List.mem_flatMap.mp hc
    rcases List.mem_cons.mp hcq with rfl | hmem
    · exact ⟨_, rfl⟩
    · exact h q (by simp [hq]) c hmem

mutual

theorem encodable_dumps : ∀ v : Json, v.Encodable → Encodable (dumps v)
  | .null, _ => encodable_str _
  | .bool true, _ => encodable_str _
  | .bool false, _ => encodable_str _
  | .int i, _ => by simp [dumps]
  | .float _, h => by simpa [dumps, Json.Encodable] using h
  | .str s, h => by simpa [dumps, Json.Encodable] using h
  | .arr xs, h => by
    have := encodable_joinComma (encodable_dumpsItems xs (by simpa [Json.Encodable] using h))
    simpa [dumps] using this
  | .obj fs, h => by
    have hfields := encodable_dumpsFields fs (by simpa [Json.Encodable] using h)
    have : Encodable (joinComma ((sortKeys (dumpsFields fs)).map field)) := by
      apply encodable_joinComma
      intro p hp
      obtain ⟨kv, hkv, rfl⟩ := List.mem_map.mp hp
      obtain ⟨hk, hval⟩ := hfields kv ((List.mem_insertionSort _).mp hkv)
      simp [field, hk, hval]
    simpa [dumps] using this

theorem encodable_dumpsItems : ∀ vs : List Json, EncodableItems vs →
    ∀ p ∈ dumpsItems vs, Encodable p
  | [], _, _, hp => absurd hp (by simp [dumpsItems])
  | v :: vs, h, p, hp => by
    simp only [EncodableItems] at h
    rcases List.mem_cons.mp hp with rfl | hmem
    · exact encodable_dumps v h.1
    · exact encodable_dumpsItems vs h.2 p hmem

theorem encodable_dumpsFields : ∀ fs : List (Str × Json), EncodableFields fs →
    ∀ kv ∈ dumpsFields fs, Encodable kv.1 ∧ Encodable kv.2
  | [], _, _, hp => absurd hp (by simp [dumpsFields])
  | (k, v) :: fs, h, kv, hp => by
    simp only [EncodableFields] at h
    rcases List.mem_cons.mp hp with rfl | hmem
    · exact ⟨h.1, encodable_dumps v h.2.1⟩
    · exact encodable_dumpsFields fs h.2.2 kv hmem

end

theorem encodable_of_joinComma {parts : List Str} (h : Encodable (joinComma parts)) :
    ∀ p ∈ parts, Encodable p := by
  cases parts with
  | nil => exact fun p hp => absurd hp List.not_mem_nil
  | cons q parts =>
    obtain ⟨hfirst, hrest⟩ := encodable_append.mp h
    intro p hp
    rcases List.mem_cons.mp hp with rfl | hmem
    · exact hfirst
    · exact fun c hc => hrest c (List.mem_flatMap.mpr ⟨p, hmem, List.mem_cons_of_mem _ hc⟩)

mutual

/-- What is written can be encoded only when every string of the value can. -/
theorem encodable_of_dumps : ∀ v : Json, Encodable (dumps v) → v.Encodable
  | .null, _ => trivial
  | .bool _, _ => trivial
  | .int _, _ => trivial
  | .float _, h => by simpa [dumps, Json.Encodable] using h
  | .str s, h => by simpa [dumps, Json.Encodable] using h
  | .arr xs, h => by
    have hitems : Encodable (joinComma (dumpsItems xs)) := by simpa [dumps] using h
    exact encodable_of_dumpsItems xs (encodable_of_joinComma hitems)
  | .obj fs, h => by
    have hfields : Encodable (joinComma ((sortKeys (dumpsFields fs)).map field)) := by
      simpa [dumps] using h
    refine encodable_of_dumpsFields fs fun kv hkv => ?_
    have hfield : Encodable (field kv) := by
      apply encodable_of_joinComma hfields
      exact List.mem_map_of_mem ((List.mem_insertionSort _).mpr hkv)
    simpa [field] using hfield

theorem encodable_of_dumpsItems : ∀ vs : List Json, (∀ p ∈ dumpsItems vs, Encodable p) →
    EncodableItems vs
  | [], _ => trivial
  | v :: vs, h =>
    ⟨encodable_of_dumps v (h _ List.mem_cons_self),
      encodable_of_dumpsItems vs fun p hp => h p (List.mem_cons_of_mem _ hp)⟩

theorem encodable_of_dumpsFields : ∀ fs : List (Str × Json),
    (∀ kv ∈ dumpsFields fs, Encodable kv.1 ∧ Encodable kv.2) → EncodableFields fs
  | [], _ => trivial
  | (k, v) :: fs, h =>
    ⟨(h (k, dumps v) List.mem_cons_self).1, encodable_of_dumps v (h (k, dumps v) List.mem_cons_self).2,
      encodable_of_dumpsFields fs fun kv hkv => h kv (List.mem_cons_of_mem _ hkv)⟩

end

/-! ### Integers the encoder refuses -/

mutual

/-- No integer in the value has more digits than the interpreter converts. -/
def Json.printable : Json → Bool
  | .int i => printableInt i
  | .arr items => printableItems items
  | .obj fields => printableFields fields
  | _ => true

def printableItems : List Json → Bool
  | [] => true
  | v :: vs => v.printable && printableItems vs

def printableFields : List (Str × Json) → Bool
  | [] => true
  | (_, v) :: fs => v.printable && printableFields fs

end

/-- `json.dumps` with its exception: `none` is the `ValueError` of an integer
    with too many digits. -/
def jsonDumps (v : Json) : Option Str := if v.printable then some (dumps v) else none

theorem jsonDumps_eq_some {v : Json} {s : Str} :
    jsonDumps v = some s ↔ v.printable = true ∧ dumps v = s := by
  unfold jsonDumps
  split <;> simp_all

theorem printableItems_iff {vs : List Json} :
    printableItems vs = true ↔ ∀ v ∈ vs, v.printable = true := by
  induction vs with
  | nil => simp [printableItems]
  | cons v vs ih => simp [printableItems, ih]

theorem printableFields_iff {fs : List (Str × Json)} :
    printableFields fs = true ↔ ∀ kv ∈ fs, kv.2.printable = true := by
  induction fs with
  | nil => simp [printableFields]
  | cons kv fs ih =>
    obtain ⟨k, v⟩ := kv
    simp [printableFields, ih]

theorem encodableItems_iff {vs : List Json} : EncodableItems vs ↔ ∀ v ∈ vs, v.Encodable := by
  induction vs with
  | nil => simp [EncodableItems]
  | cons v vs ih => simp [EncodableItems, ih]

theorem encodableFields_iff {fs : List (Str × Json)} :
    EncodableFields fs ↔ ∀ kv ∈ fs, Py.Encodable kv.1 ∧ kv.2.Encodable := by
  induction fs with
  | nil => simp [EncodableFields]
  | cons kv fs ih =>
    obtain ⟨k, v⟩ := kv
    simp [EncodableFields, ih, and_assoc]

/-! ### Building payloads -/

/-- A value or `None`. -/
def jsonOption {α : Type} (payload : α → Json) : Option α → Json
  | none => .null
  | some a => payload a

/-- A dict display with literal keys. -/
def jsonObj (fields : List (String × Json)) : Json := .obj (fields.map fun kv => (str kv.1, kv.2))

@[simp] theorem canonical_bool (b : Bool) : (Json.bool b).Canonical := trivial
@[simp] theorem canonical_int (i : Int) : (Json.int i).Canonical := trivial
@[simp] theorem canonical_str (s : Str) : (Json.str s).Canonical := trivial
@[simp] theorem canonical_arr {vs : List Json} :
    (Json.arr vs).Canonical ↔ ∀ v ∈ vs, v.Canonical := canonicalItems_iff

@[simp] theorem encodable_bool (b : Bool) : (Json.bool b).Encodable := trivial
@[simp] theorem encodable_int (i : Int) : (Json.int i).Encodable := trivial
@[simp] theorem encodable_string {s : Str} : (Json.str s).Encodable ↔ Py.Encodable s := Iff.rfl
@[simp] theorem encodable_arr {vs : List Json} :
    (Json.arr vs).Encodable ↔ ∀ v ∈ vs, v.Encodable := encodableItems_iff

@[simp] theorem printable_bool (b : Bool) : (Json.bool b).printable = true := rfl
@[simp] theorem printable_int (i : Int) : (Json.int i).printable = printableInt i := rfl
@[simp] theorem printable_str (s : Str) : (Json.str s).printable = true := rfl
@[simp] theorem printable_arr {vs : List Json} :
    (Json.arr vs).printable = true ↔ ∀ v ∈ vs, v.printable = true := printableItems_iff

section building
variable {α : Type} {payload : α → Json}

theorem jsonOption_inj {a b : Option α} (hnull : ∀ a, payload a ≠ .null)
    (hinj : ∀ x y, a = some x → b = some y → payload x = payload y → x = y)
    (h : jsonOption payload a = jsonOption payload b) : a = b := by
  match a, b with
  | none, none => rfl
  | none, some y => exact absurd h.symm (hnull y)
  | some x, none => exact absurd h (hnull x)
  | some x, some y => rw [hinj x y rfl rfl h]

theorem canonical_jsonOption {a : Option α} (h : ∀ x, a = some x → (payload x).Canonical) :
    (jsonOption payload a).Canonical := by
  cases a with
  | none => trivial
  | some x => exact h x rfl

theorem encodable_jsonOption {a : Option α} (h : ∀ x, a = some x → (payload x).Encodable) :
    (jsonOption payload a).Encodable := by
  cases a with
  | none => trivial
  | some x => exact h x rfl

theorem printable_jsonOption {a : Option α} (h : ∀ x, a = some x → (payload x).printable = true) :
    (jsonOption payload a).printable = true := by
  cases a with
  | none => rfl
  | some x => exact h x rfl

theorem canonical_jsonObj {fields : List (String × Json)}
    (hkeys : (fields.map fun kv => str kv.1).Pairwise (· < ·))
    (h : ∀ kv ∈ fields, kv.2.Canonical) : (jsonObj fields).Canonical := by
  refine ⟨by simpa [Function.comp_def] using hkeys, canonicalFields_iff.mpr fun kv hkv => ?_⟩
  obtain ⟨f, hf, rfl⟩ := List.mem_map.mp hkv
  exact h f hf

theorem encodable_jsonObj {fields : List (String × Json)} (h : ∀ kv ∈ fields, kv.2.Encodable) :
    (jsonObj fields).Encodable := by
  refine encodableFields_iff.mpr fun kv hkv => ?_
  obtain ⟨f, hf, rfl⟩ := List.mem_map.mp hkv
  exact ⟨encodable_str _, h f hf⟩

/-- The members of an object whose strings can be encoded. -/
theorem encodable_member {fields : List (String × Json)} (h : (jsonObj fields).Encodable) :
    ∀ kv ∈ fields, kv.2.Encodable :=
  fun _ hkv => (encodableFields_iff.mp h _ (List.mem_map_of_mem hkv)).2

theorem printable_jsonObj {fields : List (String × Json)}
    (h : ∀ kv ∈ fields, kv.2.printable = true) : (jsonObj fields).printable = true := by
  refine printableFields_iff.mpr fun kv hkv => ?_
  obtain ⟨f, hf, rfl⟩ := List.mem_map.mp hkv
  exact h f hf

end building

end Py
