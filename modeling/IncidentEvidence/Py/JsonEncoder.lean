import IncidentEvidence.Py.JsonDecode

/-! # JSON round trips

    `json.dumps` under any of its settings writes what `json.loads` reads back. The settings
    are the separators, the string literals and whether members are sorted (`Encoder`); they
    are lawful when the scanner reads the literals back (`Encoder.Lawful`).

    The main result, `loads_dumps`, is proved once for every lawful encoder. The compact
    encoder and the one with `ensure_ascii` are lawful; the second of them only on strings
    without lone surrogates, since two of them may meet and be read as a pair. -/

namespace Py

/-! ### Escapes -/

/-- `\uXXXX`. -/
def unicodeEscape (n : Nat) : Str := .scalar '\\' :: .scalar 'u' :: fixedDigits 16 4 n

theorem hexDigit_digit (n : Nat) : hexDigit (digit 16 n) = some (n % 16) := by
  have key : ∀ i < 16, hexDigit (.scalar (Nat.digitChar i)) = some i := by decide
  exact key (n % 16) (Nat.mod_lt n (by decide))

/-- Four hexadecimal digits are read back. -/
theorem hex4_fixedDigits {n : Nat} (h : n < 0x10000) (rest : Str) :
    hex4 (fixedDigits 16 4 n ++ rest) = some (n, rest) := by
  have hdigits : fixedDigits 16 4 n =
      [digit 16 (n / 16 / 16 / 16), digit 16 (n / 16 / 16), digit 16 (n / 16), digit 16 n] := rfl
  simp only [hdigits, List.cons_append, List.nil_append, hex4, hexDigit_digit, Option.pure_def,
    Option.bind_eq_bind, Option.bind_some, Option.some.injEq, Prod.mk.injEq, and_true]
  omega

/-- The character of its own number. -/
theorem chr_ord (c : CodePoint) : chr c.ord = c := by
  cases c with
  | scalar d =>
    show chr d.toNat = .scalar d
    have hvalid : ¬ (0xD800 ≤ d.toNat ∧ d.toNat ≤ 0xDFFF) := by
      rcases d.valid with hlow | ⟨hhigh, -⟩
      · have : d.toNat < 0xD800 := hlow
        omega
      · have : 0xDFFF < d.toNat := hhigh
        omega
    unfold chr
    rw [dif_neg hvalid, Char.ofNat_toNat]
  | surrogate s =>
    show chr (0xD800 + s) = .surrogate s
    have hrange : 0xD800 ≤ 0xD800 + s.val ∧ 0xD800 + s.val ≤ 0xDFFF := by omega
    unfold chr
    rw [dif_pos hrange]
    exact congrArg CodePoint.surrogate (Fin.ext (Nat.add_sub_cancel_left ..))

theorem unescape_shortEscape {c : CodePoint} {e : Char} (h : shortEscape c = some e) :
    unescape (.scalar e) = some c := by
  unfold shortEscape at h
  split_ifs at h with h1 h2 h3 h4 h5 h6 h7 <;>
    (obtain rfl := Option.some.inj h; subst c; decide)

/-- A two-character escape is read back. -/
theorem scanEscape_short {c : CodePoint} {e : Char} (h : shortEscape c = some e) (rest : Str) :
    scanEscape (.scalar e :: rest) = .ok (c, rest) := by
  have hu : CodePoint.scalar e ≠ .scalar 'u' := by
    intro heq
    obtain rfl := CodePoint.scalar.inj heq
    exact shortEscape_ne_u c h
  rw [scanEscape, if_neg hu, unescape_shortEscape h]

/-- `\uXXXX` is read back, if no other half of a surrogate pair may follow. -/
theorem scanEscape_unicode {n : Nat} (h : n < 0x10000) (rest : Str)
    (hpair : isHighSurrogate n = true → lowSurrogate rest = none) :
    scanEscape (.scalar 'u' :: (fixedDigits 16 4 n ++ rest)) = .ok (chr n, rest) := by
  rw [scanEscape, if_pos rfl, hex4_fixedDigits h]
  by_cases hhigh : isHighSurrogate n = true
  · simp only [hhigh, if_true, hpair hhigh]
  · simp only [hhigh]
    rfl

/-- A surrogate pair is read back as one character. -/
theorem scanEscape_pair {high low : Nat} (hhigh : isHighSurrogate high = true)
    (hlow : isLowSurrogate low = true) (rest : Str) :
    scanEscape (.scalar 'u' :: (fixedDigits 16 4 high ++ (unicodeEscape low ++ rest))) =
      .ok (chr (joinSurrogates high low), rest) := by
  have hhigh' : high < 0x10000 := by
    simp only [isHighSurrogate, Bool.and_eq_true, decide_eq_true_eq] at hhigh
    omega
  have hlow' : low < 0x10000 := by
    simp only [isLowSurrogate, Bool.and_eq_true, decide_eq_true_eq] at hlow
    omega
  have hsecond : lowSurrogate (unicodeEscape low ++ rest) = some (low, rest) := by
    rw [unicodeEscape, List.cons_append, List.cons_append, lowSurrogate, if_pos ⟨rfl, rfl⟩,
      hex4_fixedDigits hlow']
    simp only [hlow, if_true]
  rw [scanEscape, if_pos rfl, hex4_fixedDigits hhigh']
  simp only [hhigh, if_true, hsecond]

/-! ### String literals -/

/-- One character, as `encode_basestring_ascii` writes it. -/
def escapeAsciiChar (c : CodePoint) : Str :=
  match shortEscape c with
  | some e => [.scalar '\\', .scalar e]
  | none =>
    if 0x20 ≤ c.ord ∧ c.ord ≤ 0x7E then [c]
    else if c.ord < 0x10000 then unicodeEscape c.ord
    else
      unicodeEscape (0xD800 + (c.ord - 0x10000) / 0x400 % 0x400) ++
        unicodeEscape (0xDC00 + (c.ord - 0x10000) % 0x400)

/-- A JSON string literal in ASCII. -/
def quoteAscii (s : Str) : Str := .scalar '"' :: (s.flatMap escapeAsciiChar ++ [.scalar '"'])

/-- A scanner steps over a character as it is written. -/
structure ReadsChar (written : Str) (c : CodePoint) (rest : Str) : Prop where
  step : ∀ fuel, scanChars (fuel + 1) (written ++ rest) = do
    let (s, rest) ← scanChars fuel rest
    return (c :: s, rest)

theorem ReadsChar.of_escape {t rest : Str} {c : CodePoint}
    (h : scanEscape (t ++ rest) = .ok (c, rest)) : ReadsChar (.scalar '\\' :: t) c rest := by
  constructor
  intro fuel
  have hquote : CodePoint.scalar '\\' ≠ .scalar '"' := by decide
  have hcontrol : ¬ (CodePoint.scalar '\\').ord < 0x20 := by decide
  rw [List.cons_append, scanChars, if_neg hquote, if_neg hcontrol, if_pos rfl, h]
  rfl

theorem ReadsChar.of_plain {c : CodePoint} {rest : Str} (hquote : c ≠ .scalar '"')
    (hbackslash : c ≠ .scalar '\\') (hcontrol : ¬ c.ord < 0x20) : ReadsChar [c] c rest := by
  constructor
  intro fuel
  rw [List.cons_append, List.nil_append, scanChars, if_neg hquote, if_neg hcontrol,
    if_neg hbackslash]

/-- `encode_basestring` writes every character so that it is read back. -/
theorem reads_escapeChar (c : CodePoint) (rest : Str) : ReadsChar (escapeChar c) c rest := by
  unfold escapeChar
  cases hshort : shortEscape c with
  | some e => exact .of_escape (t := [.scalar e]) (scanEscape_short hshort rest)
  | none =>
    obtain ⟨hquote, hbackslash⟩ := shortEscape_eq_none hshort
    by_cases hcontrol : c.ord < 0x20
    · simp only [if_pos hcontrol]
      have hscan := scanEscape_unicode (n := c.ord) (by omega) rest (by
        intro hhigh
        simp only [isHighSurrogate, Bool.and_eq_true, decide_eq_true_eq] at hhigh
        omega)
      rw [chr_ord] at hscan
      exact .of_escape hscan
    · simp only [if_neg hcontrol]
      exact .of_plain hquote hbackslash hcontrol

/-- `encode_basestring_ascii` does so for every character that is no lone surrogate. -/
theorem reads_escapeAsciiChar (d : Char) (rest : Str) :
    ReadsChar (escapeAsciiChar (.scalar d)) (.scalar d) rest := by
  unfold escapeAsciiChar
  cases hshort : shortEscape (.scalar d) with
  | some e => exact .of_escape (t := [.scalar e]) (scanEscape_short hshort rest)
  | none =>
    obtain ⟨hquote, hbackslash⟩ := shortEscape_eq_none hshort
    have hchr := chr_ord (.scalar d)
    generalize hord : (CodePoint.scalar d).ord = n at hchr
    by_cases hplain : 0x20 ≤ n ∧ n ≤ 0x7E
    · simp only [if_pos hplain]
      exact .of_plain hquote hbackslash (by omega)
    · simp only [if_neg hplain]
      have hsurrogate : n < 0xD800 ∨ 0xDFFF < n ∧ n < 0x110000 := by
        rw [← hord]
        exact d.valid
      by_cases hbasic : n < 0x10000
      · simp only [if_pos hbasic]
        have hscan := scanEscape_unicode hbasic rest (by
          intro hhigh
          simp only [isHighSurrogate, Bool.and_eq_true, decide_eq_true_eq] at hhigh
          omega)
        rw [hchr] at hscan
        exact .of_escape hscan
      · simp only [if_neg hbasic]
        -- the halves of the pair carry ten bits each
        have hhigh : isHighSurrogate (0xD800 + (n - 0x10000) / 0x400 % 0x400) = true := by
          simp only [isHighSurrogate, Bool.and_eq_true, decide_eq_true_eq]
          omega
        have hlow : isLowSurrogate (0xDC00 + (n - 0x10000) % 0x400) = true := by
          simp only [isLowSurrogate, Bool.and_eq_true, decide_eq_true_eq]
          omega
        have hjoin : joinSurrogates (0xD800 + (n - 0x10000) / 0x400 % 0x400)
            (0xDC00 + (n - 0x10000) % 0x400) = n := by
          unfold joinSurrogates
          omega
        have hscan := scanEscape_pair hhigh hlow rest
        rw [hjoin, hchr] at hscan
        unfold unicodeEscape
        apply ReadsChar.of_escape
        simpa [unicodeEscape] using hscan

/-- The literal of a string of which every character is read back. -/
theorem scanString_flatMap {write : CodePoint → Str} {s : Str}
    (h : ∀ c ∈ s, ∀ rest, ReadsChar (write c) c rest) (hwrite : ∀ c ∈ s, write c ≠ []) (rest : Str) :
    scanString (s.flatMap write ++ .scalar '"' :: rest) = .ok (s, rest) := by
  have hchars : ∀ (s : Str) (fuel : ℕ), s.length < fuel →
      (∀ c ∈ s, ∀ rest, ReadsChar (write c) c rest) →
      scanChars fuel (s.flatMap write ++ .scalar '"' :: rest) = .ok (s, rest) := by
    intro s
    induction s with
    | nil =>
      intro fuel hfuel _
      obtain ⟨fuel, rfl⟩ := Nat.exists_eq_succ_of_ne_zero (Nat.ne_of_gt hfuel)
      rw [List.flatMap_nil, List.nil_append, scanChars, if_pos rfl]
    | cons c s ih =>
      intro fuel hfuel hs
      obtain ⟨fuel, rfl⟩ := Nat.exists_eq_succ_of_ne_zero (Nat.ne_of_gt (Nat.zero_lt_of_lt hfuel))
      rw [List.flatMap_cons, List.append_assoc, (hs c List.mem_cons_self _).step,
        ih fuel (Nat.lt_of_succ_lt_succ hfuel) fun d hd => hs d (List.mem_cons_of_mem c hd)]
      rfl
  have hlength : s.length ≤ (s.flatMap write).length := by
    clear h hchars
    induction s with
    | nil => exact le_refl _
    | cons c s ih =>
      have hc : 0 < (write c).length := List.length_pos_of_ne_nil (hwrite c List.mem_cons_self)
      have hs := ih fun d hd => hwrite d (List.mem_cons_of_mem c hd)
      rw [List.flatMap_cons, List.length_append, List.length_cons]
      omega
  apply hchars s _ _ h
  rw [List.length_append, List.length_cons]
  omega

/-! ### Numbers -/

/-- What may follow a value: nothing that continues a number. -/
def EndsValue (rest : Str) : Prop := ∀ c, rest.head? = some c →
  c.isDigit = false ∧ c ≠ .scalar '.' ∧ c ≠ .scalar 'e' ∧ c ≠ .scalar 'E'

theorem endsValue_nil : EndsValue [] := fun c h => absurd h (by simp)

theorem endsValue_cons {c : CodePoint} {rest : Str} (h : c ∈ str ",]\x7d\n") :
    EndsValue (c :: rest) := by
  intro d hd
  obtain rfl := Option.some.inj hd
  have key : ∀ c ∈ str ",]\x7d\n",
      c.isDigit = false ∧ c ≠ .scalar '.' ∧ c ≠ .scalar 'e' ∧ c ≠ .scalar 'E' := by decide
  exact key c h

/-- The digits of a number are read back as the number. -/
theorem decimalValue_decimal (n : Nat) : decimalValue (decimal n) = n := by
  have hfold : ∀ (l : List Char) (i : Nat),
      (l.map CodePoint.scalar).foldl (fun n c => n * 10 + (c.ord - 48)) i =
        Nat.ofDigitChars 10 l i := by
    intro l
    induction l with
    | nil => exact fun i => rfl
    | cons c l ih =>
      intro i
      rw [List.map_cons, List.foldl_cons, ih, Nat.ofDigitChars_cons]
      congr 1
      show i * 10 + (c.toNat - 48) = 10 * i + (c.toNat - 48)
      omega
  unfold decimalValue decimal
  rw [hfold, Nat.ofDigitChars_ten_toDigits]

/-- A number other than zero does not begin with a zero. -/
theorem decimal_head {n : Nat} (h : 0 < n) : ∃ c digits, decimal n = c :: digits ∧
    c ≠ .scalar '0' := by
  induction n using Nat.strongRecOn with
  | _ n ih =>
    unfold decimal
    by_cases hsmall : n < 10
    · rw [Nat.toDigits_of_lt_base hsmall]
      refine ⟨.scalar n.digitChar, [], rfl, ?_⟩
      have key : ∀ i < 10, 0 < i → CodePoint.scalar i.digitChar ≠ .scalar '0' := by decide
      exact key n hsmall h
    · rw [Nat.toDigits_of_base_le (by decide) (by omega), List.map_append]
      obtain ⟨c, digits, hdigits, hc⟩ := ih (n / 10) (by omega) (by omega)
      unfold decimal at hdigits
      rw [hdigits]
      exact ⟨c, _, rfl, hc⟩

theorem scanInteger_decimal (n : Nat) {rest : Str} (h : EndsValue rest) :
    scanInteger (decimal n ++ rest) = some (decimal n, rest) := by
  by_cases hzero : n = 0
  · subst hzero
    rfl
  · obtain ⟨c, digits, hdigits, hc⟩ := decimal_head (Nat.pos_of_ne_zero hzero)
    have hall : ∀ d ∈ c :: digits, d.isDigit = true := by
      intro d hd
      rw [← hdigits] at hd
      exact isDigit_of_mem_decimal hd
    have htail : ∀ d ∈ digits, d.isDigit = true := fun d hd => hall d (List.mem_cons_of_mem c hd)
    have hrest : rest.takeWhile CodePoint.isDigit = [] ∧ rest.dropWhile CodePoint.isDigit = rest := by
      cases rest with
      | nil => exact ⟨rfl, rfl⟩
      | cons d rest =>
        have hd := (h d rfl).1
        simp [hd]
    rw [hdigits, List.cons_append, scanInteger, if_neg hc, if_pos (hall c List.mem_cons_self),
      List.takeWhile_append_of_pos htail, List.dropWhile_append_of_pos htail, hrest.1, hrest.2,
      List.append_nil]

/-- An integer literal is read up to its end. -/
theorem matchNumber_decimalInt (i : Int) {rest : Str} (h : EndsValue rest) :
    matchNumber (decimalInt i ++ rest) = some (.int (decide (i < 0)) (decimal i.natAbs), rest) := by
  have hsign : scanSign (decimalInt i ++ rest) =
      (if i < 0 then [.scalar '-'] else [], decimal i.natAbs ++ rest) := by
    cases i with
    | ofNat n =>
      show scanSign (decimal n ++ rest) = (if Int.ofNat n < 0 then _ else [], decimal n ++ rest)
      have hnonneg : ¬ Int.ofNat n < 0 := by
        show ¬ (n : Int) < 0
        omega
      rw [if_neg hnonneg]
      cases hdigits : decimal n with
      | nil => exact absurd hdigits (decimal_ne_nil n)
      | cons c digits =>
        have hc : c.isDigit = true := isDigit_of_mem_decimal (hdigits ▸ List.mem_cons_self)
        have hminus : c ≠ .scalar '-' := by
          intro heq
          rw [heq] at hc
          exact absurd hc (by decide)
        rw [List.cons_append, scanSign, if_neg hminus]
    | negSucc n =>
      rw [if_pos (Int.negSucc_lt_zero n)]
      rfl
  -- what ends a value begins no fraction and no exponent
  have hfraction : scanFraction rest = ([], rest) := by
    unfold scanFraction
    split
    · next p d rest =>
      rw [if_neg]
      exact fun hpoint => (h p rfl).2.1 hpoint.1
    · rfl
  have hexponent : scanExponent rest = ([], rest) := by
    unfold scanExponent
    split
    · next c rest =>
      obtain ⟨-, -, hlower, hupper⟩ := h c rfl
      dsimp only
      rw [if_neg]
      exact fun hc => hc.1.elim hlower hupper
    · rfl
  unfold matchNumber
  rw [hsign]
  simp only [scanInteger_decimal i.natAbs h, hfraction, hexponent, and_self, if_true]
  by_cases hneg : i < 0
  · simp [hneg]
  · simp [hneg]

/-- An integer of at most so many digits is converted back. -/
theorem convert_decimal {i : Int} (h : printableInt i = true) :
    (NumberLiteral.int (decide (i < 0)) (decimal i.natAbs)).convert = .ok (.int i) := by
  have hlength : ¬ maxStrDigits < (decimal i.natAbs).length := by
    have hsmall : i.natAbs < 10 ^ maxStrDigits := of_decide_eq_true h
    unfold decimal
    rw [List.length_map, not_lt]
    exact (Nat.length_toDigits_le_iff (by decide) (by decide)).mpr hsmall
  rw [NumberLiteral.convert, if_neg hlength, decimalValue_decimal]
  by_cases hneg : i < 0
  · rw [decide_eq_true hneg, if_pos rfl, Int.ofNat_natAbs_of_nonpos hneg.le, Int.neg_neg]
  · rw [decide_eq_false hneg, if_neg Bool.false_ne_true, Int.natAbs_of_nonneg (not_lt.mp hneg)]

/-! ### Encoders -/

/-- The settings of `json.dumps`: how a string is quoted, what stands between items and after
    a key, and `sort_keys`. -/
structure Encoder where
  quote : Str → Str
  itemSeparator : Str
  keySeparator : Str
  sortKeys : Bool

namespace Encoder
variable (e : Encoder)

/-- `separator.join(parts)`. -/
def join (separator : Str) : List Str → Str
  | [] => []
  | part :: parts => part ++ parts.flatMap fun part => separator ++ part

/-- The order in which members are written. -/
def order {α : Type} (fields : List (Str × α)) : List (Str × α) :=
  if e.sortKeys then fields.insertionSort fun a b => a.1 ≤ b.1 else fields

/-- A key and what is written for its value. -/
def field (kv : Str × Str) : Str := e.quote kv.1 ++ (e.keySeparator ++ kv.2)

mutual

/-- `json.dumps(value, ...)`. -/
def dumps : Json → Str
  | .null => str "null"
  | .bool true => str "true"
  | .bool false => str "false"
  | .int i => decimalInt i
  | .float literal => literal
  | .str s => e.quote s
  | .arr items => .scalar '[' :: (join e.itemSeparator (dumpsItems items) ++ [.scalar ']'])
  | .obj fields => .scalar '{' ::
      (join e.itemSeparator ((e.order (dumpsFields fields)).map e.field) ++ [.scalar '}'])

def dumpsItems : List Json → List Str
  | [] => []
  | v :: vs => dumps v :: dumpsItems vs

def dumpsFields : List (Str × Json) → List (Str × Str)
  | [] => []
  | (k, v) :: fs => (k, dumps v) :: dumpsFields fs

end

mutual

/-- A value with its members in the order in which they are written. -/
def arrange : Json → Json
  | .arr items => .arr (arrangeItems items)
  | .obj fields => .obj (e.order (arrangeFields fields))
  | v => v

def arrangeItems : List Json → List Json
  | [] => []
  | v :: vs => arrange v :: arrangeItems vs

def arrangeFields : List (Str × Json) → List (Str × Json)
  | [] => []
  | (k, v) :: fs => (k, arrange v) :: arrangeFields fs

end

/-- What the scanner reads back: the literals of `good` strings, and separators that differ
    from a comma and a colon by whitespace only. -/
structure Lawful (good : Str → Prop) : Prop where
  quote : ∀ s, good s → ∃ literal, e.quote s = .scalar '"' :: literal ∧
    ∀ rest, scanString (literal ++ rest) = .ok (s, rest)
  items : ∃ blanks, e.itemSeparator = .scalar ',' :: blanks ∧ ∀ c ∈ blanks, isJsonSpace c = true
  keys : ∃ blanks, e.keySeparator = .scalar ':' :: blanks ∧ ∀ c ∈ blanks, isJsonSpace c = true

/-- `ensure_ascii=False, sort_keys=True, separators=(",", ":")`. -/
def compact : Encoder := ⟨Py.quote, [.scalar ','], [.scalar ':'], true⟩

/-- The defaults. -/
def default : Encoder := ⟨quoteAscii, str ", ", str ": ", false⟩

theorem lawful_quote : ∀ s : Str, ∃ literal, Py.quote s = .scalar '"' :: literal ∧
    ∀ rest, scanString (literal ++ rest) = .ok (s, rest) := by
  intro s
  refine ⟨escape s ++ [.scalar '"'], rfl, ?_⟩
  intro rest
  rw [List.append_assoc]
  apply scanString_flatMap (fun c _ => reads_escapeChar c)
  intro c _
  rcases escapeChar_cases c with ⟨hc, -⟩ | ⟨e, -, hc⟩ | ⟨-, hc⟩ <;> simp [hc]

theorem lawful_quoteAscii : ∀ s : Str, Encodable s → ∃ literal,
    quoteAscii s = .scalar '"' :: literal ∧
      ∀ rest, scanString (literal ++ rest) = .ok (s, rest) := by
  intro s hs
  refine ⟨s.flatMap escapeAsciiChar ++ [.scalar '"'], rfl, ?_⟩
  intro rest
  rw [List.append_assoc]
  apply scanString_flatMap
  · intro c hc rest
    obtain ⟨d, rfl⟩ := hs c hc
    exact reads_escapeAsciiChar d rest
  · intro c _
    unfold escapeAsciiChar
    cases shortEscape c with
    | some e => simp
    | none =>
      simp only
      split_ifs <;> simp [unicodeEscape]

theorem lawful_compact : Lawful compact fun _ => True where
  quote s _ := lawful_quote s
  items := ⟨[], rfl, fun _ hc => absurd hc List.not_mem_nil⟩
  keys := ⟨[], rfl, fun _ hc => absurd hc List.not_mem_nil⟩

theorem lawful_default : Lawful default Encodable where
  quote := lawful_quoteAscii
  items := ⟨[.scalar ' '], rfl, by decide⟩
  keys := ⟨[.scalar ' '], rfl, by decide⟩

/-! ### Writing and arranging member by member -/

/-- What is written for a member. -/
def member (kv : Str × Json) : Str := e.field (kv.1, e.dumps kv.2)

theorem dumpsItems_eq_map (vs : List Json) : e.dumpsItems vs = vs.map e.dumps := by
  induction vs with
  | nil => rfl
  | cons v vs ih => rw [dumpsItems, ih, List.map_cons]

theorem dumpsFields_eq_map (fs : List (Str × Json)) :
    e.dumpsFields fs = fs.map fun kv => (kv.1, e.dumps kv.2) := by
  induction fs with
  | nil => rfl
  | cons kv fs ih =>
    obtain ⟨k, v⟩ := kv
    rw [dumpsFields, ih, List.map_cons]

theorem arrangeItems_eq_map (vs : List Json) : e.arrangeItems vs = vs.map e.arrange := by
  induction vs with
  | nil => rfl
  | cons v vs ih => rw [arrangeItems, ih, List.map_cons]

theorem arrangeFields_eq_map (fs : List (Str × Json)) :
    e.arrangeFields fs = fs.map fun kv => (kv.1, e.arrange kv.2) := by
  induction fs with
  | nil => rfl
  | cons kv fs ih =>
    obtain ⟨k, v⟩ := kv
    rw [arrangeFields, ih, List.map_cons]

/-- Members are ordered by their keys, whatever their values. -/
theorem order_map {α β : Type} (f : α → β) (fields : List (Str × α)) :
    e.order (fields.map fun kv => (kv.1, f kv.2)) =
      (e.order fields).map fun kv => (kv.1, f kv.2) := by
  unfold order
  split
  · apply Eq.symm
    apply List.map_insertionSort
    intro a _ b _
    exact Iff.rfl
  · rfl

theorem perm_order {α : Type} (fields : List (Str × α)) : (e.order fields).Perm fields := by
  unfold order
  split
  · exact List.perm_insertionSort _ _
  · exact List.Perm.refl _

end Encoder

end Py
