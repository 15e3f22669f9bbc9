import Mathlib

/-! # Python strings

    A Python `str` is a sequence of code points, and unlike a Lean `String` it
    may hold lone surrogates (U+D800 to U+DFFF). They matter here: such a string
    compares, hashes and strips like any other, but `str.encode("utf-8")`
    rejects it.

    The file gives code points and their order, the whitespace predicate behind
    `str.strip`, UTF-8 encoding, `str.partition`, `str.replace` and decimal
    rendering, with the facts that make rendered text uniquely readable: fixed-width
    numbers (`fixedDigits_inj`) and code words (`flatMap_append_inj`).
-/

namespace Py

/-! ### Code points -/

/-- One code point of a `str`: a Unicode scalar value or a lone surrogate. -/
inductive CodePoint where
  | scalar (c : Char)
  | surrogate (s : Fin 2048)
  deriving DecidableEq, Repr

/-- The number `ord` gives. -/
def CodePoint.ord : CodePoint → Nat
  | .scalar c => c.toNat
  | .surrogate s => 0xD800 + s

/-- A scalar value is never in the surrogate range. -/
theorem CodePoint.scalar_ne_surrogate (c : Char) (s : Fin 2048) :
    c.toNat ≠ 0xD800 + s := by
  have hs := s.isLt
  rcases c.valid with h | ⟨h, _⟩
  · have : c.toNat < 0xD800 := h
    omega
  · have : 0xDFFF < c.toNat := h
    omega

theorem CodePoint.ord_injective : Function.Injective CodePoint.ord := by
  intro a b h
  cases a with
  | scalar c =>
    cases b with
    | scalar d => exact congrArg _ (Char.toNat_inj.mp h)
    | surrogate t => exact absurd h (CodePoint.scalar_ne_surrogate c t)
  | surrogate s =>
    cases b with
    | scalar d => exact absurd h.symm (CodePoint.scalar_ne_surrogate d s)
    | surrogate t =>
      simp only [CodePoint.ord] at h
      exact congrArg _ (Fin.ext (by omega))

/-- Code points are ordered by number, as Python compares characters. -/
instance : LinearOrder CodePoint := LinearOrder.lift' CodePoint.ord CodePoint.ord_injective

/-- A Python `str`; its order is the lexicographic order of code points. -/
abbrev Str := List CodePoint

instance : LawfulBEq Str := inferInstance

/-- The `str` a source literal denotes. -/
def str (s : String) : Str := s.toList.map .scalar

/-- The characters of a literal; the kernel reads them off without decoding bytes. -/
theorem str_ofList (l : List Char) : str (String.ofList l) = l.map .scalar := by
  rw [str, String.toList_ofList]

/-! ### Whitespace -/

/-- `str.isspace` of one character. -/
def CodePoint.isSpace (c : CodePoint) : Bool :=
  let n := c.ord
  (9 ≤ n && n ≤ 13) || (28 ≤ n && n ≤ 32) || n == 0x85 || n == 0xA0 || n == 0x1680 ||
    (0x2000 ≤ n && n ≤ 0x200A) || n == 0x2028 || n == 0x2029 || n == 0x202F || n == 0x205F ||
    n == 0x3000

/-- `str.lstrip`. -/
def lstrip (s : Str) : Str := s.dropWhile CodePoint.isSpace

/-- `str.rstrip`. -/
def rstrip (s : Str) : Str := (lstrip s.reverse).reverse

/-- `str.strip`. -/
def strip (s : Str) : Str := rstrip (lstrip s)

/-- `not value.strip()`: nothing but whitespace. -/
def isBlank (s : Str) : Bool := (strip s).isEmpty

theorem isBlank_iff (s : Str) : isBlank s = true ↔ ∀ c ∈ s, c.isSpace = true := by
  have hl : ∀ t : Str, lstrip t = [] ↔ ∀ c ∈ t, c.isSpace = true := by
    intro t
    simp only [lstrip]
    exact List.dropWhile_eq_nil_iff
  have hr : ∀ t : Str, rstrip t = [] ↔ ∀ c ∈ t, c.isSpace = true := by
    intro t
    simp [rstrip, hl]
  simp only [isBlank, strip, List.isEmpty_iff, hr]
  constructor
  · intro h
    apply (hl s).mp
    by_contra hne
    have hhead := List.head_dropWhile_not CodePoint.isSpace hne
    have hmem := h _ (List.head_mem hne)
    simp [lstrip] at hhead hmem
    simp [hhead] at hmem
  · intro h c hc
    exact h c ((List.dropWhile_sublist _).mem hc)

/-- A string with a visible character is not blank. -/
theorem isBlank_eq_false_of_mem {s : Str} {c : CodePoint} (hc : c ∈ s)
    (hspace : c.isSpace = false) : isBlank s = false := by
  by_contra h
  have := (isBlank_iff s).mp (by simpa using h) c hc
  simp [hspace] at this

/-- Stripping keeps every visible character. -/
theorem mem_strip_of_mem {s : Str} {c : CodePoint} (hc : c ∈ s) (hspace : c.isSpace = false) :
    c ∈ strip s := by
  have hl : ∀ {t : Str}, c ∈ t → c ∈ lstrip t := by
    intro t ht
    rw [← List.takeWhile_append_dropWhile (p := CodePoint.isSpace) (l := t)] at ht
    rcases List.mem_append.mp ht with h | h
    · have := List.mem_takeWhile_imp h
      rw [hspace] at this
      exact absurd this (by decide)
    · exact h
  unfold strip rstrip
  exact List.mem_reverse.mpr (hl (List.mem_reverse.mpr (hl hc)))

/-- What is left of a string after stripping is not blank. -/
theorem isBlank_strip {s : Str} (h : strip s ≠ []) : isBlank (strip s) = false := by
  have hvisible : ¬ ∀ c ∈ s, c.isSpace = true := by
    intro hall
    have hblank := (isBlank_iff s).mpr hall
    rw [isBlank, List.isEmpty_iff] at hblank
    exact h hblank
  push Not at hvisible
  obtain ⟨c, hc, hspace⟩ := hvisible
  have hspace : c.isSpace = false := by simpa using hspace
  exact isBlank_eq_false_of_mem (mem_strip_of_mem hc hspace) hspace

/-! ### UTF-8 -/

/-- Every code point is a scalar value, so `encode("utf-8")` accepts the string. -/
def Encodable (s : Str) : Prop := ∀ c ∈ s, ∃ d : Char, c = .scalar d

/-- The characters of a string without surrogates. -/
def scalars : Str → Option (List Char)
  | [] => some []
  | .scalar c :: s => (scalars s).map (c :: ·)
  | .surrogate _ :: _ => none

/-- `str.encode("utf-8")`; `none` is `UnicodeEncodeError`. -/
def encodeUtf8 (s : Str) : Option (List UInt8) :=
  (scalars s).map fun cs => cs.flatMap String.utf8EncodeChar

theorem scalars_eq_some {s : Str} {cs : List Char} :
    scalars s = some cs ↔ s = cs.map .scalar := by
  induction s generalizing cs with
  | nil => simp [scalars, eq_comm, List.map_eq_nil_iff]
  | cons c s ih =>
    cases c with
    | surrogate t => cases cs <;> simp [scalars]
    | scalar d =>
      simp only [scalars, Option.map_eq_some_iff]
      constructor
      · rintro ⟨ds, hds, rfl⟩
        simp [ih.mp hds]
      · intro h
        cases cs with
        | nil => simp at h
        | cons e es =>
          simp only [List.map_cons, List.cons.injEq, CodePoint.scalar.injEq] at h
          exact ⟨es, ih.mpr h.2, by rw [h.1]⟩

theorem encodable_iff_scalars {s : Str} : Encodable s ↔ ∃ cs, scalars s = some cs := by
  induction s with
  | nil => simp [Encodable, scalars]
  | cons c s ih =>
    cases c with
    | surrogate t => simp [Encodable, scalars]
    | scalar d =>
      simp only [Encodable, List.forall_mem_cons] at ih ⊢
      simp [scalars, ih]

@[simp] theorem encodable_nil : Encodable [] := by simp [Encodable]

@[simp] theorem encodable_append {s t : Str} :
    Encodable (s ++ t) ↔ Encodable s ∧ Encodable t := by
  simp only [Encodable, List.forall_mem_append]

@[simp] theorem encodable_cons_scalar {c : Char} {s : Str} :
    Encodable (.scalar c :: s) ↔ Encodable s := by
  simp [Encodable]

theorem encodable_map_scalar (cs : List Char) : Encodable (cs.map .scalar) := by
  intro c hc
  obtain ⟨d, _, rfl⟩ := List.mem_map.mp hc
  exact ⟨d, rfl⟩

@[simp] theorem encodable_str (s : String) : Encodable (str s) := encodable_map_scalar _

theorem encodeUtf8_isSome {s : Str} : (∃ b, encodeUtf8 s = some b) ↔ Encodable s := by
  simp [encodeUtf8, encodable_iff_scalars]

/-- UTF-8 is injective on the strings it accepts. -/
theorem encodeUtf8_inj {s t : Str} {b : List UInt8} (hs : encodeUtf8 s = some b)
    (ht : encodeUtf8 t = some b) : s = t := by
  simp only [encodeUtf8, Option.map_eq_some_iff] at hs ht
  obtain ⟨cs, hcs, hb⟩ := hs
  obtain ⟨ds, hds, hb'⟩ := ht
  have hbytes : cs.utf8Encode = ds.utf8Encode := by
    simp only [List.utf8Encode, hb, hb']
  have hstr : String.ofList cs = String.ofList ds := by
    apply String.toByteArray_inj.mp
    simpa using hbytes
  have hlist : cs = ds := by simpa using congrArg String.toList hstr
  rw [scalars_eq_some.mp hcs, scalars_eq_some.mp hds, hlist]

/-! ### Partition and replace -/

/-- `str.partition` at a one-character separator. -/
def partition (sep : CodePoint) (s : Str) : Str × Str × Str :=
  match s.dropWhile (· ≠ sep) with
  | [] => (s, [], [])
  | c :: rest => (s.takeWhile (· ≠ sep), [c], rest)

theorem partition_append {sep : CodePoint} {p s : Str} (h : sep ∉ p) :
    partition sep (p ++ sep :: s) = (p, [sep], s) := by
  have hall : ∀ c ∈ p, (decide (c ≠ sep)) = true := by
    intro c hc
    have hne : c ≠ sep := by
      rintro rfl
      exact h hc
    simpa using hne
  have hdrop : (p ++ sep :: s).dropWhile (fun c => decide (c ≠ sep)) = sep :: s := by
    rw [List.dropWhile_append_of_pos hall]
    simp
  have htake : (p ++ sep :: s).takeWhile (fun c => decide (c ≠ sep)) = p := by
    rw [List.takeWhile_append_of_pos hall]
    simp
  simp only [partition, hdrop, htake]

/-- What a partition found puts the string back together. -/
theorem eq_append_of_partition {sep : CodePoint} {s p r : Str}
    (h : partition sep s = (p, [sep], r)) : s = p ++ sep :: r := by
  unfold partition at h
  split at h
  · simp at h
  · next c rest heq =>
    simp only [Prod.mk.injEq, List.cons.injEq, and_true] at h
    obtain ⟨rfl, rfl, rfl⟩ := h
    rw [← heq, List.takeWhile_append_dropWhile]

/-- `str.replace`, left to right; `skip` counts the characters of the last match
    still to pass over. -/
def replaceFrom (old new : Str) : Nat → Str → Str
  | _, [] => []
  | skip + 1, _ :: s => replaceFrom old new skip s
  | 0, c :: s =>
    if old.isPrefixOf (c :: s) then new ++ replaceFrom old new (old.length - 1) s
    else c :: replaceFrom old new 0 s

/-- `str.replace(old, new)` for a non-empty `old`. -/
def replace (old new s : Str) : Str := replaceFrom old new 0 s

theorem replaceFrom_drop (old new s : Str) (k : Nat) :
    replaceFrom old new k s = replaceFrom old new 0 (s.drop k) := by
  induction s generalizing k with
  | nil => cases k <;> simp [replaceFrom]
  | cons c s ih =>
    cases k with
    | zero => simp
    | succ k => simpa [replaceFrom] using ih k

/-- A suffix is replaced once when its first character occurs nowhere before it. -/
theorem replace_suffix {o : CodePoint} {old new p : Str} (h : o ∉ p) :
    replace (o :: old) new (p ++ o :: old) = p ++ new := by
  induction p with
  | nil =>
    have hpre : (o :: old).isPrefixOf (o :: old) = true := by simp
    simp [replace, replaceFrom, replaceFrom_drop (k := old.length)]
  | cons c p ih =>
    have hne : o ≠ c := fun heq => h (by simp [heq])
    have hnot : (o :: old).isPrefixOf (c :: (p ++ o :: old)) = false := by
      simp [List.isPrefixOf, hne]
    have hp : o ∉ p := fun hmem => h (by simp [hmem])
    have := ih hp
    simp only [replace] at this ⊢
    rw [List.cons_append, replaceFrom, hnot]
    simp [this]

/-! ### Decimal digits -/

/-- `str(n)` of a natural number. -/
def decimal (n : Nat) : Str := (Nat.toDigits 10 n).map .scalar

/-- `str(i)` of an integer. -/
def decimalInt : Int → Str
  | .ofNat n => decimal n
  | .negSucc n => .scalar '-' :: decimal (n + 1)

/-- `sys.int_info.default_max_str_digits`: an integer with more digits is
    converted neither to text nor from it. -/
def maxStrDigits : Nat := 4300

/-- `str(i)` does not raise `ValueError`. -/
def printableInt (i : Int) : Bool := decide (i.natAbs < 10 ^ maxStrDigits)

/-- `sys.maxsize`, the most items a sequence can have. -/
def maxsize : Nat := 2 ^ 63 - 1

theorem maxsize_lt : maxsize < 10 ^ maxStrDigits :=
  calc maxsize < 10 ^ 19 := by decide
    _ ≤ 10 ^ maxStrDigits := Nat.pow_le_pow_right (by decide) (by decide)

theorem printableInt_of_lt {i : Int} (h : i.natAbs < 10 ^ maxStrDigits) : printableInt i = true := by
  simpa [printableInt] using h

theorem printableInt_of_nonneg {i : Int} (hnonneg : 0 ≤ i) (h : i < 10 ^ maxStrDigits) :
    printableInt i = true := by
  obtain ⟨n, rfl⟩ := Int.eq_ofNat_of_zero_le hnonneg
  refine printableInt_of_lt ?_
  rw [Int.natAbs_natCast]
  exact Int.ofNat_lt.mp (by rw [Int.natCast_pow]; exact h)

/-- An ASCII decimal digit. -/
def CodePoint.isDigit : CodePoint → Bool
  | .scalar c => c.isDigit
  | .surrogate _ => false

theorem isDigit_of_mem_decimal {n : Nat} {c : CodePoint} (h : c ∈ decimal n) :
    c.isDigit = true := by
  obtain ⟨d, hd, rfl⟩ := List.mem_map.mp h
  exact Nat.isDigit_of_mem_toDigits (by decide) (by decide) hd

theorem decimal_ne_nil (n : Nat) : decimal n ≠ [] := by
  simp [decimal, Nat.toDigits_ne_nil]

theorem decimal_injective : Function.Injective decimal := by
  intro m n h
  have hmap : Nat.toDigits 10 m = Nat.toDigits 10 n :=
    List.map_injective_iff.mpr (fun a b hab => by simpa using hab) h
  have := congrArg (fun l => Nat.ofDigitChars 10 l 0) hmap
  simpa [Nat.ofDigitChars_ten_toDigits] using this

@[simp] theorem encodable_decimal (n : Nat) : Encodable (decimal n) := encodable_map_scalar _

@[simp] theorem encodable_decimalInt (i : Int) : Encodable (decimalInt i) := by
  cases i <;> simp [decimalInt]

/-- Two runs of characters of a kind, each followed by another character, are equal when the
    texts are. -/
theorem run_append_inj {p : CodePoint → Bool} {a b r s : Str} (ha : ∀ c ∈ a, p c = true)
    (hb : ∀ c ∈ b, p c = true) (hr : ∀ c, r.head? = some c → p c = false)
    (hs : ∀ c, s.head? = some c → p c = false) (h : a ++ r = b ++ s) : a = b ∧ r = s := by
  induction a generalizing b with
  | nil =>
    cases b with
    | nil => exact ⟨rfl, h⟩
    | cons c b =>
      have hc := hb c (by simp)
      have := hr c (by simp_all)
      simp [hc] at this
  | cons c a ih =>
    cases b with
    | nil =>
      have hc := ha c (by simp)
      have := hs c (by rw [← List.nil_append s, ← h]; rfl)
      simp [hc] at this
    | cons d b =>
      simp only [List.cons_append, List.cons.injEq] at h
      obtain ⟨hcd, htail⟩ := h
      obtain ⟨hab, hrs⟩ := ih (fun e he => ha e (by simp [he]))
        (fun e he => hb e (by simp [he])) htail
      exact ⟨by rw [hcd, hab], hrs⟩

/-- Two digit runs, each followed by a non-digit, are equal when the texts are. -/
theorem digits_append_inj {a b r s : Str} (ha : ∀ c ∈ a, c.isDigit = true)
    (hb : ∀ c ∈ b, c.isDigit = true) (hr : ∀ c, r.head? = some c → c.isDigit = false)
    (hs : ∀ c, s.head? = some c → c.isDigit = false) (h : a ++ r = b ++ s) :
    a = b ∧ r = s :=
  run_append_inj ha hb hr hs h

/-- The digit with value `n % base` (`base` at most 16), in lower case. -/
def digit (base n : Nat) : CodePoint := .scalar (Nat.digitChar (n % base))

/-- `n` in exactly `width` digits of `base`, the most significant first. -/
def fixedDigits (base : Nat) : Nat → Nat → Str
  | 0, _ => []
  | width + 1, n => fixedDigits base width (n / base) ++ [digit base n]

@[simp] theorem fixedDigits_length (base width n : Nat) :
    (fixedDigits base width n).length = width := by
  induction width generalizing n with
  | zero => rfl
  | succ w ih => simp [fixedDigits, ih]

@[simp] theorem encodable_fixedDigits (base width n : Nat) :
    Encodable (fixedDigits base width n) := by
  induction width generalizing n with
  | zero => simp [fixedDigits]
  | succ w ih => simp [fixedDigits, digit, ih]

theorem digitChar_inj {m n : Nat} (hm : m < 16) (hn : n < 16)
    (h : Nat.digitChar m = Nat.digitChar n) : m = n := by
  have key : ∀ i < 16, ∀ j < 16, Nat.digitChar i = Nat.digitChar j → i = j := by decide
  exact key m hm n hn h

/-- A number is determined by its fixed-width rendering. -/
theorem fixedDigits_inj {base width m n : Nat} (hbase : 0 < base) (hsmall : base ≤ 16)
    (hm : m < base ^ width) (hn : n < base ^ width)
    (h : fixedDigits base width m = fixedDigits base width n) : m = n := by
  induction width generalizing m n with
  | zero => simp at hm hn; omega
  | succ w ih =>
    have hlen : (fixedDigits base w (m / base)).length = (fixedDigits base w (n / base)).length := by
      simp
    obtain ⟨hhi, hlo⟩ := List.append_inj h hlen
    have hdig : m % base = n % base := by
      apply digitChar_inj (Nat.lt_of_lt_of_le (Nat.mod_lt _ hbase) hsmall)
        (Nat.lt_of_lt_of_le (Nat.mod_lt _ hbase) hsmall)
      simpa [digit] using hlo
    have hdiv : m / base = n / base := by
      apply ih _ _ hhi
      · exact Nat.div_lt_of_lt_mul (by rw [← Nat.pow_succ']; exact hm)
      · exact Nat.div_lt_of_lt_mul (by rw [← Nat.pow_succ']; exact hn)
    rw [← Nat.div_add_mod m base, ← Nat.div_add_mod n base, hdiv, hdig]

/-- A digit written by `fixedDigits` is none of the characters used as separators. -/
theorem not_mem_fixedDigits {base width n : Nat} {c : Char} (hbase : 0 < base)
    (hsmall : base ≤ 16) (hc : ∀ k < 16, Nat.digitChar k ≠ c) :
    CodePoint.scalar c ∉ fixedDigits base width n := by
  induction width generalizing n with
  | zero => simp [fixedDigits]
  | succ w ih =>
    simp only [fixedDigits, List.mem_append, List.mem_singleton, not_or]
    refine ⟨ih, fun heq => ?_⟩
    simp only [digit, CodePoint.scalar.injEq] at heq
    exact hc _ (Nat.lt_of_lt_of_le (Nat.mod_lt _ hbase) hsmall) heq.symm

/-! ### Code words -/

section words
variable {α β : Type} {word : α → List β} {stop : β}

/-- What was written word by word up to a stop is read back, when the next word can be told
    from the text that follows. -/
theorem flatMap_append_inj_of_mem {l l' : List α} {r s : List β}
    (hword : ∀ a ∈ l, ∀ b ∈ l', ∀ r s, word a ++ r = word b ++ s → a = b ∧ r = s)
    (hstop : ∀ a r s, word a ++ r ≠ stop :: s)
    (h : l.flatMap word ++ stop :: r = l'.flatMap word ++ stop :: s) : l = l' ∧ r = s := by
  induction l generalizing l' with
  | nil =>
    cases l' with
    | nil => exact ⟨rfl, (List.cons_eq_cons.mp h).2⟩
    | cons b l' =>
      rw [List.flatMap_nil, List.nil_append, List.flatMap_cons, List.append_assoc] at h
      exact absurd h.symm (hstop b _ _)
  | cons a l ih =>
    cases l' with
    | nil =>
      rw [List.flatMap_nil, List.nil_append, List.flatMap_cons, List.append_assoc] at h
      exact absurd h (hstop a _ _)
    | cons b l' =>
      rw [List.flatMap_cons, List.flatMap_cons, List.append_assoc, List.append_assoc] at h
      obtain ⟨hab, htail⟩ := hword a List.mem_cons_self b List.mem_cons_self _ _ h
      obtain ⟨hl, hrs⟩ := ih (fun a ha b hb => hword a (List.mem_cons_of_mem _ ha) b
        (List.mem_cons_of_mem _ hb)) htail
      exact ⟨by rw [hab, hl], hrs⟩

theorem flatMap_append_inj
    (hword : ∀ a b r s, word a ++ r = word b ++ s → a = b ∧ r = s)
    (hstop : ∀ a r s, word a ++ r ≠ stop :: s) {l l' : List α} {r s : List β}
    (h : l.flatMap word ++ stop :: r = l'.flatMap word ++ stop :: s) : l = l' ∧ r = s :=
  flatMap_append_inj_of_mem (fun a _ b _ => hword a b) hstop h

end words

end Py
