import IncidentEvidence.Py.Str
import Mathlib.Order.Fin.Basic

/-! # UUIDs

    A `uuid.UUID` is a 128-bit number. Python renders it in lower-case
    hexadecimal with dashes at fixed places, a database keeps its 16 bytes, most
    significant first. Both are fixed-width renderings, so both orders are the
    order of the numbers (`UUID.str_lt_iff`, `UUID.bytes_lt_iff`).
-/

namespace Py

/-! ### Lexicographic order -/

section lex
variable {α : Type} [LinearOrder α]

/-- Lists with prefixes of one length are compared by the prefixes first. -/
theorem append_lt_append_iff {a b r s : List α} (h : a.length = b.length) :
    a ++ r < b ++ s ↔ a < b ∨ a = b ∧ r < s := by
  induction a generalizing b with
  | nil =>
    obtain rfl := List.length_eq_zero_iff.mp h.symm
    simp
  | cons x a ih =>
    cases b with
    | nil => simp at h
    | cons y b =>
      have hlength : a.length = b.length := by simpa using h
      simp only [List.cons_append, List.cons_lt_cons_iff, ih hlength, List.cons.injEq]
      tauto

theorem append_lt_append_congr {a b r s r' s' : List α} (h : a.length = b.length)
    (hrest : r < s ↔ r' < s') : a ++ r < b ++ s ↔ a ++ r' < b ++ s' := by
  rw [append_lt_append_iff h, append_lt_append_iff h, hrest]

/-- A number in exactly `width` places of `base`, the most significant first. -/
def fixedWidth (place : Nat → α) (base : Nat) : Nat → Nat → List α
  | 0, _ => []
  | width + 1, n => fixedWidth place base width (n / base) ++ [place (n % base)]

omit [LinearOrder α] in
@[simp] theorem length_fixedWidth (place : Nat → α) (base width n : Nat) :
    (fixedWidth place base width n).length = width := by
  induction width generalizing n with
  | zero => rfl
  | succ w ih => simp [fixedWidth, ih]

/-- **Fixed-width renderings are ordered as the numbers.** -/
theorem fixedWidth_lt_iff {place : Nat → α} {base : Nat}
    (hplace : ∀ i j, i < base → j < base → (place i < place j ↔ i < j)) {width m n : Nat}
    (hm : m < base ^ width) (hn : n < base ^ width) :
    fixedWidth place base width m < fixedWidth place base width n ↔ m < n := by
  induction width generalizing m n with
  | zero =>
    have hm0 : m = 0 := by simpa using hm
    have hn0 : n = 0 := by simpa using hn
    simp [fixedWidth, hm0, hn0]
  | succ w ih =>
    have hbase : 0 < base := by
      rcases Nat.eq_zero_or_pos base with h0 | hpos
      · simp [h0] at hm
      · exact hpos
    have hdiv : ∀ {k}, k < base ^ (w + 1) → k / base < base ^ w := fun {k} hk =>
      Nat.div_lt_of_lt_mul (by rw [← Nat.pow_succ']; exact hk)
    have hih : ∀ {k l}, k < base ^ (w + 1) → l < base ^ (w + 1) →
        (fixedWidth place base w (k / base) < fixedWidth place base w (l / base) ↔
          k / base < l / base) := fun hk hl => ih (hdiv hk) (hdiv hl)
    -- equal renderings of the quotients are equal quotients
    have heq : fixedWidth place base w (m / base) = fixedWidth place base w (n / base) ↔
        m / base = n / base := by
      constructor
      · intro h
        have hmn := hih hm hn
        have hnm := hih hn hm
        rw [h] at hmn hnm
        have h1 : ¬ m / base < n / base := fun hlt => lt_irrefl _ (hmn.mpr hlt)
        have h2 : ¬ n / base < m / base := fun hlt => lt_irrefl _ (hnm.mpr hlt)
        omega
      · intro h
        rw [h]
    have hlow : [place (m % base)] < [place (n % base)] ↔ m % base < n % base := by
      simp [List.cons_lt_cons_iff, hplace _ _ (Nat.mod_lt m hbase) (Nat.mod_lt n hbase)]
    unfold fixedWidth
    rw [append_lt_append_iff (by simp), hih hm hn, heq, hlow]
    have hmsplit := Nat.div_add_mod m base
    have hnsplit := Nat.div_add_mod n base
    have hmlt := Nat.mod_lt m hbase
    have hnlt := Nat.mod_lt n hbase
    constructor
    · intro h
      rcases h with h | ⟨h, hmod⟩
      · exact Nat.lt_of_div_lt_div h
      · rw [h] at hmsplit
        omega
    · intro h
      rcases lt_or_eq_of_le (Nat.div_le_div_right (c := base) h.le) with hlt | hsame
      · exact Or.inl hlt
      · rw [hsame] at hmsplit
        exact Or.inr ⟨hsame, by omega⟩

end lex

/-! ### Digits -/

theorem digit_lt_iff {i j : Nat} (hi : i < 16) (hj : j < 16) : digit 16 i < digit 16 j ↔ i < j := by
  have key : ∀ i < 16, ∀ j < 16,
      (CodePoint.ord (digit 16 i) < CodePoint.ord (digit 16 j) ↔ i < j) := by decide
  exact key i hi j hj

theorem fixedDigits_eq_fixedWidth {base : Nat} (hbase : base ≤ 16) (hpos : 0 < base)
    (width n : Nat) : fixedDigits base width n = fixedWidth (digit 16) base width n := by
  induction width generalizing n with
  | zero => rfl
  | succ w ih =>
    have hmod : n % base % 16 = n % base :=
      Nat.mod_eq_of_lt (lt_of_lt_of_le (Nat.mod_lt n hpos) hbase)
    rw [fixedDigits, fixedWidth, ih, digit, digit, hmod]

/-- Numbers of one width are ordered as their digits. -/
theorem fixedDigits_lt_iff {base width m n : Nat} (hpos : 0 < base) (hbase : base ≤ 16)
    (hm : m < base ^ width) (hn : n < base ^ width) :
    fixedDigits base width m < fixedDigits base width n ↔ m < n := by
  rw [fixedDigits_eq_fixedWidth hbase hpos, fixedDigits_eq_fixedWidth hbase hpos]
  apply fixedWidth_lt_iff _ hm hn
  intro i j hi hj
  exact digit_lt_iff (lt_of_lt_of_le hi hbase) (lt_of_lt_of_le hj hbase)

/-! ### UUIDs -/

/-- `uuid.UUID`. -/
structure UUID where
  int : Nat
  inRange : int < 2 ^ 128
  deriving DecidableEq

namespace UUID

theorem zero_lt : 0 < 2 ^ 128 := by decide

theorem one_lt : 1 < 2 ^ 128 := by decide

theorem two_lt : 2 < 2 ^ 128 := by decide

theorem three_lt : 3 < 2 ^ 128 := by decide

theorem four_lt : 4 < 2 ^ 128 := by decide

theorem five_lt : 5 < 2 ^ 128 := by decide

theorem six_lt : 6 < 2 ^ 128 := by decide

theorem seven_lt : 7 < 2 ^ 128 := by decide

theorem int_injective : Function.Injective UUID.int := by
  intro a b h
  cases a
  cases b
  simpa using h

/-- `'%032x' % self.int`. -/
def hex (u : UUID) : Str := fixedDigits 16 32 u.int

/-- `str(uuid)`: the hexadecimal form in groups of 8, 4, 4, 4 and 12 digits. -/
def str (u : UUID) : Str :=
  u.hex.take 8 ++ Py.str "-" ++ (u.hex.drop 8).take 4 ++ Py.str "-" ++ (u.hex.drop 12).take 4 ++
    Py.str "-" ++ (u.hex.drop 16).take 4 ++ Py.str "-" ++ u.hex.drop 20

/-- `uuid.bytes`, as the database keeps it. -/
def bytes (u : UUID) : List (Fin 256) := fixedWidth (Fin.ofNat 256) 256 16 u.int

theorem hex_lt_iff {a b : UUID} : a.hex < b.hex ↔ a.int < b.int :=
  fixedDigits_lt_iff (by decide) (by decide) (by simpa using a.inRange) (by simpa using b.inRange)

/-- **`str` orders UUIDs as numbers**: the dashes stand at the same places. -/
theorem str_lt_iff {a b : UUID} : a.str < b.str ↔ a.int < b.int := by
  have hslice : ∀ (u : UUID) (i j : Nat), u.hex.drop i = (u.hex.drop i).take j ++ u.hex.drop (i + j) := by
    intro u i j
    rw [← List.drop_drop, List.take_append_drop]
  have hsplit : ∀ u : UUID, u.hex = u.hex.take 8 ++ ((u.hex.drop 8).take 4 ++
      ((u.hex.drop 12).take 4 ++ ((u.hex.drop 16).take 4 ++ u.hex.drop 20))) := by
    intro u
    rw [← hslice u 16 4, ← hslice u 12 4, ← hslice u 8 4, List.take_append_drop]
  have hlength : ∀ u : UUID, u.hex.length = 32 := fun u => fixedDigits_length 16 32 u.int
  have hdash : ∀ {r s : Str}, Py.str "-" ++ r < Py.str "-" ++ s ↔ r < s := by
    intro r s
    rw [append_lt_append_iff rfl]
    simp
  rw [← hex_lt_iff, hsplit a, hsplit b]
  simp only [str, List.append_assoc]
  -- group by group, past each dash
  refine append_lt_append_congr (by simp [hlength]) (hdash.trans ?_)
  refine append_lt_append_congr (by simp [hlength]) (hdash.trans ?_)
  refine append_lt_append_congr (by simp [hlength]) (hdash.trans ?_)
  exact append_lt_append_congr (by simp [hlength]) hdash

/-- The database orders UUIDs as numbers. -/
theorem bytes_lt_iff {a b : UUID} : a.bytes < b.bytes ↔ a.int < b.int := by
  have hplace : ∀ i j, i < 256 → j < 256 → (Fin.ofNat 256 i < Fin.ofNat 256 j ↔ i < j) := by
    intro i j hi hj
    rw [Fin.lt_def, Fin.val_ofNat, Fin.val_ofNat, Nat.mod_eq_of_lt hi, Nat.mod_eq_of_lt hj]
  have hrange : ∀ u : UUID, u.int < 256 ^ 16 := fun u => u.inRange
  exact fixedWidth_lt_iff hplace (hrange a) (hrange b)

theorem str_injective : Function.Injective str := by
  intro a b h
  apply int_injective
  apply le_antisymm
  · exact not_lt.mp fun hlt => (str_lt_iff.mpr hlt).ne h.symm
  · exact not_lt.mp fun hlt => (str_lt_iff.mpr hlt).ne h

theorem encodable_str (u : UUID) : Encodable u.str := by
  have hhex : Encodable u.hex := encodable_fixedDigits 16 32 u.int
  have htake : ∀ {s : Str} {n : ℕ}, Encodable s → Encodable (s.take n) :=
    fun {s n} h c hc => h c (List.mem_of_mem_take hc)
  have hdrop : ∀ {s : Str} {n : ℕ}, Encodable s → Encodable (s.drop n) :=
    fun {s n} h c hc => h c (List.mem_of_mem_drop hc)
  unfold UUID.str
  simp only [encodable_append]
  exact ⟨⟨⟨⟨⟨⟨⟨⟨htake hhex, Py.encodable_str _⟩, htake (hdrop hhex)⟩, Py.encodable_str _⟩,
    htake (hdrop hhex)⟩, Py.encodable_str _⟩, htake (hdrop hhex)⟩, Py.encodable_str _⟩, hdrop hhex⟩

end UUID

end Py
