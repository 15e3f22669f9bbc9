import IncidentEvidence.Py.Float
import Mathlib.Tactic.Ring

/-! # Medians

    How `statistics.median` follows its data.

    * On any arithmetic whose operations take numbers that compare equal to numbers
      that compare equal (`CongruentPyFloat`), the median does not depend on the
      order of the data (`median_perm`).
    * An affine map of exact data maps the median with it (`ratMedian_map_affine`);
      a map that turns the data around reads the sorted list from the other end,
      where the middle is the same.
-/

namespace Py

/-! ### Numbers that compare equal -/

namespace PyFloat

variable {F : Type} [PyFloat F]

/-- What a comparison of tuples accepts for two of their members: one object, or
    `a == b`. -/
def Same (a b : F) : Prop := a = b ∨ eq a b = true

/-- `a == b`, or neither is a number. -/
def Alike (a b : F) : Prop := eq a b = true ∨ eq a a = false ∧ eq b b = false

theorem Alike.refl (a : F) : Alike a a := by
  cases h : eq a a with
  | true => exact Or.inl h
  | false => exact Or.inr ⟨h, h⟩

end PyFloat

open PyFloat in
/-- No operation tells `0.0` from `-0.0` by a comparison, as in IEEE arithmetic, where
    a division that would is a `ZeroDivisionError`. -/
class CongruentPyFloat (F : Type) [PyFloat F] : Prop where
  total : ∀ {a b : F}, eq a a → eq b b → le a b ∨ le b a
  number_of_le : ∀ {a b : F}, le a b → eq a a
  finite_congr : ∀ {a b : F}, eq a b → isFinite a = isFinite b
  abs_congr : ∀ {a b : F}, Alike a b → Alike (abs a) (abs b)
  add_congr : ∀ {a a' b b' : F}, Alike a a' → Alike b b' → Alike (add a b) (add a' b')
  sub_congr : ∀ {a a' b b' : F}, Alike a a' → Alike b b' → Alike (sub a b) (sub a' b')
  mul_congr : ∀ {a a' b b' : F}, Alike a a' → Alike b b' → Alike (mul a b) (mul a' b')
  truediv_congr : ∀ {a a' b b' : F}, Alike a a' → Alike b b' →
    Option.Rel Alike (truediv a b) (truediv a' b')
  number_abs : ∀ {a : F}, eq a a → eq (abs a) (abs a)
  number_sub : ∀ {a b : F}, isFinite a → isFinite b → eq (sub a b) (sub a b)

namespace PyFloat

variable {F : Type} [PyFloat F] [LawfulPyFloat F]

theorem Alike.finite [CongruentPyFloat F] {a b : F} (h : Alike a b) : isFinite a = isFinite b := by
  have hnumber : ∀ {c : F}, eq c c = false → isFinite c = false := by
    intro c hc
    by_contra hfin
    rw [eq_refl (by simpa using hfin)] at hc
    exact absurd hc (by decide)
  rcases h with h | ⟨ha, hb⟩
  · exact CongruentPyFloat.finite_congr h
  · rw [hnumber ha, hnumber hb]

omit [LawfulPyFloat F] in
/-- What compares alike to a finite number equals it. -/
theorem Alike.eq_of_number {a b : F} (h : Alike a b) (ha : eq a a = true) : eq a b = true := by
  rcases h with h | ⟨hnan, -⟩
  · exact h
  · rw [ha] at hnan
    exact absurd hnan (by decide)

theorem lt_congr {a a' b b' : F} (ha : eq a a' = true) (hb : eq b b' = true) :
    lt a b = lt a' b' := by
  obtain ⟨haa', ha'a⟩ := eq_eq_true.mp ha
  obtain ⟨hbb', hb'b⟩ := eq_eq_true.mp hb
  have hle : le a b = le a' b' := by
    rw [Bool.eq_iff_iff]
    constructor
    · intro h
      exact LawfulPyFloat.le_trans (LawfulPyFloat.le_trans ha'a h) hbb'
    · intro h
      exact LawfulPyFloat.le_trans (LawfulPyFloat.le_trans haa' h) hb'b
  have hge : le b a = le b' a' := by
    rw [Bool.eq_iff_iff]
    constructor
    · intro h
      exact LawfulPyFloat.le_trans (LawfulPyFloat.le_trans hb'b h) haa'
    · intro h
      exact LawfulPyFloat.le_trans (LawfulPyFloat.le_trans hbb' h) ha'a
  rw [lt, lt, hle, hge]

/-- A comparison does not tell alike operands apart. -/
theorem lt_congr_left_alike [CongruentPyFloat F] {a a' b : F} (ha : Alike a a')
    (hb : isFinite b = true) : lt a b = lt a' b := by
  rcases ha with ha | ⟨hnan, hnan'⟩
  · exact lt_congr ha (eq_refl hb)
  · have hbelow : ∀ {c : F}, eq c c = false → lt c b = false := by
      intro c hc
      by_contra hlt
      have hle := (lt_eq_true.mp (by simpa using hlt)).1
      rw [CongruentPyFloat.number_of_le hle] at hc
      exact absurd hc (by decide)
    rw [hbelow hnan, hbelow hnan']

/-- The larger of equal numbers. -/
theorem max_congr {a a' b b' : F} (ha : eq a a' = true) (hb : eq b b' = true) :
    eq (max a b) (max a' b') = true := by
  unfold max
  rw [lt_congr ha hb]
  by_cases h : lt a' b' = true
  · rw [if_pos h, if_pos h]
    exact hb
  · rw [if_neg h, if_neg h]
    exact ha

/-! ### The median of equal data -/

section congruence
variable [CongruentPyFloat F]

/-- Sorting asks for an order on numbers only, infinities included. -/
theorem orderedOn_numbers {l : List F} (h : ∀ a ∈ l, eq a a = true) : OrderedOn lt l := by
  have hlt : ∀ a ∈ l, ∀ b ∈ l, (lt a b = false ↔ le b a = true) := by
    intro a ha b hb
    rcases CongruentPyFloat.total (h a ha) (h b hb) with hab | hba
    · simp [lt, hab]
    · simp [lt, hba]
  constructor
  · intro a ha b hb
    rw [hlt a ha b hb, hlt b hb a ha]
    exact (CongruentPyFloat.total (h a ha) (h b hb)).symm
  · intro a ha b hb c hc
    rw [hlt b hb a ha, hlt c hc b hb, hlt c hc a ha]
    exact LawfulPyFloat.le_trans

omit [LawfulPyFloat F] in
/-- Two sorted lists that agree up to equality have medians that are equal, or are
    both no number. -/
theorem median_of_sorted {data data' : List F}
    (h : List.Forall₂ (fun a b => eq a b = true) (sortedBy lt data) (sortedBy lt data')) :
    Option.Rel Alike (median data) (median data') := by
  have hlength := h.length_eq
  have hread : ∀ i : Nat, Option.Rel Alike (sortedBy lt data)[i]? (sortedBy lt data')[i]? := by
    intro i
    by_cases hi : i < (sortedBy lt data).length
    · rw [List.getElem?_eq_getElem hi, List.getElem?_eq_getElem (hlength ▸ hi)]
      exact .some (Or.inl (h.get hi (hlength ▸ hi)))
    · rw [List.getElem?_eq_none (by omega), List.getElem?_eq_none (by omega)]
      exact .none
  simp only [median, ← hlength]
  by_cases hempty : (sortedBy lt data).length = 0
  · rw [if_pos hempty, if_pos hempty]
    exact .none
  · rw [if_neg hempty, if_neg hempty]
    by_cases hodd : (sortedBy lt data).length % 2 = 1
    · rw [if_pos hodd, if_pos hodd]
      exact hread _
    · rw [if_neg hodd, if_neg hodd]
      -- both middles are there or none is; their mean follows them
      have hupper := hread ((sortedBy lt data).length / 2)
      have hlower := hread ((sortedBy lt data).length / 2 - 1)
      revert hlower
      generalize (sortedBy lt data)[(sortedBy lt data).length / 2 - 1]? = x
      generalize (sortedBy lt data')[(sortedBy lt data).length / 2 - 1]? = x'
      intro hlower
      cases hlower with
      | none => exact .none
      | some hlow =>
        revert hupper
        generalize (sortedBy lt data)[(sortedBy lt data).length / 2]? = y
        generalize (sortedBy lt data')[(sortedBy lt data).length / 2]? = y'
        intro hupper
        cases hupper with
        | none => exact .none
        | some hup =>
          exact CongruentPyFloat.truediv_congr (CongruentPyFloat.add_congr hlow hup)
            (Alike.refl _)

/-- **The median of numbers does not depend on their order**, and equal numbers may
    replace one another. -/
theorem median_perm {data data' rest : List F} (hnumber : ∀ a ∈ data, eq a a = true)
    (hperm : data.Perm rest) (hequal : List.Forall₂ (fun a b => eq a b = true) rest data') :
    Option.Rel Alike (median data) (median data') := by
  have hlevel := forall₂_sortedBy_of_perm (orderedOn_numbers hnumber) hperm
  have hsorted : List.Forall₂ (fun a b => eq a b = true) (sortedBy lt rest) (sortedBy lt data') :=
    forall₂_sortedBy hequal fun a _ a' _ b _ b' _ hab hab' => lt_congr hab hab'
  apply median_of_sorted
  have hrest : ∀ a ∈ sortedBy lt rest, eq a a = true := by
    intro a ha
    exact hnumber a (hperm.mem_iff.mpr (mem_sortedBy.mp ha))
  have hsame : List.Forall₂ (fun a b => eq a b = true) (sortedBy lt data) (sortedBy lt rest) := by
    apply (List.forall₂_iff_zip.mpr ⟨hlevel.length_eq, ?_⟩)
    intro a b hab
    obtain ⟨ha, hb⟩ := List.of_mem_zip hab
    obtain ⟨hlt, hgt⟩ := (List.forall₂_iff_zip.mp hlevel).2 hab
    have hnumbers := CongruentPyFloat.total (hnumber a (mem_sortedBy.mp ha)) (hrest b hb)
    rw [eq_eq_true]
    rcases hnumbers with hle | hle
    · exact ⟨hle, by simpa [lt, hle] using hlt⟩
    · exact ⟨by simpa [lt, hle] using hgt, hle⟩
  exact forall₂_trans hsame hsorted fun a b c hab hbc => eq_trans hab hbc

end congruence

end PyFloat

namespace ExactFloat

/-! ### Exact data -/

theorem eq_self_iff {a : ExactFloat} : PyFloat.eq a a = true ↔ a ≠ nan := by
  rw [PyFloat.eq_eq_true, and_self]
  rcases a with q | s | _
  · simp
  · cases s <;> decide
  · decide

/-- Exact numbers that compare alike are the same. -/
theorem eq_of_alike {a b : ExactFloat} (h : PyFloat.Alike a b) : a = b := by
  rcases h with h | ⟨ha, hb⟩
  · exact eq_of_eq h
  · have hnan : ∀ {c : ExactFloat}, PyFloat.eq c c = false → c = nan := by
      intro c hc
      by_contra hne
      rw [eq_self_iff.mpr hne] at hc
      exact absurd hc (by decide)
    rw [hnan ha, hnan hb]

end ExactFloat

instance : CongruentPyFloat ExactFloat where
  total := by
    intro a b ha hb
    rw [ExactFloat.eq_self_iff] at ha hb
    rcases a with p | (_ | _) | _ <;> rcases b with q | (_ | _) | _ <;>
      simp_all [PyFloat.le, ExactFloat.le, ExactFloat.level, le_total]
  number_of_le := by
    intro a b hab
    rw [ExactFloat.eq_self_iff]
    intro hnan
    rw [hnan] at hab
    exact absurd hab (by simp [PyFloat.le, ExactFloat.le, ExactFloat.level])
  finite_congr := by
    intro a b h
    rw [ExactFloat.eq_of_eq h]
  abs_congr := by
    intro a b h
    rw [ExactFloat.eq_of_alike h]
    exact .refl _
  add_congr := by
    intro a a' b b' ha hb
    rw [ExactFloat.eq_of_alike ha, ExactFloat.eq_of_alike hb]
    exact .refl _
  sub_congr := by
    intro a a' b b' ha hb
    rw [ExactFloat.eq_of_alike ha, ExactFloat.eq_of_alike hb]
    exact .refl _
  mul_congr := by
    intro a a' b b' ha hb
    rw [ExactFloat.eq_of_alike ha, ExactFloat.eq_of_alike hb]
    exact .refl _
  truediv_congr := by
    intro a a' b b' ha hb
    rw [ExactFloat.eq_of_alike ha, ExactFloat.eq_of_alike hb]
    cases PyFloat.truediv a' b' with
    | none => exact .none
    | some c => exact .some (.refl c)
  number_abs := by
    intro a ha
    rw [ExactFloat.eq_self_iff] at ha ⊢
    cases a with
    | fin q => simp
    | inf s => simp [PyFloat.abs, ExactFloat.abs]
    | nan => exact absurd rfl ha
  number_sub := by
    intro a b ha hb
    obtain ⟨p, rfl⟩ := ExactFloat.isFinite_iff.mp ha
    obtain ⟨q, rfl⟩ := ExactFloat.isFinite_iff.mp hb
    simp

namespace ExactFloat

/-! ### The sorted data -/

/-- An increasing map sorts after it as before it. -/
theorem sortedOn_map_of_strictMono {f : ℚ → ℚ} (hf : StrictMono f) (data : List ℚ) :
    sortedOn id (data.map f) = (sortedOn id data).map f := by
  symm
  apply map_sortedBy
  intro a _ b _
  simp [hf.lt_iff_lt]

/-- Negated data sort to the negated list, read backwards. -/
theorem sortedOn_map_neg (data : List ℚ) :
    sortedOn id (data.map fun v => -v) = ((sortedOn id data).map fun v => -v).reverse := by
  have hperm : (sortedOn id (data.map fun v => -v)).Perm
      ((sortedOn id data).map fun v => -v).reverse :=
    ((perm_sortedOn id _).trans ((perm_sortedOn id data).map _).symm).trans
      (List.reverse_perm _).symm
  have hbackwards : ((sortedOn id data).map fun v => -v).reverse.Pairwise
      fun a b : ℚ => id a ≤ id b := by
    rw [List.pairwise_reverse, List.pairwise_map]
    apply (pairwise_sortedOn id data).imp
    intro a b hab
    show -b ≤ -a
    exact neg_le_neg hab
  apply List.Perm.eq_of_pairwise _ (pairwise_sortedOn id _) hbackwards hperm
  intro a b _ _ hab hba
  exact le_antisymm hab hba

/-! ### The median -/

/-- **An increasing affine map moves the median with the data.** -/
theorem ratMedian_affine {a : ℚ} (ha : 0 < a) (b : ℚ) {data : List ℚ} (h : data ≠ []) :
    ratMedian (data.map fun v => a * v + b) = a * ratMedian data + b := by
  have hmono : StrictMono fun v : ℚ => a * v + b := by
    intro v w hvw
    show a * v + b < a * w + b
    have := mul_lt_mul_of_pos_left hvw ha
    linarith
  have hpos : 0 < (sortedOn id data).length := by
    rw [(perm_sortedOn id data).length_eq]
    exact List.length_pos_iff.mpr h
  simp only [ratMedian, sortedOn_map_of_strictMono hmono, List.length_map, List.getElem?_map]
  obtain ⟨n, hn⟩ : ∃ n, n = (sortedOn id data).length := ⟨_, rfl⟩
  rw [← hn] at hpos ⊢
  have hmid : n / 2 < (sortedOn id data).length := by omega
  have hbelow : n / 2 - 1 < (sortedOn id data).length := by omega
  rw [List.getElem?_eq_getElem hmid, List.getElem?_eq_getElem hbelow]
  by_cases hodd : n % 2 = 1
  · simp [hodd]
  · simp only [hodd, if_false, Option.map_some, Option.getD_some]
    ring

/-- **Negated data have the negated median.** -/
theorem ratMedian_neg {data : List ℚ} (h : data ≠ []) :
    ratMedian (data.map fun v => -v) = -ratMedian data := by
  have hpos : 0 < (sortedOn id data).length := by
    rw [(perm_sortedOn id data).length_eq]
    exact List.length_pos_iff.mpr h
  simp only [ratMedian, sortedOn_map_neg, List.length_reverse, List.length_map]
  obtain ⟨n, hn⟩ : ∃ n, n = (sortedOn id data).length := ⟨_, rfl⟩
  rw [← hn] at hpos ⊢
  have hread : ∀ i, i < n → (((sortedOn id data).map fun v => -v).reverse)[i]? =
      (sortedOn id data)[n - 1 - i]?.map fun v => -v := by
    intro i hi
    rw [List.getElem?_reverse (by simpa [← hn] using hi), List.getElem?_map, List.length_map, ← hn]
  rw [hread (n / 2) (by omega), hread (n / 2 - 1) (by omega)]
  by_cases hodd : n % 2 = 1
  · -- an odd list has the same middle from both ends
    have hmiddle : n - 1 - n / 2 = n / 2 := by omega
    have hmid : n / 2 < (sortedOn id data).length := by omega
    simp [hodd, hmiddle, List.getElem?_eq_getElem hmid]
  · -- the two middles of an even list change places
    have hupper : n - 1 - n / 2 = n / 2 - 1 := by omega
    have hlower : n - 1 - (n / 2 - 1) = n / 2 := by omega
    have hmid : n / 2 < (sortedOn id data).length := by omega
    have hbelow : n / 2 - 1 < (sortedOn id data).length := by omega
    simp only [hodd, if_false, hupper, hlower, List.getElem?_eq_getElem hmid,
      List.getElem?_eq_getElem hbelow, Option.map_some, Option.getD_some]
    ring

/-- **Any affine map that is not constant** moves the median with the data. -/
theorem ratMedian_map_affine {a : ℚ} (ha : a ≠ 0) (b : ℚ) {data : List ℚ} (h : data ≠ []) :
    ratMedian (data.map fun v => a * v + b) = a * ratMedian data + b := by
  rcases lt_or_gt_of_ne ha with hneg | hpos
  · -- turn the data around, then use an increasing map
    have hdata : (data.map fun v => -v) ≠ [] := by
      intro hnil
      exact h (List.map_eq_nil_iff.mp hnil)
    have hturned : (data.map fun v => a * v + b) =
        (data.map fun v => -v).map fun v => -a * v + b := by
      rw [List.map_map]
      apply List.map_congr_left
      intro v _
      show a * v + b = -a * -v + b
      ring
    rw [hturned, ratMedian_affine (by linarith) b hdata, ratMedian_neg h]
    ring
  · exact ratMedian_affine hpos b h

/-- The deviations from a centre scale with the data and forget the constant. -/
theorem deviations_affine (a b c : ℚ) (data : List ℚ) :
    (data.map fun v => a * v + b).map (fun v => |v - (a * c + b)|) =
      (data.map fun v => |v - c|).map fun d => |a| * d := by
  rw [List.map_map, List.map_map]
  apply List.map_congr_left
  intro v _
  show |a * v + b - (a * c + b)| = |a| * |v - c|
  rw [← abs_mul]
  congr 1
  ring

/-- **The median deviation scales with the data.** -/
theorem ratMedian_deviations_affine {a : ℚ} (ha : a ≠ 0) (b c : ℚ) {data : List ℚ}
    (h : data ≠ []) :
    ratMedian ((data.map fun v => a * v + b).map fun v => |v - (a * c + b)|) =
      |a| * ratMedian (data.map fun v => |v - c|) := by
  have hdata : (data.map fun v => |v - c|) ≠ [] := by
    intro hnil
    exact h (List.map_eq_nil_iff.mp hnil)
  have hscaled := ratMedian_affine (abs_pos.mpr ha) 0 hdata
  simp only [add_zero] at hscaled
  rw [deviations_affine, hscaled]

end ExactFloat

end Py
