import IncidentEvidence.Py.Str
import IncidentEvidence.Py.Sorted
import Mathlib.Algebra.Order.Field.Rat
import Mathlib.Tactic.Linarith
import Mathlib.Tactic.Positivity

/-! # Python floats

    `PyFloat F` lists the operations on floats, with no laws: a definition over
    it runs on any deterministic arithmetic, NaN and infinities included.
    `LawfulPyFloat F` states what IEEE doubles and exact numbers have in common:
    the order of the finite values is a total preorder (`0.0 == -0.0`, so it need
    not be antisymmetric), `abs` is not negative, and a difference of two
    non-negative numbers in order is a non-negative number.

    `ExactFloat` is the exact arithmetic: rational numbers, the two infinities
    and NaN, with no rounding and no overflow.
-/

namespace Py

/-! ### Operations -/

/-- The float operations of Python. `truediv` is `none` for `ZeroDivisionError`,
    `ofInt` for the `OverflowError` of an integer too large to convert. -/
class PyFloat (F : Type) where
  /-- `a <= b`; false as soon as an operand is NaN. -/
  le : F → F → Bool
  isFinite : F → Bool
  isInf : F → Bool
  inf : F
  /-- The float a decimal literal denotes: `literal m k` is `m / 10 ^ k`. -/
  literal : Nat → Nat → F
  ofInt : Int → Option F
  neg : F → F
  abs : F → F
  add : F → F → F
  sub : F → F → F
  mul : F → F → F
  truediv : F → F → Option F

namespace PyFloat

variable {F : Type} [PyFloat F]

/-- `0.0`. -/
def zero : F := literal 0 0

/-- `a < b`. -/
def lt (a b : F) : Bool := le a b && !le b a

/-- `a == b`. -/
def eq (a b : F) : Bool := le a b && le b a

/-- `max(a, b)`: the first of two equal arguments. -/
def max (a b : F) : F := if lt a b then b else a

/-- `statistics.median`; `none` is `StatisticsError` (no data). -/
def median (data : List F) : Option F :=
  let data := sortedBy lt data
  let n := data.length
  if n = 0 then none
  else if n % 2 = 1 then data[n / 2]?
  else do
    let a ← data[n / 2 - 1]?
    let b ← data[n / 2]?
    truediv (add a b) (literal 2 0)

end PyFloat

/-- `float.hex`. -/
class FloatHex (F : Type) where
  hex : F → Str

/-! ### Laws -/

open PyFloat in
/-- What the results need from the arithmetic; IEEE doubles satisfy all of it. -/
class LawfulPyFloat (F : Type) [PyFloat F] : Prop where
  le_refl : ∀ {a : F}, isFinite a → le a a
  le_total : ∀ {a b : F}, isFinite a → isFinite b → le a b ∨ le b a
  le_trans : ∀ {a b c : F}, le a b → le b c → le a c
  neg_le_neg : ∀ {a b : F}, isFinite a → isFinite b → le (neg a) (neg b) = le b a
  finite_neg : ∀ {a : F}, isFinite a → isFinite (neg a)
  abs_nonneg : ∀ {a : F}, isFinite (abs a) → le zero (abs a)
  abs_sub_nonneg : ∀ {a b : F}, isFinite a → isFinite b → le zero (abs (sub a b))
  sub_nonneg : ∀ {a b : F}, isFinite a → isFinite b → le zero b → le b a →
    isFinite (sub a b) ∧ le zero (sub a b)
  half_nonneg : ∀ {a b c : F}, le zero a → le zero b → truediv (add a b) (literal 2 0) = some c →
    isFinite c → le zero c
  finite_zero : isFinite (zero : F) = true
  isInf_inf : isInf (inf : F) = true
  zero_le_inf : le (zero : F) inf = true

/-- `float.hex` tells finite values apart and writes ASCII. -/
class LawfulFloatHex (F : Type) [PyFloat F] [FloatHex F] : Prop where
  hex_inj : ∀ {a b : F}, PyFloat.isFinite a → PyFloat.isFinite b →
    FloatHex.hex a = FloatHex.hex b → a = b
  hex_encodable : ∀ a : F, Encodable (FloatHex.hex a)

/-- Numbers that compare equal are equal: there is one zero. -/
class ExactPyFloat (F : Type) [PyFloat F] : Prop where
  eq_of_eq : ∀ {a b : F}, PyFloat.eq a b = true → a = b

namespace PyFloat

variable {F : Type} [PyFloat F]

theorem lt_eq_true {a b : F} : lt a b = true ↔ le a b = true ∧ le b a = false := by
  simp [lt]

@[simp] theorem eq_eq_true {a b : F} : eq a b = true ↔ le a b = true ∧ le b a = true := by
  simp [eq]

theorem eq_symm {a b : F} (h : eq a b = true) : eq b a = true := by
  simpa [and_comm] using h

theorem lt_irrefl (a : F) : lt a a = false := by
  simp [lt]

theorem finite_max {a b : F} (ha : isFinite a = true) (hb : isFinite b = true) :
    isFinite (max a b) = true := by
  unfold max
  split <;> assumption

variable [LawfulPyFloat F]

theorem eq_refl {a : F} (h : isFinite a = true) : eq a a = true := by
  simp [LawfulPyFloat.le_refl h]

theorem eq_trans {a b c : F} (hab : eq a b = true) (hbc : eq b c = true) : eq a c = true := by
  simp only [eq_eq_true] at *
  exact ⟨LawfulPyFloat.le_trans hab.1 hbc.1, LawfulPyFloat.le_trans hbc.2 hab.2⟩

theorem lt_eq_false {a b : F} (ha : isFinite a = true) (hb : isFinite b = true) :
    lt a b = false ↔ le b a = true := by
  rcases LawfulPyFloat.le_total ha hb with h | h <;> simp [lt, h]

theorem lt_congr_left {a b c : F} (h : eq a b = true) : lt a c = lt b c := by
  obtain ⟨hab, hba⟩ := eq_eq_true.mp h
  have hle : le a c = le b c := by
    rw [Bool.eq_iff_iff]
    exact ⟨LawfulPyFloat.le_trans hba, LawfulPyFloat.le_trans hab⟩
  have hge : le c a = le c b := by
    rw [Bool.eq_iff_iff]
    exact ⟨fun h => LawfulPyFloat.le_trans h hab, fun h => LawfulPyFloat.le_trans h hba⟩
  rw [lt, lt, hle, hge]

theorem le_of_lt_false {a b : F} (ha : isFinite a = true) (hb : isFinite b = true)
    (h : lt a b = false) : le b a = true :=
  (lt_eq_false ha hb).mp h

theorem lt_of_lt_of_le {a b c : F} (hab : lt a b = true) (hbc : le b c = true) :
    lt a c = true := by
  simp only [lt_eq_true] at *
  refine ⟨LawfulPyFloat.le_trans hab.1 hbc, ?_⟩
  by_contra hca
  have := LawfulPyFloat.le_trans hbc (by simpa using hca)
  simp [hab.2] at this

theorem orderedOn_lt {l : List F} (h : ∀ a ∈ l, isFinite a = true) : OrderedOn lt l where
  total a ha b hb := by
    rw [lt_eq_false (h a ha) (h b hb), lt_eq_false (h b hb) (h a ha)]
    exact (LawfulPyFloat.le_total (h a ha) (h b hb)).symm
  trans a ha b hb c hc := by
    rw [lt_eq_false (h b hb) (h a ha), lt_eq_false (h c hc) (h b hb),
      lt_eq_false (h c hc) (h a ha)]
    exact LawfulPyFloat.le_trans

/-- The larger of two finite numbers is finite and at least both. -/
theorem max_spec {a b : F} (ha : isFinite a = true) (hb : isFinite b = true) :
    (max a b = a ∨ max a b = b) ∧ le a (max a b) = true ∧ le b (max a b) = true := by
  unfold max
  split
  · next h => exact ⟨Or.inr rfl, (lt_eq_true.mp h).1, LawfulPyFloat.le_refl hb⟩
  · next h =>
    have hlt : lt a b = false := Bool.eq_false_iff.mpr h
    exact ⟨Or.inl rfl, LawfulPyFloat.le_refl ha, le_of_lt_false ha hb hlt⟩

/-- A finite median of non-negative data is not negative. -/
theorem median_nonneg {data : List F} {m : F} (hdata : ∀ a ∈ data, le zero a = true)
    (hm : median data = some m) (hfin : isFinite m = true) : le zero m = true := by
  have hmem : ∀ {i : Nat} {a : F}, (sortedBy lt data)[i]? = some a → le zero a = true := by
    intro i a h
    exact hdata a (mem_sortedBy.mp (List.mem_of_getElem? h))
  simp only [median] at hm
  split_ifs at hm with h0 h1
  · exact hmem hm
  · simp only [Option.bind_eq_bind, Option.bind_eq_some_iff] at hm
    obtain ⟨a, ha, b, hb, hdiv⟩ := hm
    exact LawfulPyFloat.half_nonneg (hmem ha) (hmem hb) hdiv hfin

end PyFloat

/-! ### Exact arithmetic -/

/-- A number of exact arithmetic, with the infinities and NaN of Python. -/
inductive ExactFloat where
  | fin (q : ℚ)
  | inf (negative : Bool)
  | nan
  deriving DecidableEq

namespace ExactFloat

/-- Position on the extended line: below, among or above the rationals. -/
def level : ExactFloat → Option (Int × ℚ)
  | .fin q => some (0, q)
  | .inf true => some (-1, 0)
  | .inf false => some (1, 0)
  | .nan => none

def le (a b : ExactFloat) : Bool :=
  match a.level, b.level with
  | some (i, p), some (j, q) => decide (i < j ∨ i = j ∧ p ≤ q)
  | _, _ => false

def neg : ExactFloat → ExactFloat
  | .fin a => .fin (-a)
  | .inf s => .inf !s
  | .nan => .nan

def abs : ExactFloat → ExactFloat
  | .fin a => .fin |a|
  | .inf _ => .inf false
  | .nan => .nan

def add : ExactFloat → ExactFloat → ExactFloat
  | .fin a, .fin b => .fin (a + b)
  | .nan, _ => .nan
  | _, .nan => .nan
  | .inf s, .inf t => if s = t then .inf s else .nan
  | .inf s, .fin _ => .inf s
  | .fin _, .inf t => .inf t

/-- The infinity of a sign times a number. -/
def scaleInf (s : Bool) (q : ℚ) : ExactFloat :=
  if q = 0 then .nan else if q < 0 then .inf !s else .inf s

def mul : ExactFloat → ExactFloat → ExactFloat
  | .fin a, .fin b => .fin (a * b)
  | .nan, _ => .nan
  | _, .nan => .nan
  | .inf s, .inf t => .inf (s != t)
  | .inf s, .fin b => scaleInf s b
  | .fin a, .inf t => scaleInf t a

def truediv : ExactFloat → ExactFloat → Option ExactFloat
  | a, .fin b =>
    if b = 0 then none
    else match a with
      | .fin a => some (.fin (a / b))
      | .inf s => some (scaleInf s b)
      | .nan => some .nan
  | .fin _, .inf _ => some (.fin 0)
  | _, _ => some .nan

def isFinite : ExactFloat → Bool
  | .fin _ => true
  | _ => false

def isInf : ExactFloat → Bool
  | .inf _ => true
  | _ => false

/-- The rational value; 0 for the values that have none. -/
def toRat : ExactFloat → ℚ
  | .fin q => q
  | _ => 0

end ExactFloat

instance : PyFloat ExactFloat where
  le := ExactFloat.le
  isFinite := ExactFloat.isFinite
  isInf := ExactFloat.isInf
  inf := .inf false
  literal m k := .fin (m / 10 ^ k)
  ofInt i := some (.fin i)
  neg := ExactFloat.neg
  abs := ExactFloat.abs
  add := ExactFloat.add
  sub a b := ExactFloat.add a (ExactFloat.neg b)
  mul := ExactFloat.mul
  truediv := ExactFloat.truediv

namespace ExactFloat

open PyFloat (zero)

theorem isFinite_iff {a : ExactFloat} : PyFloat.isFinite a = true ↔ ∃ q, a = .fin q := by
  cases a <;> simp [PyFloat.isFinite, isFinite]

@[simp] theorem isFinite_fin (q : ℚ) : PyFloat.isFinite (fin q) = true := rfl

@[simp] theorem le_fin (a b : ℚ) : PyFloat.le (fin a) (fin b) = decide (a ≤ b) := by
  simp [PyFloat.le, le, level]

@[simp] theorem lt_fin (a b : ℚ) : PyFloat.lt (fin a) (fin b) = decide (a < b) := by
  rcases lt_or_ge a b with h | h
  · simp [PyFloat.lt, h, h.le]
  · simp [PyFloat.lt, h]

@[simp] theorem eq_fin (a b : ℚ) : PyFloat.eq (fin a) (fin b) = decide (a = b) := by
  rw [Bool.eq_iff_iff, PyFloat.eq_eq_true]
  simp only [le_fin, decide_eq_true_eq]
  exact le_antisymm_iff.symm

@[simp] theorem literal_def (m k : Nat) :
    (PyFloat.literal m k : ExactFloat) = fin (m / 10 ^ k) := rfl

@[simp] theorem zero_def : (zero : ExactFloat) = fin 0 := by
  simp [zero]

@[simp] theorem neg_fin (a : ℚ) : PyFloat.neg (fin a) = fin (-a) := rfl

@[simp] theorem abs_fin (a : ℚ) : PyFloat.abs (fin a) = fin |a| := rfl

@[simp] theorem add_fin (a b : ℚ) : PyFloat.add (fin a) (fin b) = fin (a + b) := rfl

@[simp] theorem sub_fin (a b : ℚ) : PyFloat.sub (fin a) (fin b) = fin (a - b) :=
  congrArg fin (sub_eq_add_neg a b).symm

@[simp] theorem mul_fin (a b : ℚ) : PyFloat.mul (fin a) (fin b) = fin (a * b) := rfl

theorem truediv_fin (a : ℚ) {b : ℚ} (h : b ≠ 0) :
    PyFloat.truediv (fin a) (fin b) = some (fin (a / b)) := by
  simp [PyFloat.truediv, truediv, h]

@[simp] theorem max_fin (a b : ℚ) : PyFloat.max (fin a) (fin b) = fin (max a b) := by
  rcases lt_or_ge a b with h | h
  · simp [PyFloat.max, h, h.le]
  · simp [PyFloat.max, h, not_lt.mpr h]

@[simp] theorem toRat_fin (q : ℚ) : toRat (fin q) = q := rfl

theorem fin_toRat {a : ExactFloat} (h : PyFloat.isFinite a = true) : fin a.toRat = a := by
  obtain ⟨q, rfl⟩ := isFinite_iff.mp h
  rfl

/-- The median of rational data: the middle element, or the mean of the middle
    two. -/
def ratMedian (data : List ℚ) : ℚ :=
  let data := sortedOn id data
  let n := data.length
  if n % 2 = 1 then data[n / 2]?.getD 0
  else (data[n / 2 - 1]?.getD 0 + data[n / 2]?.getD 0) / 2

/-- `statistics.median` of finite data is exact. -/
theorem median_fin {data : List ℚ} (h : data ≠ []) :
    PyFloat.median (data.map fin) = some (fin (ratMedian data)) := by
  have hsorted : sortedBy PyFloat.lt (data.map fin) = (sortedOn id data).map fin :=
    (map_sortedBy fin data fun a _ b _ => (lt_fin a b).symm).symm
  have hpos : 0 < (sortedOn id data).length := by
    rw [(perm_sortedOn id data).length_eq]
    exact List.length_pos_iff.mpr h
  simp only [PyFloat.median, ratMedian, hsorted, List.length_map, List.getElem?_map]
  obtain ⟨n, hn⟩ : ∃ n, n = (sortedOn id data).length := ⟨_, rfl⟩
  rw [← hn] at hpos ⊢
  have hmid : n / 2 < (sortedOn id data).length := by omega
  have hbelow : n / 2 - 1 < (sortedOn id data).length := by omega
  rw [if_neg (by omega)]
  split
  · simp [List.getElem?_eq_getElem hmid]
  · simp [List.getElem?_eq_getElem hmid, List.getElem?_eq_getElem hbelow, truediv_fin]

theorem level_inj {a b : ExactFloat} {x : Int × ℚ} (ha : a.level = some x)
    (hb : b.level = some x) : a = b := by
  obtain ⟨i, r⟩ := x
  rcases a with p | (_ | _) | _ <;> rcases b with q | (_ | _) | _ <;>
    simp only [level, Option.some.injEq, Prod.mk.injEq, reduceCtorEq] at ha hb <;>
    first
      | rfl
      | exact congrArg fin (ha.2.trans hb.2.symm)
      | (exfalso; omega)

theorem le_iff {a b : ExactFloat} : PyFloat.le a b = true ↔
    ∃ i p j q, a.level = some (i, p) ∧ b.level = some (j, q) ∧ (i < j ∨ i = j ∧ p ≤ q) := by
  show a.le b = true ↔ _
  unfold le
  split
  · next i p j q ha hb => simp [ha, hb]
  · next hne =>
    constructor
    · intro h
      exact absurd h (by decide)
    · rintro ⟨i, p, j, q, ha, hb, _⟩
      exact absurd hb (hne i p j q ha)

/-- Exact numbers that compare equal are equal. -/
theorem eq_of_eq {a b : ExactFloat} (h : PyFloat.eq a b = true) : a = b := by
  obtain ⟨hab, hba⟩ := PyFloat.eq_eq_true.mp h
  obtain ⟨i, p, j, q, ha, hb, hij⟩ := le_iff.mp hab
  obtain ⟨j', q', i', p', hb', ha', hji⟩ := le_iff.mp hba
  rw [ha, Option.some.injEq, Prod.mk.injEq] at ha'
  rw [hb, Option.some.injEq, Prod.mk.injEq] at hb'
  obtain ⟨rfl, rfl⟩ := ha'
  obtain ⟨rfl, rfl⟩ := hb'
  have hi : i = j := by omega
  have hp : p = q := by
    apply le_antisymm
    · exact (hij.resolve_left (by omega)).2
    · exact (hji.resolve_left (by omega)).2
  exact level_inj ha (by rw [hb, hi, hp])

end ExactFloat

instance : ExactPyFloat ExactFloat := ⟨ExactFloat.eq_of_eq⟩

instance : LawfulPyFloat ExactFloat where
  le_refl := by
    intro a ha
    obtain ⟨q, rfl⟩ := ExactFloat.isFinite_iff.mp ha
    simp
  le_total := by
    intro a b ha hb
    obtain ⟨p, rfl⟩ := ExactFloat.isFinite_iff.mp ha
    obtain ⟨q, rfl⟩ := ExactFloat.isFinite_iff.mp hb
    simpa using le_total p q
  le_trans := by
    intro a b c hab hbc
    obtain ⟨i, p, j, q, ha, hb, hij⟩ := ExactFloat.le_iff.mp hab
    obtain ⟨j', q', k, r, hb', hc, hjk⟩ := ExactFloat.le_iff.mp hbc
    rw [hb, Option.some.injEq, Prod.mk.injEq] at hb'
    obtain ⟨rfl, rfl⟩ := hb'
    refine ExactFloat.le_iff.mpr ⟨i, p, k, r, ha, hc, ?_⟩
    rcases hij with hij | ⟨rfl, hpq⟩
    · exact Or.inl (by omega)
    · rcases hjk with hjk | ⟨rfl, hqr⟩
      · exact Or.inl hjk
      · exact Or.inr ⟨rfl, le_trans hpq hqr⟩
  neg_le_neg := by
    intro a b ha hb
    obtain ⟨p, rfl⟩ := ExactFloat.isFinite_iff.mp ha
    obtain ⟨q, rfl⟩ := ExactFloat.isFinite_iff.mp hb
    simp
  finite_neg := by
    intro a ha
    obtain ⟨q, rfl⟩ := ExactFloat.isFinite_iff.mp ha
    rfl
  abs_nonneg := by
    intro a _
    cases a with
    | fin q => simp
    | inf s => exact ExactFloat.le_iff.mpr ⟨0, _, 1, 0, rfl, rfl, Or.inl (by decide)⟩
    | nan => simp_all [PyFloat.isFinite, PyFloat.abs, ExactFloat.abs, ExactFloat.isFinite]
  abs_sub_nonneg := by
    intro a b ha hb
    obtain ⟨p, rfl⟩ := ExactFloat.isFinite_iff.mp ha
    obtain ⟨q, rfl⟩ := ExactFloat.isFinite_iff.mp hb
    simp
  sub_nonneg := by
    intro a b ha hb _ hle
    obtain ⟨p, rfl⟩ := ExactFloat.isFinite_iff.mp ha
    obtain ⟨q, rfl⟩ := ExactFloat.isFinite_iff.mp hb
    simp only [ExactFloat.le_fin, decide_eq_true_eq] at hle
    simp [hle]
  half_nonneg := by
    intro a b c ha hb hdiv hc
    obtain ⟨q, rfl⟩ := ExactFloat.isFinite_iff.mp hc
    have hsum : ∃ s, PyFloat.add a b = .fin s ∧ q = s / 2 := by
      have htwo : (PyFloat.literal 2 0 : ExactFloat) = .fin 2 := by simp
      rw [htwo] at hdiv
      cases hadd : PyFloat.add a b with
      | fin s =>
        rw [hadd, ExactFloat.truediv_fin s (by norm_num)] at hdiv
        exact ⟨s, rfl, by simpa using hdiv.symm⟩
      | inf s =>
        rw [hadd] at hdiv
        have hpos : ¬ (2 : ℚ) < 0 := by norm_num
        simp [PyFloat.truediv, ExactFloat.truediv, ExactFloat.scaleInf, hpos] at hdiv
      | nan =>
        rw [hadd] at hdiv
        simp [PyFloat.truediv, ExactFloat.truediv] at hdiv
    obtain ⟨s, hs, rfl⟩ := hsum
    -- a finite sum has finite summands
    cases a with
    | fin p =>
      cases b with
      | fin r =>
        simp only [ExactFloat.zero_def, ExactFloat.le_fin, decide_eq_true_eq,
          ExactFloat.add_fin, ExactFloat.fin.injEq] at *
        linarith
      | inf t => simp [PyFloat.add, ExactFloat.add] at hs
      | nan => simp [PyFloat.add, ExactFloat.add] at hs
    | inf t =>
      cases b with
      | inf u => simp only [PyFloat.add, ExactFloat.add] at hs; split at hs <;> simp at hs
      | _ => simp [PyFloat.add, ExactFloat.add] at hs
    | nan => cases b <;> simp [PyFloat.add, ExactFloat.add] at hs
  finite_zero := rfl
  isInf_inf := rfl
  zero_le_inf := ExactFloat.le_iff.mpr ⟨0, _, 1, 0, rfl, rfl, Or.inl (by decide)⟩

end Py
