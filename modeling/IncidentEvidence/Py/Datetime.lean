import IncidentEvidence.Py.Str
import Mathlib.Data.List.Perm.Subperm
import Mathlib.Order.Basic
import Mathlib.Tactic.NormNum

/-! # UTC timestamps

    An aware `datetime` in UTC is a count of microseconds from 0001-01-01, the
    calendar being proleptic Gregorian as in CPython's `datetime`. Rendering goes
    through the day ordinal and `ord2ymd`, and `ymd2ord` takes the rendered date
    back, so two timestamps with one text are the same instant
    (`naive_injective`).
-/

namespace Py

/-! ### Calendar -/

def isLeap (year : Nat) : Bool := year % 4 == 0 && (year % 100 != 0 || year % 400 == 0)

/-- Days before 1 January of a year (`_days_before_year`). -/
def daysBeforeYear (year : Nat) : Nat :=
  let y := year - 1
  y * 365 + y / 4 - y / 100 + y / 400

/-- `_DAYS_BEFORE_MONTH`, for a common year. -/
def daysBeforeMonthTable : List Nat := [0, 0, 31, 59, 90, 120, 151, 181, 212, 243, 273, 304, 334]

/-- `_DAYS_IN_MONTH`, for a common year. -/
def daysInMonthTable : List Nat := [0, 31, 28, 31, 30, 31, 30, 31, 31, 30, 31, 30, 31]

def daysBeforeMonth (leap : Bool) (month : Nat) : Nat :=
  daysBeforeMonthTable.getD month 0 + if month > 2 ∧ leap = true then 1 else 0

/-- `_ymd2ord`: the day ordinal, 1 being 0001-01-01. -/
def ymd2ord (year month day : Nat) : Nat :=
  daysBeforeYear year + daysBeforeMonth (isLeap year) month + day

/-- Month and day of day `n` (from 0) of a year. -/
def monthDay (leap : Bool) (n : Nat) : Nat × Nat :=
  let month := (n + 50) / 32
  let preceding := daysBeforeMonth leap month
  if preceding > n then
    let month := month - 1
    let preceding := preceding -
      (daysInMonthTable.getD month 0 + if month = 2 ∧ leap = true then 1 else 0)
    (month, n - preceding + 1)
  else (month, n - preceding + 1)

/-- `_ord2ymd`. -/
def ord2ymd (ordinal : Nat) : Nat × Nat × Nat :=
  let n := ordinal - 1
  let n400 := n / 146097
  let n := n % 146097
  let n100 := n / 36524
  let n := n % 36524
  let n4 := n / 1461
  let n := n % 1461
  let n1 := n / 365
  let n := n % 365
  let year := n400 * 400 + 1 + n100 * 100 + n4 * 4 + n1
  if n1 = 4 ∨ n100 = 4 then (year - 1, 12, 31)
  else
    let leap := n1 == 3 && (n4 != 24 || n100 == 3)
    (year, monthDay leap n)

/-- The month and day of a day of the year give that day back. -/
theorem monthDay_spec (leap : Bool) (n : Nat) (hn : n < 366) (hcommon : leap = false → n < 365) :
    daysBeforeMonth leap (monthDay leap n).1 + (monthDay leap n).2 = n + 1 ∧
      (monthDay leap n).1 < 100 ∧ (monthDay leap n).2 < 100 := by
  have key : ∀ b : Bool, ∀ k < 366, (b = false → k < 365) →
      daysBeforeMonth b (monthDay b k).1 + (monthDay b k).2 = k + 1 ∧
        (monthDay b k).1 < 100 ∧ (monthDay b k).2 < 100 := by
    decide +kernel
  exact key leap n hn hcommon

/-- Days before the year at offset `100 b + 4 c + d` of the `a`-th 400-year cycle. -/
theorem daysBeforeYear_cycle {a b c d : Nat} (hb : b ≤ 3) (hc : c ≤ 24) (hd : d ≤ 3) :
    daysBeforeYear (a * 400 + 1 + b * 100 + c * 4 + d) =
      146097 * a + 36524 * b + 1461 * c + 365 * d := by
  have hy : a * 400 + 1 + b * 100 + c * 4 + d - 1 = 400 * a + 100 * b + 4 * c + d := by omega
  simp only [daysBeforeYear, hy]
  have h4 : (400 * a + 100 * b + 4 * c + d) / 4 = 100 * a + 25 * b + c := by omega
  have h100 : (400 * a + 100 * b + 4 * c + d) / 100 = 4 * a + b := by omega
  have h400 : (400 * a + 100 * b + 4 * c + d) / 400 = a := by omega
  rw [h4, h100, h400]
  omega

theorem isLeap_cycle {a b c d : Nat} (hb : b ≤ 3) (hc : c ≤ 24) (hd : d ≤ 3) :
    isLeap (a * 400 + 1 + b * 100 + c * 4 + d) = (d == 3 && (c != 24 || b == 3)) := by
  rw [Bool.eq_iff_iff]
  simp only [isLeap, Bool.and_eq_true, Bool.or_eq_true, beq_iff_eq, bne_iff_ne, ne_eq]
  omega

/-- `_ord2ymd` finds the year, and the month and day of the day of that year. -/
theorem ord2ymd_eq {ordinal : Nat} (hpos : 0 < ordinal) : ∃ year n,
    ord2ymd ordinal = (year, monthDay (isLeap year) n) ∧ 0 < year ∧
      ordinal = daysBeforeYear year + n + 1 ∧ n < 366 ∧ (isLeap year = false → n < 365) := by
  -- the ordinal in 400-, 100-, 4- and 1-year cycles and a day of the year
  obtain ⟨a, ha⟩ : ∃ a, a = (ordinal - 1) / 146097 := ⟨_, rfl⟩
  obtain ⟨b, hb⟩ : ∃ b, b = (ordinal - 1) % 146097 / 36524 := ⟨_, rfl⟩
  obtain ⟨c, hc⟩ : ∃ c, c = (ordinal - 1) % 146097 % 36524 / 1461 := ⟨_, rfl⟩
  obtain ⟨d, hd⟩ : ∃ d, d = (ordinal - 1) % 146097 % 36524 % 1461 / 365 := ⟨_, rfl⟩
  obtain ⟨e, he⟩ : ∃ e, e = (ordinal - 1) % 146097 % 36524 % 1461 % 365 := ⟨_, rfl⟩
  have hsum : ordinal = 146097 * a + 36524 * b + 1461 * c + 365 * d + e + 1 := by omega
  have hb4 : b ≤ 4 := by omega
  have hc24 : c ≤ 24 := by omega
  have hd4 : d ≤ 4 := by omega
  have he365 : e < 365 := by omega
  simp only [ord2ymd, ← ha, ← hb, ← hc, ← hd, ← he]
  split
  · next hlast =>
    -- 31 December of a leap year that ends a cycle
    have hyear : ∃ b' c', b' ≤ 3 ∧ c' ≤ 24 ∧ (c' ≠ 24 ∨ b' = 3) ∧
        a * 400 + 1 + b * 100 + c * 4 + d - 1 = a * 400 + 1 + b' * 100 + c' * 4 + 3 ∧
        ordinal = 146097 * a + 36524 * b' + 1461 * c' + 365 * 3 + 366 := by
      by_cases h100 : b = 4
      · exact ⟨3, 24, by omega, by omega, by omega, by omega, by omega⟩
      · exact ⟨b, c, by omega, by omega, by omega, by omega, by omega⟩
    obtain ⟨b', c', hb', hc', hleap, heq, hord⟩ := hyear
    have hl : (3 == 3 && (c' != 24 || b' == 3)) = true := by
      simp only [beq_self_eq_true, Bool.true_and, Bool.or_eq_true, bne_iff_ne, beq_iff_eq]
      exact hleap
    rw [heq]
    refine ⟨a * 400 + 1 + b' * 100 + c' * 4 + 3, 365, ?_, by omega, ?_, by omega, ?_⟩
    · rw [isLeap_cycle hb' hc' (le_refl 3), hl]
      rfl
    · rw [daysBeforeYear_cycle hb' hc' (le_refl 3)]
      omega
    · rw [isLeap_cycle hb' hc' (le_refl 3), hl]
      simp
  · next hlast =>
    have hb3 : b ≤ 3 := by omega
    have hd3 : d ≤ 3 := by omega
    refine ⟨a * 400 + 1 + b * 100 + c * 4 + d, e, ?_, by omega, ?_, by omega, fun _ => he365⟩
    · rw [isLeap_cycle hb3 hc24 hd3]
    · rw [daysBeforeYear_cycle hb3 hc24 hd3]
      omega

/-- `_ymd2ord` takes back what `_ord2ymd` gives. -/
theorem ord2ymd_spec {ordinal : Nat} (hpos : 0 < ordinal) :
    ymd2ord (ord2ymd ordinal).1 (ord2ymd ordinal).2.1 (ord2ymd ordinal).2.2 = ordinal ∧
      (ord2ymd ordinal).2.1 < 100 ∧ (ord2ymd ordinal).2.2 < 100 := by
  obtain ⟨year, n, heq, -, hordinal, hn, hcommon⟩ := ord2ymd_eq hpos
  obtain ⟨hday, hmonth, hdd⟩ := monthDay_spec (isLeap year) n hn hcommon
  rw [heq]
  refine ⟨?_, hmonth, hdd⟩
  simp only [ymd2ord]
  omega

/-- A day up to 9999-12-31 has a year of four digits. -/
theorem ord2ymd_year_lt {ordinal : Nat} (h : ordinal ≤ 3652059) : (ord2ymd ordinal).1 < 10000 := by
  simp only [ord2ymd]
  split <;> simp only <;> omega

/-! ### Instants -/

def microsPerDay : Nat := 86400000000

/-- Microseconds in the years 1 to 9999. -/
def maxMicros : Nat := 3652059 * 86400000000

/-- An aware `datetime` in UTC, as microseconds from 0001-01-01T00:00:00. -/
structure Datetime where
  micros : Nat
  inRange : micros < maxMicros
  deriving DecidableEq

theorem Datetime.zero_lt : 0 < maxMicros := by decide

theorem Datetime.one_lt : 1 < maxMicros := by decide

theorem Datetime.five_lt : 5 < maxMicros := by decide

theorem Datetime.ten_lt : 10 < maxMicros := by decide

theorem Datetime.fifteen_lt : 15 < maxMicros := by decide

theorem Datetime.twenty_lt : 20 < maxMicros := by decide

theorem Datetime.halfMinute_lt : 30000000 < maxMicros := by decide

theorem Datetime.micros_injective : Function.Injective Datetime.micros := by
  rintro ⟨a, _⟩ ⟨b, _⟩ h
  simpa using h

instance : LinearOrder Datetime := LinearOrder.lift' Datetime.micros Datetime.micros_injective

/-- `datetime + timedelta`; `none` is `OverflowError`. -/
def Datetime.add (t : Datetime) (micros : Int) : Option Datetime :=
  if h : 0 ≤ (t.micros : Int) + micros ∧ ((t.micros : Int) + micros).toNat < maxMicros then
    some ⟨((t.micros : Int) + micros).toNat, h.2⟩
  else none

/-- There are only so many instants. -/
theorem length_le_of_increasing {l : List Datetime} (h : l.Pairwise (· < ·)) :
    l.length ≤ maxMicros := by
  have hnodup : (l.map Datetime.micros).Nodup :=
    (h.imp fun hab => ne_of_lt hab).map _ fun a b hab heq => hab (Datetime.micros_injective heq)
  have hsub : l.map Datetime.micros ⊆ List.range maxMicros := by
    intro m hm
    obtain ⟨t, _, rfl⟩ := List.mem_map.mp hm
    exact List.mem_range.mpr t.inRange
  simpa using (List.Nodup.subperm hnodup hsub).length_le

/-! ### Rendering -/

def Datetime.ordinal (t : Datetime) : Nat := t.micros / microsPerDay + 1

/-- The date and time of an instant, without its offset. -/
def Datetime.naive (t : Datetime) : Str :=
  let (year, month, day) := ord2ymd t.ordinal
  let us := t.micros % microsPerDay
  fixedDigits 10 4 year ++ str "-" ++ fixedDigits 10 2 month ++ str "-" ++ fixedDigits 10 2 day ++
    str "T" ++ fixedDigits 10 2 (us / 3600000000) ++ str ":" ++
    fixedDigits 10 2 (us / 60000000 % 60) ++ str ":" ++ fixedDigits 10 2 (us / 1000000 % 60) ++
    str "." ++ fixedDigits 10 6 (us % 1000000)

/-- `isoformat(timespec="microseconds")` of an instant in UTC. -/
def Datetime.isoformat (t : Datetime) : Str := t.naive ++ str "+00:00"

theorem Datetime.naive_injective : Function.Injective Datetime.naive := by
  intro s t h
  have hs := s.inRange
  have ht := t.inRange
  simp only [maxMicros] at hs ht
  simp only [Datetime.naive, List.append_assoc] at h
  have hord : ∀ u : Datetime, u.micros < 3652059 * 86400000000 → u.ordinal ≤ 3652059 := by
    intro u hu
    simp only [Datetime.ordinal, microsPerDay]
    omega
  have hpos : ∀ u : Datetime, 0 < u.ordinal := fun u => by simp [Datetime.ordinal]
  obtain ⟨hs_spec, hsm, hsd⟩ := ord2ymd_spec (hpos s)
  obtain ⟨ht_spec, htm, htd⟩ := ord2ymd_spec (hpos t)
  have hsy := ord2ymd_year_lt (hord s hs)
  have hty := ord2ymd_year_lt (hord t ht)
  simp only [microsPerDay] at h
  -- peel the fixed-width fields off one by one
  obtain ⟨hyear, h⟩ := List.append_inj h (by simp)
  obtain ⟨-, h⟩ := List.append_inj h (by simp)
  obtain ⟨hmonth, h⟩ := List.append_inj h (by simp)
  obtain ⟨-, h⟩ := List.append_inj h (by simp)
  obtain ⟨hday, h⟩ := List.append_inj h (by simp)
  obtain ⟨-, h⟩ := List.append_inj h (by simp)
  obtain ⟨hhour, h⟩ := List.append_inj h (by simp)
  obtain ⟨-, h⟩ := List.append_inj h (by simp)
  obtain ⟨hmin, h⟩ := List.append_inj h (by simp)
  obtain ⟨-, h⟩ := List.append_inj h (by simp)
  obtain ⟨hsec, h⟩ := List.append_inj h (by simp)
  obtain ⟨-, hmicro⟩ := List.append_inj h (by simp)
  have hyear := fixedDigits_inj (by decide) (by decide) (by omega) (by omega) hyear
  have hmonth := fixedDigits_inj (by decide) (by decide) (by omega) (by omega) hmonth
  have hday := fixedDigits_inj (by decide) (by decide) (by omega) (by omega) hday
  have hhour := fixedDigits_inj (by decide) (by decide) (by omega) (by omega) hhour
  have hmin := fixedDigits_inj (by decide) (by decide) (by omega) (by omega) hmin
  have hsec := fixedDigits_inj (by decide) (by decide) (by omega) (by omega) hsec
  have hmicro := fixedDigits_inj (by decide) (by decide) (by omega) (by omega) hmicro
  have hordinal : s.ordinal = t.ordinal := by
    rw [← hs_spec, ← ht_spec, hyear, hmonth, hday]
  apply Datetime.micros_injective
  simp only [Datetime.ordinal, microsPerDay] at hordinal
  omega

end Py
