import IncidentEvidence.Py.Datetime
import IncidentEvidence.Py.Uuid
import Mathlib.Data.Prod.Lex

/-! # The order of rendered timestamps

    The calendar date of a later day is larger, year before month before day, and
    every field of a timestamp has a fixed width. So timestamps are ordered as
    text the way they are ordered in time (`Datetime.naive_lt_iff`).
-/

namespace Py

/-! ### Dates -/

/-- A later day of one year has a larger month, or the same and a larger day. -/
theorem monthDay_lt (leap : Bool) {i j : Nat} (hij : i < j) (hj : j < 366) :
    toLex (monthDay leap i) < toLex (monthDay leap j) := by
  have hstep : ∀ b : Bool, ∀ k < 365, toLex (monthDay b k) < toLex (monthDay b (k + 1)) := by
    decide +kernel
  induction j with
  | zero => omega
  | succ j ih =>
    have hlast := hstep leap j (by omega)
    by_cases h : i = j
    · rw [h]
      exact hlast
    · exact lt_trans (ih (by omega) (by omega)) hlast

theorem isLeap_iff {year : Nat} :
    isLeap year = true ↔ year % 4 = 0 ∧ (year % 100 ≠ 0 ∨ year % 400 = 0) := by
  simp [isLeap]

theorem daysBeforeYear_succ {year : Nat} (hpos : 0 < year) :
    daysBeforeYear (year + 1) =
      daysBeforeYear year + if isLeap year = true then 366 else 365 := by
  obtain ⟨y, rfl⟩ : ∃ y, year = y + 1 := ⟨year - 1, by omega⟩
  have h4 : (y + 1) / 4 = y / 4 + if (y + 1) % 4 = 0 then 1 else 0 := by
    split <;> omega
  have h100 : (y + 1) / 100 = y / 100 + if (y + 1) % 100 = 0 then 1 else 0 := by
    split <;> omega
  have h400 : (y + 1) / 400 = y / 400 + if (y + 1) % 400 = 0 then 1 else 0 := by
    split <;> omega
  have hle : y / 100 ≤ y / 4 := by omega
  unfold daysBeforeYear
  simp only [Nat.add_sub_cancel, isLeap_iff, h4, h100, h400]
  -- every fourth year, but of the centuries only every fourth
  by_cases hc4 : (y + 1) % 4 = 0
  · by_cases hc100 : (y + 1) % 100 = 0
    · by_cases hc400 : (y + 1) % 400 = 0
      · rw [if_pos hc4, if_pos hc100, if_pos hc400, if_pos ⟨hc4, Or.inr hc400⟩]
        omega
      · rw [if_pos hc4, if_pos hc100, if_neg hc400, if_neg (by omega)]
        omega
    · rw [if_pos hc4, if_neg hc100, if_neg (by omega), if_pos ⟨hc4, Or.inl hc100⟩]
      omega
  · rw [if_neg hc4, if_neg (by omega), if_neg (by omega), if_neg (by omega)]
    omega

theorem daysBeforeYear_mono {year later : Nat} (hpos : 0 < year) (h : year ≤ later) :
    daysBeforeYear year ≤ daysBeforeYear later := by
  induction later, h using Nat.le_induction with
  | base => exact le_refl _
  | succ later hle ih =>
    rw [daysBeforeYear_succ (by omega)]
    omega

/-- **A later day has a later date.** -/
theorem ord2ymd_lt {m n : Nat} (hpos : 0 < m) (h : m < n) :
    (ord2ymd m).1 < (ord2ymd n).1 ∨ (ord2ymd m).1 = (ord2ymd n).1 ∧
      ((ord2ymd m).2.1 < (ord2ymd n).2.1 ∨ (ord2ymd m).2.1 = (ord2ymd n).2.1 ∧
        (ord2ymd m).2.2 < (ord2ymd n).2.2) := by
  obtain ⟨year, i, heq, hyear, hm, -, -⟩ := ord2ymd_eq hpos
  obtain ⟨year', j, heq', hyear', hn, hj, hcommon⟩ := ord2ymd_eq (lt_trans hpos h)
  rw [heq, heq']
  rcases Nat.lt_trichotomy year year' with hlt | rfl | hgt
  · exact Or.inl hlt
  · have hday := Prod.Lex.toLex_lt_toLex.mp (monthDay_lt (isLeap year) (by omega : i < j) hj)
    exact Or.inr ⟨rfl, hday⟩
  · -- a year that begins after the later day
    have hend := daysBeforeYear_mono (by omega) (by omega : year' + 1 ≤ year)
    rw [daysBeforeYear_succ hyear'] at hend
    by_cases hleap : isLeap year' = true
    · rw [if_pos hleap] at hend
      omega
    · have := hcommon (Bool.eq_false_iff.mpr hleap)
      rw [if_neg hleap] at hend
      omega

/-! ### Timestamps -/

/-- Texts that begin with a number of one width. -/
theorem fixedDigits_append_lt {width m n : Nat} {r s : Str} (hm : m < 10 ^ width)
    (hn : n < 10 ^ width) :
    fixedDigits 10 width m ++ r < fixedDigits 10 width n ++ s ↔ m < n ∨ m = n ∧ r < s := by
  rw [append_lt_append_iff (by simp), fixedDigits_lt_iff (by decide) (by decide) hm hn]
  apply or_congr Iff.rfl
  apply and_congr_left'
  constructor
  · exact fixedDigits_inj (by decide) (by decide) hm hn
  · exact fun heq => by rw [heq]

/-- Texts with one separator in front. -/
theorem separator_append_lt {sep : String} {r s : Str} : str sep ++ r < str sep ++ s ↔ r < s := by
  rw [append_lt_append_iff rfl]
  simp

theorem Datetime.ordinal_le (t : Datetime) : t.ordinal ≤ 3652059 := by
  have hrange := t.inRange
  unfold Datetime.ordinal
  simp only [maxMicros, microsPerDay] at *
  omega

theorem Datetime.naive_lt_of_lt {s t : Datetime} (h : s < t) : s.naive < t.naive := by
  have hlt : s.micros < t.micros := h
  have hpos : ∀ u : Datetime, 0 < u.ordinal := fun u => Nat.succ_pos _
  obtain ⟨-, hsm, hsd⟩ := ord2ymd_spec (hpos s)
  obtain ⟨-, htm, htd⟩ := ord2ymd_spec (hpos t)
  have hsy := ord2ymd_year_lt s.ordinal_le
  have hty := ord2ymd_year_lt t.ordinal_le
  unfold Datetime.naive
  simp only [List.append_assoc, microsPerDay]
  rw [fixedDigits_append_lt (by omega) (by omega), separator_append_lt,
    fixedDigits_append_lt (by omega) (by omega), separator_append_lt,
    fixedDigits_append_lt (by omega) (by omega), separator_append_lt,
    fixedDigits_append_lt (by omega) (by omega), separator_append_lt,
    fixedDigits_append_lt (by omega) (by omega), separator_append_lt,
    fixedDigits_append_lt (by omega) (by omega), separator_append_lt,
    fixedDigits_lt_iff (by decide) (by decide) (by omega) (by omega)]
  rcases Nat.lt_or_ge s.ordinal t.ordinal with hday | hday
  · rcases ord2ymd_lt (hpos s) hday with hy | ⟨hy, hm | ⟨hm, hd⟩⟩
    · exact Or.inl hy
    · exact Or.inr ⟨hy, Or.inl hm⟩
    · exact Or.inr ⟨hy, Or.inr ⟨hm, Or.inl hd⟩⟩
  · -- two instants of one day
    have hsame : s.ordinal = t.ordinal := by
      unfold Datetime.ordinal at *
      simp only [microsPerDay] at *
      omega
    have hmicros : s.micros / 86400000000 = t.micros / 86400000000 := by
      unfold Datetime.ordinal at hsame
      simp only [microsPerDay] at hsame
      omega
    rw [hsame]
    refine Or.inr ⟨rfl, Or.inr ⟨rfl, Or.inr ⟨rfl, ?_⟩⟩⟩
    omega

/-- **Rendering keeps the order of time.** -/
theorem Datetime.naive_lt_iff {s t : Datetime} : s.naive < t.naive ↔ s < t := by
  constructor
  · intro h
    by_contra hnot
    rcases lt_or_eq_of_le (not_lt.mp hnot) with hlt | rfl
    · exact lt_asymm h (Datetime.naive_lt_of_lt hlt)
    · exact lt_irrefl _ h
  · exact Datetime.naive_lt_of_lt

end Py
