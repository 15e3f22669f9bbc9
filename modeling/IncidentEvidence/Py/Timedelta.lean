import IncidentEvidence.Py.Float
import Mathlib.Data.Rat.Floor

/-! # Durations

    `datetime.timedelta`: a whole number of microseconds in a fixed range of days.
    `timedelta(seconds=x)` of a float rounds to the nearest microsecond, a tie to the even
    one, and raises when there is no such duration. -/

namespace Py

/-! ### Rounding -/

/-- The nearest integer, the even one of two. -/
def roundHalfEven (q : ℚ) : Int :=
  let whole := ⌊q⌋
  let fraction := q - whole
  if fraction < 1 / 2 then whole
  else if 1 / 2 < fraction then whole + 1
  else if whole % 2 = 0 then whole
  else whole + 1

/-- The rounded number is within a half, and even if it is exactly a half away. -/
theorem roundHalfEven_spec (q : ℚ) :
    (roundHalfEven q : ℚ) - 1 / 2 ≤ q ∧ q ≤ roundHalfEven q + 1 / 2 ∧
      (roundHalfEven q % 2 = 0 ∨
        (roundHalfEven q : ℚ) - 1 / 2 < q ∧ q < roundHalfEven q + 1 / 2) := by
  have hle : (⌊q⌋ : ℚ) ≤ q := Int.floor_le q
  have hlt : q < ⌊q⌋ + 1 := Int.lt_floor_add_one q
  unfold roundHalfEven
  by_cases hbelow : q - ⌊q⌋ < 1 / 2
  · simp only [hbelow, if_true]
    exact ⟨by linarith, by linarith, .inr ⟨by linarith, by linarith⟩⟩
  · simp only [hbelow, if_false]
    by_cases habove : 1 / 2 < q - ⌊q⌋
    · simp only [habove, if_true]
      push_cast
      exact ⟨by linarith, by linarith, .inr ⟨by linarith, by linarith⟩⟩
    · simp only [habove, if_false]
      by_cases heven : ⌊q⌋ % 2 = 0
      · rw [if_pos heven]
        exact ⟨by linarith, by linarith, .inl heven⟩
      · rw [if_neg heven]
        push_cast
        exact ⟨by linarith, by linarith, .inl (by omega)⟩

/-- The numbers that round to at most an even one. -/
theorem roundHalfEven_le_iff {q : ℚ} {n : Int} (hn : n % 2 = 0) :
    roundHalfEven q ≤ n ↔ q ≤ n + 1 / 2 := by
  obtain ⟨hlow, hhigh, htie⟩ := roundHalfEven_spec q
  constructor
  · intro h
    have hcast : (roundHalfEven q : ℚ) ≤ n := by exact_mod_cast h
    linarith
  · intro h
    by_contra hgt
    have hcast : (n : ℚ) + 1 ≤ roundHalfEven q := by exact_mod_cast not_le.mp hgt
    rcases htie with heven | ⟨hstrict, -⟩
    · -- two even numbers are two apart
      have hnext : n + 2 ≤ roundHalfEven q := by omega
      have hcast : (n : ℚ) + 2 ≤ roundHalfEven q := by exact_mod_cast hnext
      linarith
    · linarith

/-- The numbers that round below an even one. -/
theorem roundHalfEven_lt_iff {q : ℚ} {n : Int} (hn : n % 2 = 0) :
    roundHalfEven q < n ↔ q < n - 1 / 2 := by
  obtain ⟨hlow, hhigh, htie⟩ := roundHalfEven_spec q
  constructor
  · intro h
    have hcast : (roundHalfEven q : ℚ) + 1 ≤ n := by exact_mod_cast h
    rcases htie with heven | ⟨-, hstrict⟩
    · have hnext : roundHalfEven q + 2 ≤ n := by omega
      have hcast : (roundHalfEven q : ℚ) + 2 ≤ n := by exact_mod_cast hnext
      linarith
    · linarith
  · intro h
    by_contra hge
    have hcast : (n : ℚ) ≤ roundHalfEven q := by exact_mod_cast not_lt.mp hge
    linarith

/-! ### Durations -/

/-- The microseconds of `timedelta(days=1)`. -/
def Timedelta.day : Int := 86400000000

/-- `timedelta.max.days`. -/
def Timedelta.maxDays : Int := 999999999

/-- A `timedelta`, in microseconds. -/
structure Timedelta where
  micros : Int
  inRange : -(Timedelta.maxDays * Timedelta.day) ≤ micros ∧
    micros < (Timedelta.maxDays + 1) * Timedelta.day

/-- The exceptions of `timedelta(seconds=x)`. -/
inductive DurationError where
  /-- `x` is NaN. -/
  | value
  /-- `x` is infinite or out of range. -/
  | overflow
  deriving DecidableEq

namespace Timedelta

/-- `timedelta(seconds=x)`, rounded once from the exact product; CPython multiplies the
    fraction of a second by `1e6` in doubles first, which may give the next microsecond. -/
def ofSeconds : ExactFloat → Except DurationError Timedelta
  | .fin q =>
    let micros := roundHalfEven (q * 1000000)
    if h : -(maxDays * day) ≤ micros ∧ micros < (maxDays + 1) * day then .ok ⟨micros, h⟩
    else .error .overflow
  | .inf _ => .error .overflow
  | .nan => .error .value

/-- **The durations that are strictly positive**: more than half a microsecond, and less
    than `timedelta.max` and another half. -/
theorem exists_positive_ofSeconds {x : ExactFloat} :
    (∃ d, ofSeconds x = .ok d ∧ 0 < d.micros) ↔
      ∃ q, x = .fin q ∧ 1 / 2000000 < q ∧ q < 86400000000000 - 1 / 2000000 := by
  cases x with
  | inf sign => simp [ofSeconds]
  | nan => simp [ofSeconds]
  | fin q =>
    -- half a microsecond rounds to the even zero
    have hpositive : 0 < roundHalfEven (q * 1000000) ↔ 1 / 2000000 < q := by
      rw [← not_le, roundHalfEven_le_iff (by decide), not_le]
      constructor
      · intro h
        push_cast at h
        linarith
      · intro h
        push_cast
        linarith
    -- and half a microsecond below the range is rounded out of it
    have hbounded : roundHalfEven (q * 1000000) < (maxDays + 1) * day ↔
        q < 86400000000000 - 1 / 2000000 := by
      rw [roundHalfEven_lt_iff (by decide)]
      unfold maxDays day
      constructor
      · intro h
        push_cast at h
        linarith
      · intro h
        push_cast
        linarith
    constructor
    · intro h
      obtain ⟨d, hd, hmicros⟩ := h
      by_cases hrange : -(maxDays * day) ≤ roundHalfEven (q * 1000000) ∧
          roundHalfEven (q * 1000000) < (maxDays + 1) * day
      · have hrounded : roundHalfEven (q * 1000000) = d.micros := by
          have : (⟨roundHalfEven (q * 1000000), hrange⟩ : Timedelta) = d := by
            simpa [ofSeconds, hrange] using hd
          rw [← this]
        rw [← hrounded] at hmicros
        exact ⟨q, rfl, hpositive.mp hmicros, hbounded.mp hrange.2⟩
      · exact absurd hd (by simp [ofSeconds, hrange])
    · intro h
      obtain ⟨seconds, hseconds, hlow, hhigh⟩ := h
      rw [← ExactFloat.fin.inj hseconds] at hlow hhigh
      have hmicros := hpositive.mpr hlow
      have hrange : -(maxDays * day) ≤ roundHalfEven (q * 1000000) ∧
          roundHalfEven (q * 1000000) < (maxDays + 1) * day := by
        refine ⟨?_, hbounded.mpr hhigh⟩
        have hday : -(maxDays * day) ≤ 0 := by decide
        omega
      exact ⟨⟨_, hrange⟩, dif_pos hrange, hmicros⟩

end Timedelta

end Py
