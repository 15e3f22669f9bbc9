import IncidentEvidence.Domain.RelatedRankings
import IncidentEvidence.Domain.Verdicts

/-! # Units

    The ranking in exact arithmetic when signals are measured in other units. An
    affine map `v ↦ a * v + b` of the values of a signal, with its scale floor
    multiplied by `|a|`, multiplies the difference of the medians by `a` and every
    part of the scale by `|a|`, as long as the relative floor has no part in it or
    `b` is zero. So the signed score keeps its size and takes the sign of `a`.

    **`units_independent`** puts this through the two sorts and the decision.
-/

namespace IncidentEvidence

open Py PyFloat ExactFloat

/-! ### Signals in other units -/

/-- The values of a signal under a map; the instants stay. -/
def MetricSignal.mapValues (f : ℚ → ℚ) (s : MetricSignal ExactFloat) : MetricSignal ExactFloat where
  key := s.key
  keyValid := s.keyValid
  points := s.points.map fun p => ⟨p.observedAt, .fin (f p.value.toRat), rfl⟩
  increasing := by
    rw [List.pairwise_map]
    exact s.increasing

namespace SignalBaselineInput

variable (item : SignalBaselineInput ExactFloat)

/-- The values and the floor multiplied by `c`. -/
def rescaled (c : ℚ) (hc : 0 < c) : SignalBaselineInput ExactFloat where
  signal := item.signal.mapValues fun v => c * v
  absoluteScaleFloor := .fin (c * item.absoluteScaleFloor.toRat)
  finite := rfl
  positive := by
    have hfloor : 0 < item.absoluteScaleFloor.toRat := floor_pos
    simpa using mul_pos hc hfloor

/-- The values negated. -/
def negated : SignalBaselineInput ExactFloat :=
  { item with signal := item.signal.mapValues fun v => -v }

/-- The constant `b` added to the values. -/
def shifted (b : ℚ) : SignalBaselineInput ExactFloat :=
  { item with signal := item.signal.mapValues fun v => v + b }

end SignalBaselineInput

/-- The second input is the first one after `v ↦ a * v + b`. -/
structure Reexpressed (a b : ℚ) (item item' : SignalBaselineInput ExactFloat) : Prop where
  nonzero : a ≠ 0
  signal : item'.signal = item.signal.mapValues fun v => a * v + b
  floor : item'.absoluteScaleFloor = .fin (|a| * item.absoluteScaleFloor.toRat)

theorem reexpressed_rescaled (item : SignalBaselineInput ExactFloat) {c : ℚ} (hc : 0 < c) :
    Reexpressed c 0 item (item.rescaled c hc) where
  nonzero := hc.ne'
  signal := by simp [SignalBaselineInput.rescaled]
  floor := by simp [SignalBaselineInput.rescaled, abs_of_pos hc]

theorem reexpressed_negated (item : SignalBaselineInput ExactFloat) :
    Reexpressed (-1) 0 item item.negated where
  nonzero := by norm_num
  signal := by simp [SignalBaselineInput.negated]
  floor := by simp [SignalBaselineInput.negated, fin_toRat item.finite]

theorem reexpressed_shifted (item : SignalBaselineInput ExactFloat) (b : ℚ) :
    Reexpressed 1 b item (item.shifted b) where
  nonzero := one_ne_zero
  signal := by simp [SignalBaselineInput.shifted]
  floor := by simp [SignalBaselineInput.shifted, fin_toRat item.finite]

/-! ### One signal in exact arithmetic -/

/-- The evaluation of a signal when nothing is rounded. -/
def exactEvaluation (window : IncidentWindow) (policy : BaselinePolicy ExactFloat)
    (item : SignalBaselineInput ExactFloat) : SignalEvaluation ExactFloat :=
  let preCount := (Exact.pre window item).length
  let postCount := (Exact.post window item).length
  { signalKey := item.signal.key
    absoluteScaleFloor := item.absoluteScaleFloor
    prePointCount := preCount
    postPointCount := postCount
    eligible := eligible policy preCount postCount
    candidate := if eligible policy preCount postCount then
      some (Exact.candidate window policy item) else none }

theorem enough_of_eligible {window : IncidentWindow} {policy : BaselinePolicy ExactFloat}
    {item : SignalBaselineInput ExactFloat}
    (h : eligible policy (Exact.pre window item).length (Exact.post window item).length = true) :
    Exact.Enough window policy item := by
  simpa [eligible, Exact.Enough] using h

theorem evaluateSignal_exact {window : IncidentWindow} {policy : BaselinePolicy ExactFloat}
    (hpolicy : policy.Valid) (item : SignalBaselineInput ExactFloat) :
    evaluateSignal window policy item = .ok (exactEvaluation window policy item) := by
  have hpre : (preValues window item.signal).length = (Exact.pre window item).length := by
    rw [preValues_eq, List.length_map]
  have hpost : (postValues window item.signal).length = (Exact.post window item).length := by
    rw [postValues_eq, List.length_map]
  simp only [evaluateSignal, hpre, hpost]
  by_cases helig : eligible policy (Exact.pre window item).length
      (Exact.post window item).length = true
  · have hscored := scored_candidate hpolicy (enough_of_eligible helig)
    rw [if_pos helig, scoreCandidate_eq_ok.mpr hscored]
    simp only [exactEvaluation, if_pos helig]
    rfl
  · rw [if_neg helig]
    simp only [exactEvaluation, if_neg helig]
    rfl

/-! ### What another unit does to a score -/

/-- The candidate of the signal after `v ↦ a * v + b`. -/
def SuspicionCandidate.reexpressed (a b : ℚ) (c : SuspicionCandidate ExactFloat) :
    SuspicionCandidate ExactFloat :=
  { c with
    preMedian := .fin (a * c.preMedian.toRat + b)
    postMedian := .fin (a * c.postMedian.toRat + b)
    preMad := .fin (|a| * c.preMad.toRat)
    absoluteScaleFloor := .fin (|a| * c.absoluteScaleFloor.toRat)
    scale := .fin (|a| * c.scale.toRat)
    signedScore := .fin (a / |a| * c.signedScore.toRat) }

section reexpressed
variable {a b : ℚ} {item item' : SignalBaselineInput ExactFloat} {window : IncidentWindow}
  {policy : BaselinePolicy ExactFloat}

theorem valuesIn_mapValues (f : ℚ → ℚ) (s : MetricSignal ExactFloat) (start «end» : Datetime) :
    Exact.valuesIn (s.mapValues f) start «end» = (Exact.valuesIn s start «end»).map f := by
  simp only [Exact.valuesIn, MetricSignal.mapValues, List.filter_map, List.map_map]
  rfl

theorem Reexpressed.pre (h : Reexpressed a b item item') :
    Exact.pre window item' = (Exact.pre window item).map fun v => a * v + b := by
  unfold Exact.pre
  rw [h.signal, valuesIn_mapValues]

theorem Reexpressed.post (h : Reexpressed a b item item') :
    Exact.post window item' = (Exact.post window item).map fun v => a * v + b := by
  unfold Exact.post
  rw [h.signal, valuesIn_mapValues]

/-- The deviations follow the size of the unit. -/
theorem Reexpressed.mad (h : Reexpressed a b item item') (hpre : Exact.pre window item ≠ []) :
    Exact.mad (Exact.pre window item') = |a| * Exact.mad (Exact.pre window item) := by
  unfold Exact.mad
  rw [h.pre, ratMedian_map_affine h.nonzero b hpre, ratMedian_deviations_affine h.nonzero b _ hpre]

/-- So does the scale. -/
theorem Reexpressed.scale (h : Reexpressed a b item item')
    (hconstant : b = 0 ∨ policy.relativeScaleFloor.toRat = 0)
    (hpre : Exact.pre window item ≠ []) :
    Exact.scale window policy item' = |a| * Exact.scale window policy item := by
  have hrobust : 14826 / 10000 * (|a| * Exact.mad (Exact.pre window item)) =
      |a| * (14826 / 10000 * Exact.mad (Exact.pre window item)) := by
    ring
  have hrelative : policy.relativeScaleFloor.toRat *
        max |a * ratMedian (Exact.pre window item) + b| (|a| * item.absoluteScaleFloor.toRat) =
      |a| * (policy.relativeScaleFloor.toRat *
        max |ratMedian (Exact.pre window item)| item.absoluteScaleFloor.toRat) := by
    rcases hconstant with rfl | hzero
    · rw [add_zero, abs_mul, ← mul_max_of_nonneg _ _ (abs_nonneg a)]
      ring
    · rw [hzero, zero_mul, zero_mul, mul_zero]
  unfold Exact.scale
  simp only [h.mad hpre, h.floor, toRat_fin]
  rw [h.pre, ratMedian_map_affine h.nonzero b hpre, hrelative, hrobust,
    ← mul_max_of_nonneg _ _ (abs_nonneg a), ← mul_max_of_nonneg _ _ (abs_nonneg a)]

/-- The shift follows the unit. -/
theorem Reexpressed.shift (h : Reexpressed a b item item') (hpre : Exact.pre window item ≠ [])
    (hpost : Exact.post window item ≠ []) :
    Exact.shift window item' = a * Exact.shift window item := by
  unfold Exact.shift
  rw [h.pre, h.post, ratMedian_map_affine h.nonzero b hpre, ratMedian_map_affine h.nonzero b hpost]
  ring

/-- **The candidate in another unit.** -/
theorem Reexpressed.candidate (h : Reexpressed a b item item')
    (hconstant : b = 0 ∨ policy.relativeScaleFloor.toRat = 0)
    (hpre : Exact.pre window item ≠ []) (hpost : Exact.post window item ≠ []) :
    Exact.candidate window policy item' = (Exact.candidate window policy item).reexpressed a b := by
  have hkey : item'.signal.key = item.signal.key := by
    rw [h.signal]
    rfl
  have hsigned : ∀ x s : ℚ, a * x / (|a| * s) = a / |a| * (x / s) := by
    intro x s
    rw [div_mul_div_comm]
  have hsize : ∀ x s : ℚ, |a * x| / (|a| * s) = |x| / s := by
    intro x s
    rw [abs_mul, mul_div_mul_left _ _ (abs_ne_zero.mpr h.nonzero)]
  simp only [Exact.candidate, SuspicionCandidate.reexpressed, preValues_eq, postValues_eq,
    List.length_map, hkey, h.floor, h.scale hconstant hpre, h.shift hpre hpost, h.mad hpre,
    hsigned, hsize, toRat_fin]
  simp only [h.pre, h.post, List.length_map, ratMedian_map_affine h.nonzero b hpre,
    ratMedian_map_affine h.nonzero b hpost]

/-- **The evaluation in another unit** differs in the floor and the candidate. -/
theorem exactEvaluation_reexpressed (h : Reexpressed a b item item') (hpolicy : policy.Valid)
    (hconstant : b = 0 ∨ policy.relativeScaleFloor.toRat = 0) :
    exactEvaluation window policy item' =
      { exactEvaluation window policy item with
        absoluteScaleFloor := .fin (|a| * item.absoluteScaleFloor.toRat)
        candidate := (exactEvaluation window policy item).candidate.map
          (·.reexpressed a b) } := by
  have hkey : item'.signal.key = item.signal.key := by
    rw [h.signal]
    rfl
  have hpreCount : (Exact.pre window item').length = (Exact.pre window item).length := by
    rw [h.pre, List.length_map]
  have hpostCount : (Exact.post window item').length = (Exact.post window item).length := by
    rw [h.post, List.length_map]
  simp only [exactEvaluation, hkey, h.floor, hpreCount, hpostCount]
  by_cases helig : eligible policy (Exact.pre window item).length
      (Exact.post window item).length = true
  · obtain ⟨hpre, hpost⟩ := nonempty_of_enough hpolicy (enough_of_eligible helig)
    rw [if_pos helig, if_pos helig, h.candidate hconstant hpre hpost]
    rfl
  · rw [if_neg helig, if_neg helig]
    rfl

end reexpressed

/-! ### The decision -/

/-- What a result decides: its kind, the reason of an abstention, the scores of the
    candidates in their order, and the lead. -/
structure Decision (F : Type) where
  ranked : Bool
  reason : Option AbstentionReason
  scores : List (SignalKey × F × F)
  lead : Option F
  topScore : Option F
  secondScore : Option F
  deriving DecidableEq

/-- The key, the signed score and the suspicion score of a candidate. -/
def SuspicionCandidate.scores {F : Type} (c : SuspicionCandidate F) : SignalKey × F × F :=
  (c.signalKey, c.signedScore, c.suspicionScore)

def BaselineResult.decision {F : Type} : BaselineResult F → Decision F
  | .ranking r => ⟨true, none, r.candidates.map (·.scores), some r.lead, none, none⟩
  | .abstention a =>
    ⟨false, some a.reason, a.evaluatedCandidates.map (·.scores), none, a.topScore, a.secondScore⟩

/-- Two candidates of a signal with the same scores. -/
def SameScores (c c' : SuspicionCandidate ExactFloat) : Prop :=
  c.scores = c'.scores ∧ PyFloat.isFinite c.suspicionScore = true

/-- Two evaluations of a signal whose candidates score the same. -/
def SameEvaluation (e e' : SignalEvaluation ExactFloat) : Prop :=
  e.signalKey = e'.signalKey ∧ Option.Rel SameScores e.candidate e'.candidate

theorem rankedAlike_sameScores : RankedAlike SameEvaluation SameScores where
  key h := h.1
  candidate h := h.2
  candidateKey h := congrArg (·.1) h.1
  score := by
    intro c c' h
    have hscore : c.suspicionScore = c'.suspicionScore := congrArg (·.2.2) h.1
    rw [← hscore]
    exact eq_refl h.2
  finite := by
    intro c c' h
    have hscore : c.suspicionScore = c'.suspicionScore := congrArg (·.2.2) h.1
    exact ⟨h.2, hscore ▸ h.2⟩

theorem map_scores_eq {l l' : List (SuspicionCandidate ExactFloat)}
    (h : List.Forall₂ SameScores l l') : l.map (·.scores) = l'.map (·.scores) := by
  induction h with
  | nil => rfl
  | cons hc _ ih => rw [List.map_cons, List.map_cons, hc.1, ih]

theorem eq_of_same {a b : ExactFloat} (h : Same a b) : a = b := h.elim id eq_of_eq

theorem option_eq_of_same {x y : Option ExactFloat} (h : Option.Rel Same x y) : x = y := by
  cases h with
  | none => rfl
  | some hab => rw [eq_of_same hab]

/-- Results with the same scores decide the same. -/
theorem decision_of_related {r r' : BaselineResult ExactFloat}
    (h : BaselineResult.Related SameEvaluation SameScores r r') : r.decision = r'.decision := by
  cases h with
  | ranking _ hcandidates hlead =>
    simp only [BaselineResult.decision, map_scores_eq hcandidates, eq_of_same hlead]
  | abstention _ hcandidates htop hsecond =>
    simp only [BaselineResult.decision, map_scores_eq hcandidates, option_eq_of_same htop,
      option_eq_of_same hsecond]

/-- The evaluation after an increasing affine map scores the same. -/
theorem sameEvaluation_of_reexpressed {a b : ℚ} (ha : 0 < a)
    {item item' : SignalBaselineInput ExactFloat} (h : Reexpressed a b item item')
    {window : IncidentWindow} {policy : BaselinePolicy ExactFloat} (hpolicy : policy.Valid)
    (hconstant : b = 0 ∨ policy.relativeScaleFloor.toRat = 0) :
    SameEvaluation (exactEvaluation window policy item) (exactEvaluation window policy item') := by
  rw [exactEvaluation_reexpressed h hpolicy hconstant]
  constructor
  · rfl
  · show Option.Rel SameScores (if _ then some _ else none) (Option.map _ (if _ then some _ else none))
    split
    · -- the score is multiplied by `a / |a| = 1`
      apply Option.Rel.some
      constructor
      · simp [SuspicionCandidate.scores, SuspicionCandidate.reexpressed, Exact.candidate,
          abs_of_pos ha, div_self ha.ne']
      · rfl
    · exact .none

/-- **Increasing affine maps**, a different one for each signal, change no decision. -/
theorem decision_of_reexpressed {window : IncidentWindow} {policy : BaselinePolicy ExactFloat}
    (hpolicy : policy.Valid) {inputs inputs' : List (SignalBaselineInput ExactFloat)}
    (h : List.Forall₂ (fun item item' => ∃ a b, 0 < a ∧
      (b = 0 ∨ policy.relativeScaleFloor.toRat = 0) ∧ Reexpressed a b item item') inputs inputs') :
    (rankMetricShifts window inputs' policy).map (·.decision) =
      (rankMetricShifts window inputs policy).map (·.decision) := by
  have hkeys : inputs.map (·.signal.key) = inputs'.map (·.signal.key) := by
    induction h with
    | nil => rfl
    | cons hitem _ ih =>
      obtain ⟨a, b, -, -, hre⟩ := hitem
      rw [List.map_cons, List.map_cons, hre.signal, ih]
      rfl
  have hevaluations : List.Forall₂ (fun item item' => ExceptRel SameEvaluation
      (evaluateSignal window policy item) (evaluateSignal window policy item')) inputs inputs' := by
    apply h.imp
    intro item item' hitem
    obtain ⟨a, b, ha, hconstant, hre⟩ := hitem
    rw [evaluateSignal_exact hpolicy, evaluateSignal_exact hpolicy]
    exact .ok (sameEvaluation_of_reexpressed ha hre hpolicy hconstant)
  have hresults := rankMetricShifts_related rankedAlike_sameScores hpolicy hkeys hevaluations
  generalize rankMetricShifts window inputs policy = x at hresults
  generalize rankMetricShifts window inputs' policy = y at hresults
  cases hresults with
  | error => rfl
  | ok hrelated => exact congrArg Except.ok (decision_of_related hrelated).symm

/-! ### Negated values -/

/-- The signed score and the medians negated. -/
def SuspicionCandidate.negated (c : SuspicionCandidate ExactFloat) :
    SuspicionCandidate ExactFloat :=
  { c with
    preMedian := PyFloat.neg c.preMedian
    postMedian := PyFloat.neg c.postMedian
    signedScore := PyFloat.neg c.signedScore }

/-- The candidates of some signals negated. -/
def SuspicionCandidate.negatedAt (which : SignalKey → Bool) (c : SuspicionCandidate ExactFloat) :
    SuspicionCandidate ExactFloat :=
  if which c.signalKey then c.negated else c

def SignalEvaluation.negatedAt (which : SignalKey → Bool) (e : SignalEvaluation ExactFloat) :
    SignalEvaluation ExactFloat :=
  { e with candidate := e.candidate.map (·.negatedAt which) }

/-- A result with the candidates of some signals negated and nothing else changed. -/
def BaselineResult.negatedAt (which : SignalKey → Bool) :
    BaselineResult ExactFloat → BaselineResult ExactFloat
  | .ranking r => .ranking { r with
      signalEvaluations := r.signalEvaluations.map (·.negatedAt which)
      candidates := r.candidates.map (·.negatedAt which) }
  | .abstention a => .abstention { a with
      signalEvaluations := a.signalEvaluations.map (·.negatedAt which)
      evaluatedCandidates := a.evaluatedCandidates.map (·.negatedAt which) }

/-- The input with its values negated when its signal is one of them. -/
def SignalBaselineInput.negatedAt (which : SignalKey → Bool)
    (item : SignalBaselineInput ExactFloat) : SignalBaselineInput ExactFloat :=
  if which item.signal.key then item.negated else item

/-- The second candidate is the first one, negated where it should be. -/
def NegatedCandidate (which : SignalKey → Bool) (c c' : SuspicionCandidate ExactFloat) : Prop :=
  c' = c.negatedAt which ∧ PyFloat.isFinite c.suspicionScore = true

def NegatedEvaluation (which : SignalKey → Bool) (e e' : SignalEvaluation ExactFloat) : Prop :=
  e' = e.negatedAt which ∧ ∀ c, e.candidate = some c → PyFloat.isFinite c.suspicionScore = true

@[simp] theorem SuspicionCandidate.negatedAt_signalKey (which : SignalKey → Bool)
    (c : SuspicionCandidate ExactFloat) : (c.negatedAt which).signalKey = c.signalKey := by
  unfold negatedAt
  split <;> rfl

@[simp] theorem SuspicionCandidate.negatedAt_suspicionScore (which : SignalKey → Bool)
    (c : SuspicionCandidate ExactFloat) :
    (c.negatedAt which).suspicionScore = c.suspicionScore := by
  unfold negatedAt
  split <;> rfl

theorem rankedAlike_negated (which : SignalKey → Bool) :
    RankedAlike (NegatedEvaluation which) (NegatedCandidate which) where
  key h := by
    rw [h.1]
    rfl
  candidate := by
    intro e e' h
    rw [h.1]
    show Option.Rel _ e.candidate (e.candidate.map _)
    cases hc : e.candidate with
    | none => exact .none
    | some c => exact .some ⟨rfl, h.2 c hc⟩
  candidateKey h := by
    rw [h.1, SuspicionCandidate.negatedAt_signalKey]
  score h := by
    rw [h.1, SuspicionCandidate.negatedAt_suspicionScore]
    exact eq_refl h.2
  finite h := by
    rw [h.1, SuspicionCandidate.negatedAt_suspicionScore]
    exact ⟨h.2, h.2⟩

/-- Results whose candidates are negated in places differ in nothing else. -/
theorem negatedAt_of_related {which : SignalKey → Bool} {r r' : BaselineResult ExactFloat}
    (h : BaselineResult.Related (NegatedEvaluation which) (NegatedCandidate which) r r') :
    r' = r.negatedAt which := by
  cases h with
  | ranking hevaluations hcandidates hlead =>
    rw [map_eq_of_forall₂ hevaluations fun _ _ he => he.1,
      map_eq_of_forall₂ hcandidates fun _ _ hc => hc.1, eq_of_same hlead]
    rfl
  | abstention hevaluations hcandidates htop hsecond =>
    rw [map_eq_of_forall₂ hevaluations fun _ _ he => he.1,
      map_eq_of_forall₂ hcandidates fun _ _ hc => hc.1, option_eq_of_same htop,
      option_eq_of_same hsecond]
    rfl

theorem negatedAt_candidate {which : SignalKey → Bool}
    {item : SignalBaselineInput ExactFloat} (h : which item.signal.key = true)
    (window : IncidentWindow) (policy : BaselinePolicy ExactFloat) :
    (Exact.candidate window policy item).reexpressed (-1) 0 =
      (Exact.candidate window policy item).negatedAt which := by
  have hkey : which (Exact.candidate window policy item).signalKey = true := h
  rw [SuspicionCandidate.negatedAt, if_pos hkey]
  simp [SuspicionCandidate.reexpressed, SuspicionCandidate.negated, Exact.candidate,
    fin_toRat item.finite]

/-- The evaluation of the negated signal. -/
theorem exactEvaluation_negatedAt (which : SignalKey → Bool) {window : IncidentWindow}
    {policy : BaselinePolicy ExactFloat} (hpolicy : policy.Valid)
    (item : SignalBaselineInput ExactFloat) :
    NegatedEvaluation which (exactEvaluation window policy item)
      (exactEvaluation window policy (item.negatedAt which)) := by
  constructor
  · by_cases hwhich : which item.signal.key = true
    · rw [SignalBaselineInput.negatedAt, if_pos hwhich,
        exactEvaluation_reexpressed (reexpressed_negated item) hpolicy (Or.inl rfl)]
      simp only [exactEvaluation, SignalEvaluation.negatedAt]
      congr 1
      · simp [fin_toRat item.finite]
      · split
        · simp only [Option.map_some, negatedAt_candidate hwhich]
        · rfl
    · rw [SignalBaselineInput.negatedAt, if_neg hwhich]
      simp only [exactEvaluation, SignalEvaluation.negatedAt]
      congr 1
      split
      · have hkey : ¬ which (Exact.candidate window policy item).signalKey = true := hwhich
        rw [Option.map_some, SuspicionCandidate.negatedAt, if_neg hkey]
      · rfl
  · intro c hc
    have hcandidate : (if eligible policy (Exact.pre window item).length
        (Exact.post window item).length then some (Exact.candidate window policy item)
          else none) = some c := hc
    split at hcandidate
    · cases hcandidate
      rfl
    · cases hcandidate

/-- **Negated signals** keep everything but the sign of their signed scores and
    medians. -/
theorem rankMetricShifts_negatedAt (which : SignalKey → Bool) {window : IncidentWindow}
    {policy : BaselinePolicy ExactFloat} (hpolicy : policy.Valid)
    (inputs : List (SignalBaselineInput ExactFloat)) :
    rankMetricShifts window (inputs.map (·.negatedAt which)) policy =
      (rankMetricShifts window inputs policy).map (·.negatedAt which) := by
  have hkey : ∀ item : SignalBaselineInput ExactFloat,
      (item.negatedAt which).signal.key = item.signal.key := by
    intro item
    unfold SignalBaselineInput.negatedAt
    split <;> rfl
  have hkeys : inputs.map (·.signal.key) = (inputs.map (·.negatedAt which)).map (·.signal.key) := by
    rw [List.map_map]
    apply List.map_congr_left
    intro item _
    exact (hkey item).symm
  have hevaluations : List.Forall₂ (fun item item' => ExceptRel (NegatedEvaluation which)
      (evaluateSignal window policy item) (evaluateSignal window policy item')) inputs
      (inputs.map (·.negatedAt which)) := by
    rw [List.forall₂_map_right_iff, List.forall₂_same]
    intro item _
    rw [evaluateSignal_exact hpolicy, evaluateSignal_exact hpolicy]
    exact .ok (exactEvaluation_negatedAt which hpolicy item)
  have hresults := rankMetricShifts_related (rankedAlike_negated which) hpolicy hkeys hevaluations
  generalize rankMetricShifts window inputs policy = x at hresults
  generalize rankMetricShifts window (inputs.map (·.negatedAt which)) policy = y at hresults
  cases hresults with
  | error => rfl
  | ok hrelated => exact congrArg Except.ok (negatedAt_of_related hrelated)

/-! ### Independence of units -/

/-- **The ranking does not depend on units.** Own positive factors for the values and
    the floor of each signal leave the decision with every score as it is; negating
    signals changes the sign of their signed scores and medians and nothing else; without
    a relative floor, own constants added to the values of each signal leave the decision
    as it is. -/
theorem units_independent (window : IncidentWindow) (policy : BaselinePolicy ExactFloat)
    (hpolicy : policy.Valid) (inputs : List (SignalBaselineInput ExactFloat)) :
    (∀ inputs', List.Forall₂ (fun item item' => ∃ c, ∃ hc : 0 < c, item' = item.rescaled c hc)
        inputs inputs' →
      (rankMetricShifts window inputs' policy).map (·.decision) =
        (rankMetricShifts window inputs policy).map (·.decision)) ∧
    (∀ which, rankMetricShifts window (inputs.map (·.negatedAt which)) policy =
      (rankMetricShifts window inputs policy).map (·.negatedAt which)) ∧
    (policy.relativeScaleFloor = .fin 0 →
      ∀ inputs', List.Forall₂ (fun item item' => ∃ b, item' = item.shifted b) inputs inputs' →
        (rankMetricShifts window inputs' policy).map (·.decision) =
          (rankMetricShifts window inputs policy).map (·.decision)) := by
  refine ⟨?_, ?_, ?_⟩
  · intro inputs' h
    apply decision_of_reexpressed hpolicy
    apply h.imp
    intro item item' hitem
    obtain ⟨c, hc, rfl⟩ := hitem
    exact ⟨c, 0, hc, Or.inl rfl, reexpressed_rescaled item hc⟩
  · intro which
    exact rankMetricShifts_negatedAt which hpolicy inputs
  · intro hrelative inputs' h
    apply decision_of_reexpressed hpolicy
    apply h.imp
    intro item item' hitem
    obtain ⟨b, rfl⟩ := hitem
    exact ⟨1, b, one_pos, Or.inr (by rw [hrelative, toRat_fin]), reexpressed_shifted item b⟩

namespace Demo

theorem policy_valid : policy.Valid := by
  constructor <;> decide +kernel

/-- The small incident with no relative floor. -/
def absolutePolicy : BaselinePolicy ExactFloat := { policy with relativeScaleFloor := .fin 0 }

theorem absolutePolicy_valid : absolutePolicy.Valid := by
  constructor <;> decide +kernel

/-- The small incident with the latency in milliseconds, with the errors counted
    downwards, and with the errors counted from another day on. -/
theorem units_independent_demo :
    (rankMetricShifts window [latency.rescaled 1000 (by norm_num), errors.rescaled 1 one_pos]
        policy).map (·.decision) =
      (rankMetricShifts window [latency, errors] policy).map (·.decision) ∧
    rankMetricShifts window ([latency, errors].map (·.negatedAt fun k => k = errors.signal.key))
        policy =
      (rankMetricShifts window [latency, errors] policy).map
        (·.negatedAt fun k => k = errors.signal.key) ∧
    (rankMetricShifts window [latency.shifted 0, errors.shifted 60] absolutePolicy).map
        (·.decision) =
      (rankMetricShifts window [latency, errors] absolutePolicy).map (·.decision) :=
  ⟨(units_independent window policy policy_valid [latency, errors]).1 _
      (.cons ⟨1000, _, rfl⟩ (.cons ⟨1, _, rfl⟩ .nil)),
    (units_independent window policy policy_valid [latency, errors]).2.1 _,
    (units_independent window absolutePolicy absolutePolicy_valid [latency, errors]).2.2 rfl _
      (.cons ⟨0, rfl⟩ (.cons ⟨60, rfl⟩ .nil))⟩

end Demo

end IncidentEvidence
