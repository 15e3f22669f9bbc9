import IncidentEvidence.Domain.Incidents

/-! # The metric-shift baseline

    `baseline.py`: for every configured signal the medians of its values before
    and after the injection are compared on a robust scale, and the shifts are
    ranked, or the baseline abstains.

    The definitions run on any float arithmetic. `rankMetricShifts_eq_ok` says
    what a returned result is made of, without the control flow.
-/

namespace IncidentEvidence

open Py

/-! ### Policies, inputs and results -/

section types
variable (F : Type)

structure BaselinePolicy where
  minimumPointsPerWindow : Int
  minimumScore : F
  minimumMargin : F
  relativeScaleFloor : F

structure SuspicionCandidate where
  signalKey : SignalKey
  prePointCount : Int
  postPointCount : Int
  preMedian : F
  postMedian : F
  preMad : F
  absoluteScaleFloor : F
  relativeScaleFloor : F
  scale : F
  signedScore : F
  suspicionScore : F

/-- Replay snapshot for one configured signal, whether or not it was eligible. -/
structure SignalEvaluation where
  signalKey : SignalKey
  absoluteScaleFloor : F
  prePointCount : Int
  postPointCount : Int
  eligible : Bool
  candidate : Option (SuspicionCandidate F)

inductive AbstentionReason where
  | insufficientEvidence
  | weakEvidence
  | ambiguousEvidence
  deriving DecidableEq

structure BaselineRanking where
  policy : BaselinePolicy F
  signalEvaluations : List (SignalEvaluation F)
  candidates : List (SuspicionCandidate F)
  lead : F

structure BaselineAbstention where
  policy : BaselinePolicy F
  reason : AbstentionReason
  signalEvaluations : List (SignalEvaluation F)
  evaluatedCandidates : List (SuspicionCandidate F)
  eligibleSignalCount : Int
  topScore : Option F
  secondScore : Option F

inductive BaselineResult where
  | ranking (r : BaselineRanking F)
  | abstention (a : BaselineAbstention F)

end types

/-- The value of an abstention reason. -/
def AbstentionReason.value : AbstentionReason → Str
  | .insufficientEvidence => str "insufficient_evidence"
  | .weakEvidence => str "weak_evidence"
  | .ambiguousEvidence => str "ambiguous_evidence"

variable {F : Type} [PyFloat F]

open PyFloat (isFinite zero lt le max median)

/-- `math.isfinite(value) and value >= 0.0`. -/
def FiniteNonnegative (value : F) : Prop := isFinite value = true ∧ le zero value = true

instance (value : F) : Decidable (FiniteNonnegative value) := inferInstanceAs (Decidable (_ ∧ _))

/-- `BaselinePolicy.__post_init__`. -/
structure BaselinePolicy.Valid (p : BaselinePolicy F) : Prop where
  points : 1 ≤ p.minimumPointsPerWindow
  score : FiniteNonnegative p.minimumScore
  margin : FiniteNonnegative p.minimumMargin
  floor : FiniteNonnegative p.relativeScaleFloor

/-- A signal with its scale floor, which is finite and positive. -/
structure SignalBaselineInput (F : Type) [PyFloat F] where
  signal : MetricSignal F
  absoluteScaleFloor : F
  finite : isFinite absoluteScaleFloor = true
  positive : le absoluteScaleFloor zero = false

def BaselineResult.policy : BaselineResult F → BaselinePolicy F
  | .ranking r => r.policy
  | .abstention a => a.policy

def BaselineResult.signalEvaluations : BaselineResult F → List (SignalEvaluation F)
  | .ranking r => r.signalEvaluations
  | .abstention a => a.signalEvaluations

/-- The candidates of a result, in its order. -/
def BaselineResult.candidates : BaselineResult F → List (SuspicionCandidate F)
  | .ranking r => r.candidates
  | .abstention a => a.evaluatedCandidates

/-- The reason of an abstention. -/
def BaselineResult.reason : BaselineResult F → Option AbstentionReason
  | .ranking _ => none
  | .abstention a => some a.reason

/-- The top score of a result; a ranking leaves it to its first candidate. -/
def BaselineResult.topScore : BaselineResult F → Option F
  | .ranking r => r.candidates[0]?.map (·.suspicionScore)
  | .abstention a => a.topScore

/-- The second score of a result; a ranking leaves it to its second candidate. -/
def BaselineResult.secondScore : BaselineResult F → Option F
  | .ranking r => r.candidates[1]?.map (·.suspicionScore)
  | .abstention a => a.secondScore

/-- The lead of a ranking over its second candidate. -/
def BaselineResult.lead : BaselineResult F → Option F
  | .ranking r => if 2 ≤ r.candidates.length then some r.lead else none
  | .abstention _ => none

/-! ### Scoring one signal -/

def requireFinite (values : List F) : Except DomainError Unit :=
  require (∀ v ∈ values, isFinite v = true) .baselineComputation

/-- `1.4826`. -/
def madScale : F := PyFloat.literal 14826 4

/-- `1.4826 * pre_mad`. -/
def robustScale (preMad : F) : F := PyFloat.mul madScale preMad

/-- `relative_floor * max(abs(pre_median), absolute_floor)`. -/
def relativeScale (relativeFloor preMedian absoluteFloor : F) : F :=
  PyFloat.mul relativeFloor (max (PyFloat.abs preMedian) absoluteFloor)

/-- `max(robust_scale, absolute_floor, relative_scale)`. -/
def combinedScale (robust absoluteFloor relative : F) : F := max (max robust absoluteFloor) relative

/-- `_score_candidate`: `StatisticsError` and `ZeroDivisionError` become a
    `BaselineComputationError`. -/
def scoreCandidate (item : SignalBaselineInput F) (policy : BaselinePolicy F)
    (preValues postValues : List F) : Except DomainError (SuspicionCandidate F) := do
  let preCenter ← orRaise (median preValues) .baselineComputation
  let postCenter ← orRaise (median postValues) .baselineComputation
  let deviations := preValues.map fun v => PyFloat.abs (PyFloat.sub v preCenter)
  let preMad ← orRaise (median deviations) .baselineComputation
  let robust := robustScale preMad
  let relative := relativeScale policy.relativeScaleFloor preCenter item.absoluteScaleFloor
  let scale := combinedScale robust item.absoluteScaleFloor relative
  let signedScore ← orRaise (PyFloat.truediv (PyFloat.sub postCenter preCenter) scale)
    .baselineComputation
  let suspicionScore := PyFloat.abs signedScore
  requireFinite [preCenter, postCenter, preMad, robust, relative, scale, signedScore,
    suspicionScore]
  return {
    signalKey := item.signal.key
    prePointCount := preValues.length
    postPointCount := postValues.length
    preMedian := preCenter
    postMedian := postCenter
    preMad := preMad
    absoluteScaleFloor := item.absoluteScaleFloor
    relativeScaleFloor := policy.relativeScaleFloor
    scale := scale
    signedScore := signedScore
    suspicionScore := suspicionScore }

/-- The values observed in `[start, injection)`. -/
def preValues (window : IncidentWindow) (signal : MetricSignal F) : List F :=
  (signal.points.filter fun p =>
    decide (window.start ≤ p.observedAt ∧ p.observedAt < window.injection)).map (·.value)

/-- The values observed in `[injection, end)`. -/
def postValues (window : IncidentWindow) (signal : MetricSignal F) : List F :=
  (signal.points.filter fun p =>
    decide (window.injection ≤ p.observedAt ∧ p.observedAt < window.end)).map (·.value)

/-- Both windows hold the minimum number of points. -/
def eligible (policy : BaselinePolicy F) (preCount postCount : Int) : Bool :=
  decide (policy.minimumPointsPerWindow ≤ preCount) &&
    decide (policy.minimumPointsPerWindow ≤ postCount)

/-- `_evaluate_signal`. -/
def evaluateSignal (window : IncidentWindow) (policy : BaselinePolicy F)
    (item : SignalBaselineInput F) : Except DomainError (SignalEvaluation F) := do
  let pre := preValues window item.signal
  let post := postValues window item.signal
  let eligible := eligible policy pre.length post.length
  let candidate ← (if eligible then some <$> scoreCandidate item policy pre post else pure none :
    Except DomainError (Option (SuspicionCandidate F)))
  return {
    signalKey := item.signal.key
    absoluteScaleFloor := item.absoluteScaleFloor
    prePointCount := pre.length
    postPointCount := post.length
    eligible := eligible
    candidate := candidate }

/-! ### Ranking -/

/-- Comparison of the sort keys `(-suspicion_score, signal_key.value)`. -/
def candidateLt (a b : SuspicionCandidate F) : Bool :=
  if PyFloat.eq (PyFloat.neg a.suspicionScore) (PyFloat.neg b.suspicionScore) then
    decide (a.signalKey.value < b.signalKey.value)
  else lt (PyFloat.neg a.suspicionScore) (PyFloat.neg b.suspicionScore)

/-- The candidates of the evaluations, from the most to the least suspicious. -/
def rankedCandidates (evaluations : List (SignalEvaluation F)) : List (SuspicionCandidate F) :=
  sortedBy candidateLt (evaluations.filterMap (·.candidate))

/-- The part of `rank_metric_shifts` after sorting: rank the candidates or abstain. -/
def rankOrAbstain (policy : BaselinePolicy F) (evaluations : List (SignalEvaluation F))
    (candidates : List (SuspicionCandidate F)) : BaselineResult F :=
  let abstain (reason : AbstentionReason) (topScore secondScore : Option F) :=
    BaselineResult.abstention ⟨policy, reason, evaluations, candidates, candidates.length,
      topScore, secondScore⟩
  match candidates with
  | [] => abstain .insufficientEvidence none none
  | top :: rest =>
    let topScore := top.suspicionScore
    let secondScore := rest.head?.map (·.suspicionScore)
    if lt topScore policy.minimumScore then
      abstain .weakEvidence (some topScore) secondScore
    else
      match secondScore with
      | none => .ranking ⟨policy, evaluations, candidates, PyFloat.inf⟩
      | some second =>
        let lead := PyFloat.sub topScore second
        if lt lead policy.minimumMargin then
          abstain .ambiguousEvidence (some topScore) secondScore
        else .ranking ⟨policy, evaluations, candidates, lead⟩

/-- Rank robust median shifts, or explicitly abstain. -/
def rankMetricShifts (window : IncidentWindow) (inputs : List (SignalBaselineInput F))
    (policy : BaselinePolicy F) : Except DomainError (BaselineResult F) := do
  require (inputs.map (·.signal.key.value)).Nodup .duplicateSignal
  let evaluations ← inputs.mapM (evaluateSignal window policy)
  let signalEvaluations := sortedOn (fun e => e.signalKey.value) evaluations
  return rankOrAbstain policy signalEvaluations (rankedCandidates signalEvaluations)

/-! ### What a result is made of -/

theorem requireFinite_eq_ok {values : List F} {u : Unit} :
    requireFinite values = .ok u ↔ ∀ v ∈ values, isFinite v = true := by
  simp [requireFinite]

/-- A scored candidate: its numbers come from the medians and are finite. -/
structure Scored (item : SignalBaselineInput F) (policy : BaselinePolicy F) (pre post : List F)
    (c : SuspicionCandidate F) : Prop where
  key : c.signalKey = item.signal.key
  preCount : c.prePointCount = pre.length
  postCount : c.postPointCount = post.length
  preMedian : median pre = some c.preMedian
  postMedian : median post = some c.postMedian
  preMad : median (pre.map fun v => PyFloat.abs (PyFloat.sub v c.preMedian)) = some c.preMad
  absoluteFloor : c.absoluteScaleFloor = item.absoluteScaleFloor
  relativeFloor : c.relativeScaleFloor = policy.relativeScaleFloor
  scale : c.scale = combinedScale (robustScale c.preMad) item.absoluteScaleFloor
    (relativeScale policy.relativeScaleFloor c.preMedian item.absoluteScaleFloor)
  signedScore : PyFloat.truediv (PyFloat.sub c.postMedian c.preMedian) c.scale = some c.signedScore
  suspicionScore : c.suspicionScore = PyFloat.abs c.signedScore
  finite : ∀ v ∈ [c.preMedian, c.postMedian, c.preMad, robustScale c.preMad,
    relativeScale policy.relativeScaleFloor c.preMedian item.absoluteScaleFloor, c.scale,
    c.signedScore, c.suspicionScore], isFinite v = true

theorem scoreCandidate_eq_ok {item : SignalBaselineInput F} {policy : BaselinePolicy F}
    {pre post : List F} {c : SuspicionCandidate F} :
    scoreCandidate item policy pre post = .ok c ↔ Scored item policy pre post c := by
  simp only [scoreCandidate, bind_eq_ok, orRaise_eq_ok, requireFinite_eq_ok, pure_eq_ok]
  constructor
  · rintro ⟨preM, hpre, postM, hpost, mad, hmad, s, hs, _, hfin, rfl⟩
    exact ⟨rfl, rfl, rfl, hpre, hpost, hmad, rfl, rfl, rfl, hs, rfl, hfin⟩
  · rintro ⟨hkey, hpc, hqc, hpre, hpost, hmad, habs, hrel, hscale, hs, hsusp, hfin⟩
    rw [hscale] at hs hfin
    rw [hsusp] at hfin
    refine ⟨_, hpre, _, hpost, _, hmad, _, hs, (), hfin, ?_⟩
    cases c
    simp_all

/-- What `_evaluate_signal` returns for a signal. -/
structure Evaluated (window : IncidentWindow) (policy : BaselinePolicy F)
    (item : SignalBaselineInput F) (e : SignalEvaluation F) : Prop where
  key : e.signalKey = item.signal.key
  floor : e.absoluteScaleFloor = item.absoluteScaleFloor
  preCount : e.prePointCount = (preValues window item.signal).length
  postCount : e.postPointCount = (postValues window item.signal).length
  eligible : e.eligible = eligible policy (preValues window item.signal).length
    (postValues window item.signal).length
  isSome : e.candidate.isSome = e.eligible
  candidate : ∀ c, e.candidate = some c →
    Scored item policy (preValues window item.signal) (postValues window item.signal) c

theorem evaluateSignal_eq_ok {window : IncidentWindow} {policy : BaselinePolicy F}
    {item : SignalBaselineInput F} {e : SignalEvaluation F} :
    evaluateSignal window policy item = .ok e ↔ Evaluated window policy item e := by
  simp only [evaluateSignal, bind_eq_ok, pure_eq_ok]
  constructor
  · rintro ⟨c, hc, rfl⟩
    refine ⟨rfl, rfl, rfl, rfl, rfl, ?_, ?_⟩
    · split at hc
      · next helig =>
        obtain ⟨d, _, rfl⟩ := map_eq_ok.mp hc
        simpa using helig.symm
      · next helig =>
        rw [pure_eq_ok] at hc
        simpa [hc] using helig
    · intro d hd
      split at hc
      · obtain ⟨d', hd', rfl⟩ := map_eq_ok.mp hc
        cases hd
        exact scoreCandidate_eq_ok.mp hd'
      · rw [pure_eq_ok] at hc
        simp [hc] at hd
  · rintro ⟨hkey, hfloor, hpre, hpost, helig, hsome, hcand⟩
    refine ⟨e.candidate, ?_, ?_⟩
    · rw [← helig]
      cases hc : e.candidate with
      | none =>
        have : e.eligible = false := by simpa [hc] using hsome.symm
        simp [this]
      | some c =>
        have : e.eligible = true := by simpa [hc] using hsome.symm
        simp [this, scoreCandidate_eq_ok.mpr (hcand c hc)]
    · cases e
      simp_all

/-- **A returned result** ranks or abstains on one evaluation for each input, in
    key order. -/
theorem rankMetricShifts_eq_ok {window : IncidentWindow} {inputs : List (SignalBaselineInput F)}
    {policy : BaselinePolicy F} {result : BaselineResult F} :
    rankMetricShifts window inputs policy = .ok result ↔
      (inputs.map (·.signal.key.value)).Nodup ∧ ∃ evaluations,
        List.Forall₂ (Evaluated window policy) inputs evaluations ∧
        result = rankOrAbstain policy (sortedOn (fun e => e.signalKey.value) evaluations)
          (rankedCandidates (sortedOn (fun e => e.signalKey.value) evaluations)) := by
  simp only [rankMetricShifts, bind_eq_ok, require_eq_ok, mapM_eq_ok, evaluateSignal_eq_ok,
    pure_eq_ok, exists_const]

/-! ### The order of the candidates -/

theorem mem_rankedCandidates {evaluations : List (SignalEvaluation F)}
    {c : SuspicionCandidate F} :
    c ∈ rankedCandidates evaluations ↔ ∃ e ∈ evaluations, e.candidate = some c := by
  simp [rankedCandidates]

section order
variable [LawfulPyFloat F]

/-- Ranked before: a larger score, or the same score and a smaller key. -/
theorem candidateLt_eq_false {a b : SuspicionCandidate F} (ha : isFinite a.suspicionScore = true)
    (hb : isFinite b.suspicionScore = true) :
    candidateLt b a = false ↔ le b.suspicionScore a.suspicionScore = true ∧
      (le a.suspicionScore b.suspicionScore = true → a.signalKey.value ≤ b.signalKey.value) := by
  have hab := LawfulPyFloat.neg_le_neg ha hb
  have hba := LawfulPyFloat.neg_le_neg hb ha
  have htotal := LawfulPyFloat.le_total ha hb
  simp only [candidateLt, PyFloat.eq, lt, hab, hba]
  cases h1 : le a.suspicionScore b.suspicionScore <;>
    cases h2 : le b.suspicionScore a.suspicionScore <;> simp_all

theorem orderedOn_candidateLt {l : List (SuspicionCandidate F)}
    (h : ∀ c ∈ l, isFinite c.suspicionScore = true) : OrderedOn candidateLt l where
  total a ha b hb := by
    rw [candidateLt_eq_false (h b hb) (h a ha), candidateLt_eq_false (h a ha) (h b hb)]
    rcases LawfulPyFloat.le_total (h a ha) (h b hb) with hle | hle <;>
      rcases le_total a.signalKey.value b.signalKey.value with hk | hk <;>
      cases h1 : le a.suspicionScore b.suspicionScore <;>
      cases h2 : le b.suspicionScore a.suspicionScore <;> simp_all
  trans a ha b hb c hc := by
    rw [candidateLt_eq_false (h a ha) (h b hb), candidateLt_eq_false (h b hb) (h c hc),
      candidateLt_eq_false (h a ha) (h c hc)]
    rintro ⟨hba, hkab⟩ ⟨hcb, hkbc⟩
    refine ⟨LawfulPyFloat.le_trans hcb hba, fun hac => ?_⟩
    have hab := hkab (LawfulPyFloat.le_trans hac hcb)
    have hbc := hkbc (LawfulPyFloat.le_trans hba hac)
    exact le_trans hab hbc

/-- The ranked candidates come in decreasing order of score. -/
theorem pairwise_rankedCandidates {evaluations : List (SignalEvaluation F)}
    (h : ∀ e ∈ evaluations, ∀ c, e.candidate = some c → isFinite c.suspicionScore = true) :
    (rankedCandidates evaluations).Pairwise fun a b =>
      le b.suspicionScore a.suspicionScore = true := by
  have hfin : ∀ c ∈ evaluations.filterMap (·.candidate), isFinite c.suspicionScore = true := by
    intro c hc
    obtain ⟨e, he, hec⟩ := List.mem_filterMap.mp hc
    exact h e he c hec
  apply (pairwise_sortedBy (orderedOn_candidateLt hfin)).imp_of_mem
  intro a b ha hb hab
  exact ((candidateLt_eq_false (hfin a (mem_sortedBy.mp ha)) (hfin b (mem_sortedBy.mp hb))).mp
    hab).1

end order

/-! ### A small incident

    Two signals around an injection, in numbers that doubles represent. -/

namespace Demo

/-- An instant of the first day. -/
def at' (micros : Nat) (h : micros < maxMicros := by decide) : Datetime := ⟨micros, h⟩

def window : IncidentWindow := ⟨at' 0, at' 10, at' 20⟩

def policy : BaselinePolicy ExactFloat := ⟨2, .fin 2, .fin 1, .fin (1 / 8)⟩

/-- A signal with two values before and two after the injection. -/
def signal (key : SignalKey) (valid : TextIdentifier.Valid key) (a b c d : ℚ) :
    MetricSignal ExactFloat where
  key := key
  keyValid := valid
  points := [⟨at' 0, .fin a, rfl⟩, ⟨at' 5, .fin b, rfl⟩, ⟨at' 10, .fin c, rfl⟩, ⟨at' 15, .fin d, rfl⟩]
  increasing := by
    have h : [at' 0, at' 5, at' 10, at' 15].Pairwise (· < ·) := by decide
    exact List.pairwise_map.mp h

theorem latency_valid : TextIdentifier.Valid (⟨str "checkout.latency"⟩ : SignalKey) := by decide

theorem errors_valid : TextIdentifier.Valid (⟨str "checkout.errors"⟩ : SignalKey) := by decide

theorem one_finite : PyFloat.isFinite (ExactFloat.fin 1) = true := rfl

theorem one_positive : PyFloat.le (ExactFloat.fin 1) PyFloat.zero = false := by decide +kernel

def latency : SignalBaselineInput ExactFloat where
  signal := signal ⟨str "checkout.latency"⟩ latency_valid 2 2 10 12
  absoluteScaleFloor := .fin (1 / 2)
  finite := rfl
  positive := by decide +kernel

def errors : SignalBaselineInput ExactFloat where
  signal := signal ⟨str "checkout.errors"⟩ errors_valid 4 4 5 5
  absoluteScaleFloor := .fin 1
  finite := one_finite
  positive := one_positive

example : (rankMetricShifts window [latency, errors] policy).toOption.bind (·.lead) =
    some (.fin 17) := by
  decide +kernel

end Demo

end IncidentEvidence
