import IncidentEvidence.Domain.Evidence.Types

/-! # Checks on untrusted ledger content

    `evidence/_parsing.py` and `evidence/_decisions.py`: every part of a ledger
    or of a baseline result is checked and rebuilt. Each function comes with one
    lemma that says when it succeeds and with what; later proofs use the lemma
    and never look inside.
-/

namespace IncidentEvidence

open Py PyFloat

variable {F : Type} [PyFloat F]

namespace Parsing

/-- `_invalid`. -/
def invalid {α : Type} : Except DomainError α := throw .invalidEvidenceLedger

@[simp] theorem invalid_ne_ok {α : Type} {a : α} : (invalid : Except DomainError α) ≠ .ok a := by
  simp [invalid]

/-! ### Scalars -/

/-- `_finite_float`. -/
def finiteFloat (value : F) (nonnegative positive : Bool) : Except DomainError F := do
  require (isFinite value = true) .invalidEvidenceLedger
  require (¬ (positive = true ∧ le value zero = true)) .invalidEvidenceLedger
  require (¬ (nonnegative = true ∧ lt value zero = true)) .invalidEvidenceLedger
  return value

/-- `_count`. -/
def count (value : Int) : Except DomainError Int := do
  require (¬ value < 0) .invalidEvidenceLedger
  return value

/-- `_identifier`. -/
def identifier {ι : Type} [TextIdentifier ι] (value : ι) : Except DomainError ι :=
  checkedIdentifier .invalidEvidenceLedger value

/-- `_signal_key`. -/
def signalKey (value : SignalKey) : Except DomainError SignalKey :=
  checkedIdentifier .invalidEvidenceLedger value

/-- `_optional_score`. -/
def optionalScore : Option F → Except DomainError (Option F)
  | none => return none
  | some value => some <$> finiteFloat value true false

@[simp] theorem finiteFloat_eq_ok {value w : F} :
    finiteFloat value false false = .ok w ↔ isFinite value = true ∧ w = value := by
  simp [finiteFloat, -bind_pure_comp]

@[simp] theorem finiteFloat_nonnegative_eq_ok {value w : F} :
    finiteFloat value true false = .ok w ↔
      (isFinite value = true ∧ lt value zero = false) ∧ w = value := by
  simp [finiteFloat, -bind_pure_comp, and_assoc]

@[simp] theorem finiteFloat_positive_eq_ok {value w : F} :
    finiteFloat value false true = .ok w ↔
      (isFinite value = true ∧ le value zero = false) ∧ w = value := by
  simp [finiteFloat, -bind_pure_comp, and_assoc]

@[simp] theorem count_eq_ok {value n : Int} : count value = .ok n ↔ 0 ≤ value ∧ n = value := by
  simp [count, -bind_pure_comp]

@[simp] theorem identifier_eq_ok {ι : Type} [TextIdentifier ι] {value i : ι} :
    identifier value = .ok i ↔ TextIdentifier.Valid value ∧ i = value := by
  simp [identifier]

@[simp] theorem signalKey_eq_ok {value k : SignalKey} :
    signalKey value = .ok k ↔ TextIdentifier.Valid value ∧ k = value := by
  simp [signalKey]

/-! ### Policy and window -/

/-- `_policy`. -/
def policy (value : BaselinePolicy F) : Except DomainError (BaselinePolicy F) := do
  require (¬ value.minimumPointsPerWindow < 1) .invalidEvidenceLedger
  let minimumScore ← finiteFloat value.minimumScore true false
  let minimumMargin ← finiteFloat value.minimumMargin true false
  let relativeFloor ← finiteFloat value.relativeScaleFloor true false
  return ⟨value.minimumPointsPerWindow, minimumScore, minimumMargin, relativeFloor⟩

/-- `_window`. -/
def window (value : IncidentWindow) : Except DomainError IncidentWindow :=
  checkedWindow .invalidEvidenceLedger value

theorem finiteNonnegative_iff [LawfulPyFloat F] {value : F} :
    FiniteNonnegative value ↔ isFinite value = true ∧ lt value zero = false := by
  unfold FiniteNonnegative
  refine and_congr_right fun h => ?_
  rw [lt_eq_false h LawfulPyFloat.finite_zero]

theorem policy_eq_ok [LawfulPyFloat F] {value p : BaselinePolicy F} :
    policy value = .ok p ↔ value.Valid ∧ p = value := by
  simp only [policy, bind_eq_ok, require_eq_ok, finiteFloat_nonnegative_eq_ok, pure_eq_ok,
    ← finiteNonnegative_iff]
  constructor
  · rintro ⟨_, hp, _, ⟨hs, rfl⟩, _, ⟨hm, rfl⟩, _, ⟨hf, rfl⟩, rfl⟩
    exact ⟨⟨by omega, hs, hm, hf⟩, rfl⟩
  · rintro ⟨⟨hp, hs, hm, hf⟩, rfl⟩
    exact ⟨(), by omega, _, ⟨hs, rfl⟩, _, ⟨hm, rfl⟩, _, ⟨hf, rfl⟩, rfl⟩

theorem window_eq_ok {value w : IncidentWindow} :
    window value = .ok w ↔ value.Valid ∧ w = value := by
  simp [window]

/-! ### Candidates -/

/-- `_candidate`: the supplied scale and scores must be the recomputed ones. -/
def candidate (value : Option (SuspicionCandidate F)) (evaluation : SignalEvaluation F)
    (policy : BaselinePolicy F) : Except DomainError (SuspicionCandidate F) := do
  let value ← orRaise value .invalidEvidenceLedger
  let signalKey ← signalKey value.signalKey
  let preCount ← count value.prePointCount
  let postCount ← count value.postPointCount
  let preMedian ← finiteFloat value.preMedian false false
  let postMedian ← finiteFloat value.postMedian false false
  let preMad ← finiteFloat value.preMad true false
  let absoluteFloor ← finiteFloat value.absoluteScaleFloor false true
  let relativeFloor ← finiteFloat value.relativeScaleFloor true false
  let scale ← finiteFloat value.scale false true
  let signedScore ← finiteFloat value.signedScore false false
  let suspicionScore ← finiteFloat value.suspicionScore true false
  require (signalKey = evaluation.signalKey ∧ preCount = evaluation.prePointCount ∧
    postCount = evaluation.postPointCount ∧
    PyFloat.eq absoluteFloor evaluation.absoluteScaleFloor = true ∧
    PyFloat.eq relativeFloor policy.relativeScaleFloor = true) .invalidEvidenceLedger
  -- the formulas are computed again from the values that were supplied
  let robust := robustScale preMad
  let relative := relativeScale relativeFloor preMedian absoluteFloor
  let expectedScale := combinedScale robust absoluteFloor relative
  let expectedSignedScore ← orRaise (truediv (sub postMedian preMedian) expectedScale)
    .invalidEvidenceLedger
  require (isFinite robust = true ∧ isFinite relative = true) .invalidEvidenceLedger
  require (isFinite expectedSignedScore = true) .invalidEvidenceLedger
  require (PyFloat.eq scale expectedScale = true ∧
    PyFloat.eq signedScore expectedSignedScore = true ∧
    PyFloat.eq suspicionScore (PyFloat.abs signedScore) = true) .invalidEvidenceLedger
  return {
    signalKey := signalKey
    prePointCount := preCount
    postPointCount := postCount
    preMedian := preMedian
    postMedian := postMedian
    preMad := preMad
    absoluteScaleFloor := absoluteFloor
    relativeScaleFloor := relativeFloor
    scale := scale
    signedScore := signedScore
    suspicionScore := suspicionScore }

/-- What `_candidate` requires of a candidate for a signal with these counts and
    this floor. -/
structure CandidateOk (policy : BaselinePolicy F) (signalKey : SignalKey) (preCount postCount : Int)
    (absoluteFloor : F) (c : SuspicionCandidate F) : Prop where
  key : TextIdentifier.Valid c.signalKey
  preNonneg : 0 ≤ c.prePointCount
  postNonneg : 0 ≤ c.postPointCount
  preMedian : isFinite c.preMedian = true
  postMedian : isFinite c.postMedian = true
  preMad : FiniteNonnegative c.preMad
  positiveFloor : isFinite c.absoluteScaleFloor = true ∧ le c.absoluteScaleFloor zero = false
  relativeFloor : FiniteNonnegative c.relativeScaleFloor
  scale : isFinite c.scale = true ∧ le c.scale zero = false
  signedScore : isFinite c.signedScore = true
  suspicionScore : FiniteNonnegative c.suspicionScore
  sameKey : c.signalKey = signalKey
  samePre : c.prePointCount = preCount
  samePost : c.postPointCount = postCount
  sameAbsolute : PyFloat.eq c.absoluteScaleFloor absoluteFloor = true
  sameRelative : PyFloat.eq c.relativeScaleFloor policy.relativeScaleFloor = true
  finiteRobust : isFinite (robustScale c.preMad) = true
  finiteRelative :
    isFinite (relativeScale c.relativeScaleFloor c.preMedian c.absoluteScaleFloor) = true
  scaleFormula : PyFloat.eq c.scale (combinedScale (robustScale c.preMad) c.absoluteScaleFloor
    (relativeScale c.relativeScaleFloor c.preMedian c.absoluteScaleFloor)) = true
  scoreFormula : ∃ s, truediv (sub c.postMedian c.preMedian)
      (combinedScale (robustScale c.preMad) c.absoluteScaleFloor
        (relativeScale c.relativeScaleFloor c.preMedian c.absoluteScaleFloor)) = some s ∧
    isFinite s = true ∧ PyFloat.eq c.signedScore s = true
  absFormula : PyFloat.eq c.suspicionScore (PyFloat.abs c.signedScore) = true

theorem candidate_eq_ok [LawfulPyFloat F] {value : Option (SuspicionCandidate F)}
    {evaluation : SignalEvaluation F} {policy : BaselinePolicy F} {c : SuspicionCandidate F} :
    candidate value evaluation policy = .ok c ↔
      CandidateOk policy evaluation.signalKey evaluation.prePointCount evaluation.postPointCount
        evaluation.absoluteScaleFloor c ∧ value = some c := by
  simp only [candidate, bind_eq_ok, orRaise_eq_ok, require_eq_ok, signalKey_eq_ok, count_eq_ok,
    finiteFloat_eq_ok, finiteFloat_nonnegative_eq_ok, finiteFloat_positive_eq_ok, pure_eq_ok,
    ← finiteNonnegative_iff]
  constructor
  · rintro ⟨v, rfl, _, ⟨hkey, rfl⟩, _, ⟨hpre, rfl⟩, _, ⟨hpost, rfl⟩, _, ⟨hprem, rfl⟩,
      _, ⟨hpostm, rfl⟩, _, ⟨hmad, rfl⟩, _, ⟨habs, rfl⟩, _, ⟨hrel, rfl⟩, _, ⟨hscale, rfl⟩,
      _, ⟨hsigned, rfl⟩, _, ⟨hsusp, rfl⟩, _, ⟨hk, hc1, hc2, hf1, hf2⟩, s, hs, _, ⟨hr1, hr2⟩,
      _, hfin, _, ⟨he1, he2, he3⟩, rfl⟩
    exact ⟨⟨hkey, hpre, hpost, hprem, hpostm, hmad, habs, hrel, hscale, hsigned, hsusp, hk, hc1,
      hc2, hf1, hf2, hr1, hr2, he1, ⟨s, hs, hfin, he2⟩, he3⟩, rfl⟩
  · rintro ⟨⟨hkey, hpre, hpost, hprem, hpostm, hmad, habs, hrel, hscale, hsigned, hsusp, hk, hc1,
      hc2, hf1, hf2, hr1, hr2, he1, ⟨s, hs, hfin, he2⟩, he3⟩, rfl⟩
    exact ⟨c, rfl, _, ⟨hkey, rfl⟩, _, ⟨hpre, rfl⟩, _, ⟨hpost, rfl⟩, _, ⟨hprem, rfl⟩,
      _, ⟨hpostm, rfl⟩, _, ⟨hmad, rfl⟩, _, ⟨habs, rfl⟩, _, ⟨hrel, rfl⟩, _, ⟨hscale, rfl⟩,
      _, ⟨hsigned, rfl⟩, _, ⟨hsusp, rfl⟩, (), ⟨hk, hc1, hc2, hf1, hf2⟩, s, hs, (), ⟨hr1, hr2⟩,
      (), hfin, (), ⟨he1, he2, he3⟩, rfl⟩

/-! ### Evaluations -/

/-- `_candidate(value, shell, policy) if eligible else None`. -/
def candidateIf (eligible : Bool) (value : Option (SuspicionCandidate F))
    (shell : SignalEvaluation F) (policy : BaselinePolicy F) :
    Except DomainError (Option (SuspicionCandidate F)) :=
  if eligible then some <$> candidate value shell policy else return none

/-- One turn of the loop of `_evaluations`, with the keys seen so far. -/
def copyEvaluation (policy : BaselinePolicy F) (seen : List Str) (value : SignalEvaluation F) :
    Except DomainError (SignalEvaluation F) := do
  let signalKey ← signalKey value.signalKey
  require (signalKey.value ∉ seen) .invalidEvidenceLedger
  let absoluteFloor ← finiteFloat value.absoluteScaleFloor false true
  let preCount ← count value.prePointCount
  let postCount ← count value.postPointCount
  let expectedEligible := eligible policy preCount postCount
  require (value.eligible = expectedEligible ∧ value.candidate.isSome = value.eligible)
    .invalidEvidenceLedger
  let shell : SignalEvaluation F :=
    { signalKey := signalKey
      absoluteScaleFloor := absoluteFloor
      prePointCount := preCount
      postPointCount := postCount
      eligible := value.eligible
      candidate := none }
  let candidate ← candidateIf value.eligible value.candidate shell policy
  return { shell with candidate := candidate }

/-- The loop of `_evaluations`. -/
def copyEvaluations (policy : BaselinePolicy F) :
    List Str → List (SignalEvaluation F) → Except DomainError (List (SignalEvaluation F))
  | _, [] => return []
  | seen, value :: values => do
    let evaluation ← copyEvaluation policy seen value
    let copied ← copyEvaluations policy (evaluation.signalKey.value :: seen) values
    return evaluation :: copied

/-- `_evaluations`: the evaluations in key order and the candidates by suspicion. -/
def evaluations (values : List (SignalEvaluation F)) (policy : BaselinePolicy F) :
    Except DomainError (List (SignalEvaluation F) × List (SuspicionCandidate F)) := do
  let copied ← copyEvaluations policy [] values
  return (sortedOn (fun e => e.signalKey.value) copied, rankedCandidates copied)

/-- What `_evaluations` requires of one evaluation. -/
structure EvaluationOk (policy : BaselinePolicy F) (e : SignalEvaluation F) : Prop where
  key : TextIdentifier.Valid e.signalKey
  floor : isFinite e.absoluteScaleFloor = true ∧ le e.absoluteScaleFloor zero = false
  preNonneg : 0 ≤ e.prePointCount
  postNonneg : 0 ≤ e.postPointCount
  eligible : e.eligible = eligible policy e.prePointCount e.postPointCount
  isSome : e.candidate.isSome = e.eligible
  candidate : ∀ c, e.candidate = some c →
    CandidateOk policy e.signalKey e.prePointCount e.postPointCount e.absoluteScaleFloor c

section laws
variable [LawfulPyFloat F] {policy : BaselinePolicy F}

/-- The candidate of an evaluation is rebuilt unchanged. -/
theorem candidateIf_eq_ok {eligible : Bool} {value c : Option (SuspicionCandidate F)}
    {shell : SignalEvaluation F} (hsome : value.isSome = eligible) :
    candidateIf eligible value shell policy = .ok c ↔
      c = value ∧ ∀ d, value = some d →
        CandidateOk policy shell.signalKey shell.prePointCount shell.postPointCount
          shell.absoluteScaleFloor d := by
  subst hsome
  cases value with
  | none => simp [candidateIf]
  | some d =>
    simp only [candidateIf, Option.isSome_some, if_true, map_eq_ok, candidate_eq_ok,
      Option.some.injEq]
    constructor
    · rintro ⟨e, ⟨hok, rfl⟩, rfl⟩
      exact ⟨rfl, fun _ h => h ▸ hok⟩
    · rintro ⟨rfl, h⟩
      exact ⟨d, ⟨h d rfl, rfl⟩, rfl⟩

theorem copyEvaluation_eq_ok {seen : List Str} {value e : SignalEvaluation F} :
    copyEvaluation policy seen value = .ok e ↔
      EvaluationOk policy value ∧ value.signalKey.value ∉ seen ∧ e = value := by
  simp only [copyEvaluation, bind_eq_ok, signalKey_eq_ok, require_eq_ok, count_eq_ok,
    finiteFloat_positive_eq_ok, pure_eq_ok]
  constructor
  · rintro ⟨_, ⟨hkey, rfl⟩, _, hseen, _, ⟨hfloor, rfl⟩, _, ⟨hpre, rfl⟩, _, ⟨hpost, rfl⟩,
      _, ⟨helig, hsome⟩, c, hc, rfl⟩
    obtain ⟨rfl, hcand⟩ := (candidateIf_eq_ok hsome).mp hc
    exact ⟨⟨hkey, hfloor, hpre, hpost, helig, hsome, hcand⟩, hseen, rfl⟩
  · rintro ⟨⟨hkey, hfloor, hpre, hpost, helig, hsome, hcand⟩, hseen, rfl⟩
    exact ⟨_, ⟨hkey, rfl⟩, (), hseen, _, ⟨hfloor, rfl⟩, _, ⟨hpre, rfl⟩, _, ⟨hpost, rfl⟩,
      (), ⟨helig, hsome⟩, _, (candidateIf_eq_ok hsome).mpr ⟨rfl, hcand⟩, rfl⟩

theorem copyEvaluations_eq_ok {seen : List Str} {values copied : List (SignalEvaluation F)} :
    copyEvaluations policy seen values = .ok copied ↔
      (∀ e ∈ values, EvaluationOk policy e) ∧ (values.map (·.signalKey.value)).Nodup ∧
        (∀ e ∈ values, e.signalKey.value ∉ seen) ∧ copied = values := by
  induction values generalizing seen copied with
  | nil => simp [copyEvaluations]
  | cons v vs ih =>
    simp only [copyEvaluations, bind_eq_ok, copyEvaluation_eq_ok, ih, pure_eq_ok,
      List.forall_mem_cons, List.map_cons, List.nodup_cons]
    constructor
    · rintro ⟨_, ⟨hv, hseen, rfl⟩, _, ⟨hvs, hnodup, hfresh, rfl⟩, rfl⟩
      refine ⟨⟨hv, hvs⟩, ⟨?_, hnodup⟩, ⟨hseen, ?_⟩, rfl⟩
      · intro hmem
        obtain ⟨e, he, hkey⟩ := List.mem_map.mp hmem
        exact hfresh e he (hkey ▸ List.mem_cons_self)
      · exact fun e he hmem => hfresh e he (List.mem_cons_of_mem _ hmem)
    · rintro ⟨⟨hv, hvs⟩, ⟨hnew, hnodup⟩, ⟨hseen, hfresh⟩, rfl⟩
      refine ⟨_, ⟨hv, hseen, rfl⟩, _, ⟨hvs, hnodup, fun e he hmem => ?_, rfl⟩, rfl⟩
      rcases List.mem_cons.mp hmem with heq | hmem
      · exact hnew (heq ▸ List.mem_map_of_mem he)
      · exact hfresh e he hmem

theorem evaluations_eq_ok {values : List (SignalEvaluation F)}
    {result : List (SignalEvaluation F) × List (SuspicionCandidate F)} :
    evaluations values policy = .ok result ↔
      (∀ e ∈ values, EvaluationOk policy e) ∧ (values.map (·.signalKey.value)).Nodup ∧
        result = (sortedOn (fun e => e.signalKey.value) values, rankedCandidates values) := by
  simp only [evaluations, bind_eq_ok, copyEvaluations_eq_ok, pure_eq_ok]
  constructor
  · rintro ⟨_, ⟨hok, hnodup, _, rfl⟩, rfl⟩
    exact ⟨hok, hnodup, rfl⟩
  · rintro ⟨hok, hnodup, rfl⟩
    exact ⟨values, ⟨hok, hnodup, fun _ _ => List.not_mem_nil, rfl⟩, rfl⟩

end laws

end Parsing

end IncidentEvidence
