import IncidentEvidence.Domain.Evidence.Compiled
import IncidentEvidence.Domain.Hypotheses

/-! # Deterministic tri-state verification

    `verifier.py` and `change_verifier.py`: two gates (context, causal claims),
    then one verdict for each predicate and their three-valued composition. Both
    verifiers are `verifyDocument` applied to their own predicate evaluation.
-/

namespace IncidentEvidence

open Py PyFloat

/-! ### Verdicts -/

inductive VerificationVerdict where
  | supported
  | refuted
  | unknown
  deriving DecidableEq

def VerificationVerdict.value : VerificationVerdict → Str
  | .supported => str "supported"
  | .refuted => str "refuted"
  | .unknown => str "unknown"

/-- `_compose`, on the verdicts of the children. -/
def compose (composition : HypothesisComposition) (verdicts : List VerificationVerdict) :
    VerificationVerdict :=
  match composition with
  | .all =>
    if .refuted ∈ verdicts then .refuted
    else if .unknown ∈ verdicts then .unknown
    else .supported
  | .any =>
    if .supported ∈ verdicts then .supported
    else if .unknown ∈ verdicts then .unknown
    else .refuted

/-- Children that are all unknown compose to unknown. -/
theorem compose_unknown {composition : HypothesisComposition} {verdicts : List VerificationVerdict}
    (hne : verdicts ≠ []) (h : ∀ v ∈ verdicts, v = .unknown) :
    compose composition verdicts = .unknown := by
  have hmem : .unknown ∈ verdicts := by
    obtain ⟨v, hv⟩ := List.exists_mem_of_ne_nil _ hne
    exact h v hv ▸ hv
  have hrefuted : .refuted ∉ verdicts := fun hr => by simpa using h _ hr
  have hsupported : .supported ∉ verdicts := fun hs => by simpa using h _ hs
  cases composition <;> simp [compose, hmem, hrefuted, hsupported]

/-! ### One document -/

/-- The trace of one predicate: what the results of both verifiers have in
    common. -/
class PredicateTrace (R : Type) (Reason : outParam Type) where
  predicateId : R → Str
  verdict : R → VerificationVerdict
  reason : R → Option Reason
  supportingEvidenceIds : R → List EvidenceId
  contradictingEvidenceIds : R → List EvidenceId

/-- The composed verdict plus every child trace in declaration order. -/
structure VerificationResult (R Reason : Type) where
  hypothesisId : Str
  composition : HypothesisComposition
  verdict : VerificationVerdict
  reason : Option Reason
  predicateResults : List R
  supportingEvidenceIds : List EvidenceId
  contradictingEvidenceIds : List EvidenceId

section document
variable {P R Reason : Type} [Predicate P] [PredicateTrace R Reason]

/-- The document is about this run of this incident. -/
def contextMatches (d : Document P) (tenant : TenantId) (incident : IncidentId) (run : RunId) :
    Prop :=
  d.tenantId = tenant ∧ d.incidentId = incident ∧ d.runId = run

instance (d : Document P) (tenant : TenantId) (incident : IncidentId) (run : RunId) :
    Decidable (contextMatches d tenant incident run) :=
  inferInstanceAs (Decidable (_ ∧ _))

/-- The reason that gates a whole document, if any. -/
def documentReason (contextMismatch causal : Reason) (d : Document P) (tenant : TenantId)
    (incident : IncidentId) (run : RunId) : Option Reason :=
  if ¬ contextMatches d tenant incident run then some contextMismatch
  else if d.semantics = .causal then some causal
  else none

omit [PredicateTrace R Reason] in
theorem documentReason_eq_none {contextMismatch causal : Reason} {d : Document P}
    {tenant : TenantId} {incident : IncidentId} {run : RunId} :
    documentReason contextMismatch causal d tenant incident run = none ↔
      contextMatches d tenant incident run ∧ d.semantics = .descriptive := by
  unfold documentReason
  split
  · next h => simp [h]
  · next h =>
    rw [not_not] at h
    cases hs : d.semantics <;> simp [h]

/-- The part of both verifiers after validation: gate the document or evaluate
    its predicates, compose, and collect the evidence ids. -/
def verifyDocument (d : Document P) (gate : Option Reason) (unknown : P → Reason → R)
    (evaluate : P → R) : VerificationResult R Reason :=
  let results :=
    match gate with
    | some reason => d.predicates.map fun p => unknown p reason
    | none => d.predicates.map evaluate
  { hypothesisId := d.hypothesisId
    composition := d.composition
    verdict :=
      match gate with
      | some _ => .unknown
      | none => compose d.composition (results.map PredicateTrace.verdict)
    reason := gate
    predicateResults := results
    supportingEvidenceIds := results.flatMap PredicateTrace.supportingEvidenceIds
    contradictingEvidenceIds := results.flatMap PredicateTrace.contradictingEvidenceIds }

end document

/-! ### Metric hypotheses -/

/-- Why metric evidence cannot decide a predicate. -/
inductive UnknownReason where
  | contextMismatch
  | causalClaimNotVerifiable
  | signalNotFound
  | insufficientEvidence
  | noDirectionalShift
  | weakEvidence
  deriving DecidableEq

def UnknownReason.value : UnknownReason → Str
  | .contextMismatch => str "context_mismatch"
  | .causalClaimNotVerifiable => str "causal_claim_not_verifiable"
  | .signalNotFound => str "signal_not_found"
  | .insufficientEvidence => str "insufficient_evidence"
  | .noDirectionalShift => str "no_directional_shift"
  | .weakEvidence => str "weak_evidence"

/-- The non-zero sign of an eligible metric-shift score. -/
inductive ObservedDirection where
  | increase
  | decrease
  deriving DecidableEq

def ObservedDirection.value : ObservedDirection → Str
  | .increase => str "increase"
  | .decrease => str "decrease"

/-- A complete trace for one declared metric predicate. -/
structure PredicateVerificationResult (F : Type) where
  predicateId : Str
  verdict : VerificationVerdict
  reason : Option UnknownReason
  observedDirection : Option ObservedDirection
  minimumScore : F
  supportingEvidenceIds : List EvidenceId
  contradictingEvidenceIds : List EvidenceId

instance (F : Type) : PredicateTrace (PredicateVerificationResult F) UnknownReason where
  predicateId := PredicateVerificationResult.predicateId
  verdict := PredicateVerificationResult.verdict
  reason := PredicateVerificationResult.reason
  supportingEvidenceIds := PredicateVerificationResult.supportingEvidenceIds
  contradictingEvidenceIds := PredicateVerificationResult.contradictingEvidenceIds

abbrev HypothesisVerificationResult (F : Type) :=
  VerificationResult (PredicateVerificationResult F) UnknownReason

section metric
variable {F : Type} [PyFloat F]

/-- `_unknown`. -/
def unknown (predicate : MetricShiftPredicate) (reason : UnknownReason) (minimumScore : F)
    (observedDirection : Option ObservedDirection := none) : PredicateVerificationResult F where
  predicateId := predicate.predicateId
  verdict := .unknown
  reason := some reason
  observedDirection := observedDirection
  minimumScore := minimumScore
  supportingEvidenceIds := []
  contradictingEvidenceIds := []

/-- `_evaluate_predicate`. -/
def evaluatePredicate (predicate : MetricShiftPredicate) (entry : Option (MetricShiftEvidence F))
    (minimumScore : F) : PredicateVerificationResult F :=
  match entry with
  | none => unknown predicate .signalNotFound minimumScore
  | some entry =>
    match entry.eligible, entry.candidate with
    | false, _ => unknown predicate .insufficientEvidence minimumScore
    | true, none => unknown predicate .insufficientEvidence minimumScore
    | true, some candidate =>
      if PyFloat.eq candidate.signedScore zero then
        unknown predicate .noDirectionalShift minimumScore
      else
        let observed : ObservedDirection :=
          if lt zero candidate.signedScore then .increase else .decrease
        if lt candidate.suspicionScore minimumScore then
          unknown predicate .weakEvidence minimumScore (some observed)
        else
          let agrees : Bool := observed.value = predicate.expectedDirection.value
          { predicateId := predicate.predicateId
            verdict := if agrees then .supported else .refuted
            reason := none
            observedDirection := some observed
            minimumScore := minimumScore
            supportingEvidenceIds := if agrees then [entry.evidenceId] else []
            contradictingEvidenceIds := if agrees then [] else [entry.evidenceId] }

/-- The result of a predicate bears its id. -/
@[simp] theorem evaluatePredicate_id (predicate : MetricShiftPredicate)
    (entry : Option (MetricShiftEvidence F)) (minimumScore : F) :
    (evaluatePredicate predicate entry minimumScore).predicateId = predicate.predicateId := by
  unfold evaluatePredicate
  split
  · rfl
  · split
    · rfl
    · rfl
    · split
      · rfl
      · dsimp only
        split <;> rfl

/-- `{entry.signal_key: entry for entry in entries}.get(key)`: the last entry
    with the key. -/
def bySignal (entries : List (MetricShiftEvidence F)) (key : SignalKey) :
    Option (MetricShiftEvidence F) :=
  entries.reverse.find? fun entry => entry.signalKey = key

/-- `verify_hypothesis`. -/
def verifyHypothesis [FloatHex F] [Sha256] (hypothesis : HypothesisDocument)
    (ledger : MetricEvidenceLedger F) : Except DomainError (HypothesisVerificationResult F) := do
  let hypothesis ← validateHypothesisDocument hypothesis
  let ledger ← validateMetricEvidenceLedger ledger
  let minimumScore := ledger.policy.minimumScore
  let gate := documentReason .contextMismatch .causalClaimNotVerifiable hypothesis ledger.tenantId
    ledger.incidentId ledger.runId
  return verifyDocument hypothesis gate (fun p reason => unknown p reason minimumScore)
    fun p => evaluatePredicate p (bySignal ledger.entries p.signalKey) minimumScore

end metric

/-! ### Change hypotheses -/

/-- Why change evidence cannot decide a claim of co-occurrence. -/
inductive ChangeUnknownReason where
  | contextMismatch
  | causalClaimNotVerifiable
  | changeNotObserved
  deriving DecidableEq

def ChangeUnknownReason.value : ChangeUnknownReason → Str
  | .contextMismatch => str "context_mismatch"
  | .causalClaimNotVerifiable => str "causal_claim_not_verifiable"
  | .changeNotObserved => str "change_not_observed"

/-- A complete trace for one declared change predicate. -/
structure ChangePredicateVerificationResult where
  predicateId : Str
  verdict : VerificationVerdict
  reason : Option ChangeUnknownReason
  phaseConstraint : ChangePhaseConstraint
  supportingEvidenceIds : List EvidenceId
  contradictingEvidenceIds : List EvidenceId

instance : PredicateTrace ChangePredicateVerificationResult ChangeUnknownReason where
  predicateId := ChangePredicateVerificationResult.predicateId
  verdict := ChangePredicateVerificationResult.verdict
  reason := ChangePredicateVerificationResult.reason
  supportingEvidenceIds := ChangePredicateVerificationResult.supportingEvidenceIds
  contradictingEvidenceIds := ChangePredicateVerificationResult.contradictingEvidenceIds

abbrev ChangeHypothesisVerificationResult :=
  VerificationResult ChangePredicateVerificationResult ChangeUnknownReason

namespace ChangeEvidence

/-- `_phase_satisfies`. -/
def phaseSatisfies (phase : ChangePhase) (constraint : ChangePhaseConstraint) : Bool :=
  match constraint with
  | .withinWindow => phase = .preInjection || phase = .postInjection
  | .preInjection => phase = .preInjection
  | .postInjection => phase = .postInjection

/-- `_unknown`. -/
def unknown (predicate : ChangeCooccurrencePredicate) (reason : ChangeUnknownReason) :
    ChangePredicateVerificationResult where
  predicateId := predicate.predicateId
  verdict := .unknown
  reason := some reason
  phaseConstraint := predicate.phaseConstraint
  supportingEvidenceIds := []
  contradictingEvidenceIds := []

/-- `_evaluate_predicate`. -/
def evaluatePredicate (predicate : ChangeCooccurrencePredicate)
    (entries : List ChangeEventEvidence) : ChangePredicateVerificationResult :=
  let matching := entries.filter fun entry =>
    entry.eventKey = predicate.eventKey && entry.kind = predicate.kind
  -- absence of a change record is not proof that the change did not happen
  if matching.isEmpty then unknown predicate .changeNotObserved
  else
    let supporting := (matching.filter fun entry =>
      phaseSatisfies entry.phase predicate.phaseConstraint).map (·.evidenceId)
    if supporting.isEmpty then
      { predicateId := predicate.predicateId
        verdict := .refuted
        reason := none
        phaseConstraint := predicate.phaseConstraint
        supportingEvidenceIds := []
        contradictingEvidenceIds := matching.map (·.evidenceId) }
    else
      { predicateId := predicate.predicateId
        verdict := .supported
        reason := none
        phaseConstraint := predicate.phaseConstraint
        supportingEvidenceIds := supporting
        contradictingEvidenceIds := [] }

end ChangeEvidence

/-- `verify_change_hypothesis`. -/
def verifyChangeHypothesis [Sha256] (hypothesis : ChangeHypothesisDocument)
    (ledger : ChangeEventLedger) : Except DomainError ChangeHypothesisVerificationResult := do
  let hypothesis ← validateChangeHypothesisDocument hypothesis
  let ledger ← validateChangeEventLedger ledger
  let gate := documentReason .contextMismatch .causalClaimNotVerifiable hypothesis ledger.tenantId
    ledger.incidentId ledger.runId
  return verifyDocument hypothesis gate ChangeEvidence.unknown
    fun p => ChangeEvidence.evaluatePredicate p ledger.entries

/-! ### What the verifiers return -/

section results
variable {F : Type} [PyFloat F] [LawfulPyFloat F] [FloatHex F] [Sha256]

/-- **Accepted ledgers are verified**, and only they are. -/
theorem verifyHypothesis_eq_ok {h : HypothesisDocument} {l : MetricEvidenceLedger F}
    {result : HypothesisVerificationResult F} :
    verifyHypothesis h l = .ok result ↔ l.Accepted ∧ result = verifyDocument h
      (documentReason .contextMismatch .causalClaimNotVerifiable h l.tenantId l.incidentId l.runId)
      (fun p reason => unknown p reason l.policy.minimumScore)
      fun p => evaluatePredicate p (bySignal l.normalized.entries p.signalKey)
        l.policy.minimumScore := by
  simp only [verifyHypothesis, validateHypothesisDocument, validateDocument_eq, bind_eq_ok,
    validate_eq_ok, pure_eq_ok, Except.ok.injEq]
  constructor
  · rintro ⟨_, rfl, _, ⟨hacc, rfl⟩, rfl⟩
    exact ⟨hacc, rfl⟩
  · rintro ⟨hacc, rfl⟩
    exact ⟨h, rfl, _, ⟨hacc, rfl⟩, rfl⟩

omit [PyFloat F] [LawfulPyFloat F] [FloatHex F] in
theorem verifyChangeHypothesis_eq_ok {h : ChangeHypothesisDocument} {l : ChangeEventLedger}
    {result : ChangeHypothesisVerificationResult} :
    verifyChangeHypothesis h l = .ok result ↔ l.Accepted ∧ result = verifyDocument h
      (documentReason .contextMismatch .causalClaimNotVerifiable h l.tenantId l.incidentId l.runId)
      ChangeEvidence.unknown fun p => ChangeEvidence.evaluatePredicate p l.entries := by
  simp only [verifyChangeHypothesis, validateChangeHypothesisDocument, validateDocument_eq,
    bind_eq_ok, validateChange_eq_ok, pure_eq_ok, Except.ok.injEq]
  constructor
  · rintro ⟨_, rfl, _, ⟨hacc, rfl⟩, rfl⟩
    exact ⟨hacc, rfl⟩
  · rintro ⟨hacc, rfl⟩
    exact ⟨h, rfl, _, ⟨hacc, rfl⟩, rfl⟩

end results

end IncidentEvidence
