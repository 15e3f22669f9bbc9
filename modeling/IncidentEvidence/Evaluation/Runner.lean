import IncidentEvidence.Application.Worker
import IncidentEvidence.Concurrency.Gather
import IncidentEvidence.Evaluation.Adapter
import IncidentEvidence.Evaluation.Scoring
import IncidentEvidence.Runtime.Prometheus

/-! # The evaluation arms

    `evaluation/harness/runner.py` and `service_of` of `baseline_inputs.py`: a case is
    predicted by the baseline or by the restricted LLM pipeline, and the predictions of a
    batch are scored against the labels of its sidecar.

    A client is what it answers to the attempts at a request. The LLM arm gathers its
    predictions inside a semaphore; the order in which the provider calls complete is an
    argument of `evaluateBatch`. -/

namespace IncidentEvidence

open Py Gather

/-! ### Services -/

/-- `str.rpartition` with a separator of one character. -/
def rpartition (separator : CodePoint) (s : Str) : Str × Str × Str :=
  let (tail, found, head) := partition separator s.reverse
  if found = [] then ([], [], s) else (head.reverse, found, tail.reverse)

/-- `service_of`. -/
def serviceOf (signalKeyValue : Str) : Str :=
  let (service, separator, _) := rpartition (.scalar '_') signalKeyValue
  if separator ≠ [] then service else signalKeyValue

/-- The loop of `_dedup`, with what has been seen. -/
def dedupFrom (seen : List Str) : List Str → List Str
  | [] => []
  | service :: services =>
    if service ∈ seen then dedupFrom seen services
    else service :: dedupFrom (service :: seen) services

/-- `_dedup`. -/
def dedup (services : List Str) : List Str := dedupFrom [] services

/-! ### One case -/

/-- What an arm predicts: ranked services, an abstention, and how many evidence ids could not
    be resolved. -/
structure Prediction where
  services : List Str
  abstained : Bool
  invalidEvidenceIdCount : ℕ
  deriving DecidableEq

/-- `(), True, 0`. -/
def Prediction.abstention : Prediction := ⟨[], true, 0⟩

/-- An exception of the baseline inputs on its way up. -/
def fromSource {α : Type} : Except SourceException α → Except PyException α
  | .ok a => .ok a
  | .error (.domain e) => .error (.domain e)
  | .error .valueError => .error .valueError
  | .error .typeError => .error .typeError
  | .error .overflowError => .error .overflowError
  | .error .recursionError => .error .recursionError
  | .error _ => .error .other

/-- `_EVALUATION_TENANT`. -/
def evaluationTenant : TenantId := ⟨str "evaluation"⟩

/-- The settings of an evaluation. -/
structure Harness (F : Type) where
  policy : BaselinePolicy F
  floorPolicy : Option (ScaleFloorPolicy F)
  limits : RecursionLimits

/-- What a client does at each attempt at a request. -/
abbrev LLMClient := HypothesisRequest → ℕ → Except PyException LLMProposal

/-- `_MAX_PROVIDER_RETRIES`. -/
def MAX_PROVIDER_RETRIES : ℕ := 5

section arms
variable {F : Type} [PyFloat F] (H : Harness F)

/-- The inputs of the baseline. -/
def Harness.inputs (case : InvestigationCase F) :
    Except PyException (List (SignalBaselineInput F)) :=
  fromSource (toBaselineInputs (H.floorPolicy.getD .default) case.signals)

/-- `predict_services_baseline`. -/
def predictServicesBaseline (case : InvestigationCase F) : Except PyException Prediction := do
  let inputs ← H.inputs case
  let result ← liftDomain (rankMetricShifts case.window inputs H.policy)
  match result with
  | .abstention _ => return .abstention
  | .ranking ranking =>
    let services := dedup (ranking.candidates.map fun c => serviceOf c.signalKey.value)
    return ⟨services, false, 0⟩

section prepare
variable [FloatHex F] [Sha256]

/-- What the LLM arm has computed when it calls the provider. -/
structure PreparedCase (F : Type) where
  baseline : BaselineResult F
  ledger : MetricEvidenceLedger F
  request : HypothesisRequest

/-- `predict_services_with_llm` up to the first call of the provider. `_context` names the
    incident and the run after the case. -/
def Harness.prepare (case : InvestigationCase F) : Except PyException (PreparedCase F) := do
  let inputs ← H.inputs case
  let baseline ← liftDomain (rankMetricShifts case.window inputs H.policy)
  let incident : IncidentId := ⟨case.caseId.value.str⟩
  let run : RunId := ⟨case.caseId.value.str⟩
  let ledger ← liftDomain
    (compileMetricShiftLedger evaluationTenant incident run case.window baseline)
  return ⟨baseline, ledger, ⟨evaluationTenant, incident, run, allowedSignals ledger⟩⟩

end prepare

/-! ### From a verification to services -/

/-- `entry_by_id.get(evidence_id)`: the last entry with the id. -/
def entryById (entries : List (MetricShiftEvidence F)) (evidenceId : EvidenceId) :
    Option (MetricShiftEvidence F) :=
  entries.reverse.find? fun entry => entry.evidenceId = evidenceId

/-- `suspicion.get(key, 0.0)`. -/
def suspicion (entries : List (MetricShiftEvidence F)) (key : SignalKey) : F :=
  match bySignal entries key with
  | some entry =>
    match entry.candidate with
    | some candidate => candidate.suspicionScore
    | none => PyFloat.zero
  | none => PyFloat.zero

/-- The loop that collects `supported_keys`, with the values of the keys seen so far. -/
def supportedKeys (entries : List (MetricShiftEvidence F)) (seen : List Str) :
    List EvidenceId → List SignalKey
  | [] => []
  | evidenceId :: rest =>
    match entryById entries evidenceId with
    | none => supportedKeys entries seen rest
    | some entry =>
      if entry.signalKey.value ∈ seen then supportedKeys entries seen rest
      else entry.signalKey :: supportedKeys entries (entry.signalKey.value :: seen) rest

/-- Comparison of the sort keys `(-suspicion, key.value)`. -/
def keyLt (entries : List (MetricShiftEvidence F)) (a b : SignalKey) : Bool :=
  let x := PyFloat.neg (suspicion entries a)
  let y := PyFloat.neg (suspicion entries b)
  if PyFloat.eq x y then decide (a.value < b.value) else PyFloat.lt x y

/-- The end of `predict_services_with_llm`: the services of the evidence that a verification
    cites in support. -/
def predictionOf (entries : List (MetricShiftEvidence F)) (supporting : List EvidenceId) :
    Prediction :=
  let invalid := supporting.countP fun evidenceId => (entryById entries evidenceId).isNone
  let keys := sortedBy (keyLt entries) (supportedKeys entries [] supporting)
  let services := dedup (keys.map fun key => serviceOf key.value)
  ⟨services, services.isEmpty, invalid⟩

variable [FloatHex F] [Sha256]

/-- The body of the `try` that parses and verifies a proposal. -/
def Harness.verifyProposal (prepared : PreparedCase F) (proposal : LLMProposal) :
    Except PyException (HypothesisVerificationResult F) := do
  let raw ← proposal.rawJson
  let document ← parseMetricHypothesis H.limits raw prepared.request.allowedSignals
  liftDomain (verifyHypothesis document prepared.ledger)

/-- What a proposal becomes: an `LLMError` is an abstention. -/
def Harness.conclude (prepared : PreparedCase F) (proposal : LLMProposal) :
    Except PyException Prediction :=
  match H.verifyProposal prepared proposal with
  | .ok verification =>
    .ok (predictionOf prepared.ledger.entries verification.supportingEvidenceIds)
  | .error (.llm _) => .ok .abstention
  | .error e => .error e

variable (client : LLMClient)

/-- One attempt: a prediction, or nothing yet. -/
def Harness.attempt (prepared : PreparedCase F) (attempt : ℕ) :
    Except PyException (Option Prediction) :=
  match client prepared.request attempt with
  | .ok proposal => some <$> H.conclude prepared proposal
  | .error (.llm e) =>
    if e.isValidation = true ∨ MAX_PROVIDER_RETRIES ≤ attempt then .ok (some .abstention)
    else .ok none
  | .error e => .error e

/-- The retry loop, with so many attempts left. -/
def Harness.attempts (prepared : PreparedCase F) : ℕ → ℕ → Except PyException Prediction
  | 0, _ => .ok .abstention
  | left + 1, attempt => do
    match ← H.attempt client prepared attempt with
    | some prediction => return prediction
    | none => Harness.attempts prepared left (attempt + 1)

/-- `predict_services_with_llm`. -/
def predictServicesWithLlm (case : InvestigationCase F) : Except PyException Prediction := do
  let prepared ← H.prepare case
  H.attempts client prepared (MAX_PROVIDER_RETRIES + 1) 0

/-! ### A batch -/

/-- `Arm`, with the client of the LLM arm. -/
inductive Arm where
  | baseline
  | gemini
  deriving DecidableEq

/-- `_predict` as a coroutine: it is suspended in each call of the provider. -/
def predictCoroutine :
    Coroutine (InvestigationCase F) (PreparedCase F × ℕ) PyException Prediction where
  start case := do
    let prepared ← H.prepare case
    return .inl (prepared, 0)
  resume | (prepared, attempt) => do
    match ← H.attempt client prepared attempt with
    | some prediction => return .inr prediction
    | none => return .inl (prepared, attempt + 1)

/-- `cases[:limit]`. -/
def takeLimit {α : Type} (limit : Int) (cases : List α) : List α :=
  if 0 ≤ limit then cases.take limit.toNat else cases.take (cases.length - limit.natAbs)

/-- `{entry.case_id: entry.root_cause_service for entry in sidecar.entries}`. -/
def groundTruth (entries : List SidecarEntry) : Dict CaseId Str :=
  entries.foldl (fun truth entry => truth.set entry.caseId entry.rootCauseService) .empty

/-- One score: the prediction of a case is joined with the label of the case. -/
def scorePrediction (truth : Dict CaseId Str) (case : InvestigationCase F)
    (prediction : Prediction) : Except PyException CaseScore := do
  let label ← orRaise (truth.get? case.caseId) .keyError
  scoreCase prediction.services label prediction.abstained prediction.invalidEvidenceIdCount

/-- `evaluate_batch`, when the event loop wakes the tasks in the order `schedule`; `none` if
    that order does not complete them. -/
def evaluateBatch (arm : Arm) (client : Option LLMClient) (limit : Option Int)
    (concurrency : Int) (batch : EvaluationBatch F) (schedule : List ℕ) :
    Option (Except PyException EvaluationSummary) :=
  if arm = .gemini ∧ client.isNone = true then some (.error .valueError)
  else if concurrency < 1 then some (.error .valueError)
  else
    let truth := groundTruth batch.entries
    let cases := match limit with
      | none => batch.cases
      | some limit => takeLimit limit batch.cases
    match arm, client with
    | .gemini, some client =>
      (gather (predictCoroutine H client) concurrency.toNat (cases.map .waiting) schedule).map
        fun predictions => do
          let predictions ← predictions
          let scores ← (cases.zip predictions).mapM fun (case, prediction) =>
            scorePrediction truth case prediction
          return aggregate scores
    | _, _ => some do
      let scores ← cases.mapM fun case => do
        let prediction ← predictServicesBaseline H case
        scorePrediction truth case prediction
      return aggregate scores

end arms

end IncidentEvidence
