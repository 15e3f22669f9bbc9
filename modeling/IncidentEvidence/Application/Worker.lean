import IncidentEvidence.Application.Creation
import IncidentEvidence.Application.Sessions
import IncidentEvidence.Domain.LedgerJson
import IncidentEvidence.Domain.VerificationJson
import IncidentEvidence.Llm.Parsing

/-! # The investigation worker

    `application/worker.py`. The telemetry source and the model are outside: each
    may return anything or raise anything. What the stages between the awaits
    compute is a function of what came back; `prepare` is all of them together.

    A value of a type the code does not expect is represented by the exception of
    its first use.
-/

namespace IncidentEvidence

open Py Py.Action Serialization

/-! ### Ports -/

/-- What an awaited port does. -/
inductive Outcome (α : Type) where
  | returns (value : α)
  /-- It returns something else, whose first use raises `e`. -/
  | illTyped (e : PyException)
  | raises (e : PyException)

/-- The value the caller has, or the exception that leaves the await. -/
def Outcome.reply {α : Type} : Outcome α → Except PyException (Except PyException α)
  | .returns value => .ok (.ok value)
  | .illTyped e => .ok (.error e)
  | .raises e => .error e

/-- `LLMProposal`: what the worker reads of it. Parsing a `raw_json` that is no text
    raises as well. -/
structure LLMProposal where
  rawJson : Except PyException Str
  promptTokens : Option Int
  completionTokens : Option Int

/-- What a call of `run_once` meets. -/
structure Environment (F : Type) [PyFloat F] extends Surroundings where
  load : Outcome (List (SignalBaselineInput F))
  proposal : Outcome LLMProposal
  attemptId : UUID
  limits : RecursionLimits

/-- The settings of a worker. -/
structure Worker (F : Type) where
  workerId : Text
  /-- In microseconds. -/
  lease : Int
  maxAttempts : Int
  policy : BaselinePolicy F

/-! ### Stages -/

/-- `except DomainError as exc: raise _TerminalFailure(exc.code)`. -/
def terminalOnDomain {α : Type} : Except PyException α → Except PyException α
  | .error (.domain e) => .error (.terminalFailure e.code)
  | x => x

/-- `except LLMValidationError as exc: raise _TerminalFailure(exc.code)`. -/
def terminalOnValidation {α : Type} : Except PyException α → Except PyException α
  | .error (.llm e) => if e.isValidation then .error (.terminalFailure e.code) else .error (.llm e)
  | x => x

/-- The `except` clause around `telemetry.load`. -/
def telemetryFailure : PyException → PyException
  | .application .telemetryUnavailable => .terminalFailure (str "telemetry_unavailable")
  | e => e

/-- The `except` clauses around `propose_metric_hypotheses`. -/
def providerFailure : PyException → PyException
  | .timeoutError => .retryableFailure (str "provider_timeout")
  | .llm .providerTimeout | .llm .providerUnavailable =>
    .retryableFailure (str "provider_unavailable")
  | .llm .providerResponse => .terminalFailure (str "provider_response_invalid")
  | e => e

/-- What leaves the await of a port whose exceptions `failure` maps. -/
def awaited {α : Type} (failure : PyException → PyException) (outcome : Outcome α) :
    Except PyException (Except PyException α) :=
  match outcome.reply with
  | .ok value => .ok value
  | .error e => .error (failure e)

theorem schemaVersion_notBlank : isBlank SCHEMA_VERSION = false := by decide

section stages
variable {F : Type} [PyFloat F] [FloatHex F] [Sha256]

/-- Ranking the telemetry and compiling the ledger. -/
def baselineStage (policy : BaselinePolicy F) (investigation : InvestigationRecord)
    (telemetry : Except PyException (List (SignalBaselineInput F))) :
    Except PyException (BaselineResult F × MetricEvidenceLedger F) :=
  terminalOnDomain do
    let telemetry ← telemetry
    let baseline ← liftDomain (rankMetricShifts investigation.window telemetry policy)
    let ledger ← liftDomain (compileMetricShiftLedger investigation.tenant investigation.incident
      investigation.run investigation.window baseline)
    return (baseline, ledger)

/-- `frozenset(entry.signal_key for entry in ledger.entries)`. -/
def allowedSignals (ledger : MetricEvidenceLedger F) : Finset SignalKey :=
  (ledger.entries.map (·.signalKey)).toFinset

/-- The request the worker sends. -/
def hypothesisRequest (investigation : InvestigationRecord) (ledger : MetricEvidenceLedger F) :
    HypothesisRequest where
  tenant := investigation.tenant
  incident := investigation.incident
  run := investigation.run
  allowedSignals := allowedSignals ledger

/-- `inc` of the token counter: the sum is a float. -/
def countToken (F : Type) [PyFloat F] : Option Int → Except PyException Unit
  | some amount =>
    -- only positive counts are counted, so that `inc` does not refuse them
    if 0 < amount ∧ (PyFloat.ofInt amount : Option F) = none then .error .overflowError else .ok ()
  | none => .ok ()

/-- Both token counters. -/
def countTokens (F : Type) [PyFloat F] (proposal : LLMProposal) : Except PyException Unit := do
  countToken F proposal.promptTokens
  countToken F proposal.completionTokens

/-- Parsing the model's text. -/
def parseStage (limits : RecursionLimits) (proposal : LLMProposal) (allowed : Finset SignalKey) :
    Except PyException HypothesisDocument :=
  terminalOnValidation do
    let raw ← proposal.rawJson
    parseMetricHypothesis limits raw allowed

/-- What the pipeline is about to persist. -/
structure Prepared (F : Type) extends Provenance F where
  entries : List (EvidenceId × Str)
  report : Str
  baselineReport : Str

/-- Verifying the document and writing the payloads. -/
def verifyStage (baseline : BaselineResult F) (ledger : MetricEvidenceLedger F)
    (document : HypothesisDocument) : Except PyException (Prepared F) :=
  terminalOnDomain (liftDomain do
    let verification ← verifyHypothesis document ledger
    let entries ← ledger.entries.mapM fun entry => do
      let payload ← metricEvidenceEntryJson entry
      return (entry.evidenceId, payload)
    let report ← verificationJson verification
    let baselineReport ← baselineRankingJson baseline
    return ⟨⟨baseline, ledger, document, verification⟩, entries, report, baselineReport⟩)

/-- A row for one entry of the ledger. -/
def evidenceRecord (investigation : InvestigationRecord) (now : Datetime)
    (entry : EvidenceId × Str) : Except PyException EvidenceRecord := do
  let payload ← checkText entry.2
  return {
    tenant := investigation.tenant
    investigationId := investigation.investigationId
    run := investigation.run
    evidenceId := entry.1
    ledgerKind := .metric
    schemaVersion := ⟨SCHEMA_VERSION, schemaVersion_notBlank⟩
    payload := payload
    createdAt := now }

def reportRecord (investigation : InvestigationRecord) (now : Datetime) (p : Prepared F) :
    Except PyException ReportRecord := do
  let payload ← checkText p.report
  let baselinePayload ← checkText p.baselineReport
  return {
    investigationId := investigation.investigationId
    tenant := investigation.tenant
    run := investigation.run
    schemaVersion := ⟨VERIFICATION_SCHEMA_VERSION, by decide⟩
    payload := payload
    createdAt := now
    baselinePayload := some baselinePayload }

end stages

/-! ### The worker -/

namespace Worker

variable {F : Type} [PyFloat F] [FloatHex F] [Sha256] (w : Worker F) (backend : Backend)
  (env : Environment F)

/-- `reports.put`, with the provenance of the report. -/
def putReport (record : ReportRecord) (provenance : Provenance F) :
    Action PyException (Session F) Unit :=
  statement backend env.toSurroundings do
    let _ ← onStore (ReportRepository.put record)
    modify fun t =>
      { t with provenance := t.provenance.set record.investigationId.value provenance }

/-- The `persist` stage and what follows it. -/
def persist (investigation : InvestigationRecord) (p : Prepared F) :
    Action PyException (Session F) Unit := do
  -- one moment for the rows, the report and the audit record
  let now ← readClock env.toSurroundings
  let rows ← lift (p.entries.mapM (evidenceRecord investigation now))
  let _ ← statement backend env.toSurroundings (onStore (EvidenceRepository.append rows))
  let report ← lift (reportRecord investigation now p)
  putReport backend env report p.toProvenance
  let _ ← setInvestigationStatus backend env.toSurroundings investigation.tenant
    investigation.investigationId .succeeded
  recordAudit backend env.toSurroundings {
    tenant := investigation.tenant
    investigationId := some investigation.investigationId
    actor := w.workerId
    action := CreateInvestigation.literal "report.persisted" CreateInvestigation.persisted_notBlank
    detail := none
    occurredAt := now }

/-- `_run_pipeline`. -/
def runPipeline (investigation : InvestigationRecord) : Action PyException (Session F) Unit := do
  awaiting env.toSurroundings
  let telemetry ← lift (awaited telemetryFailure env.load)
  let (baseline, ledger) ← lift (baselineStage w.policy investigation telemetry)
  let request := hypothesisRequest investigation ledger
  awaiting env.toSurroundings
  -- the request is kept for what is said of the prompts
  modify fun s => { s with requests := s.requests ++ [request] }
  let proposal ← lift (awaited providerFailure env.proposal)
  let proposal ← lift proposal
  lift (countTokens F proposal)
  let document ← lift (parseStage env.limits proposal request.allowedSignals)
  let prepared ← lift (verifyStage baseline ledger document)
  w.persist backend env investigation prepared

/-- `_record_attempt`. -/
def recordAttempt (claimed : ClaimedJob) (started : Datetime) (outcome : AttemptOutcome)
    (errorCode : Option Str) : Action PyException (Session F) Unit := do
  let attemptId ← drawId env.attemptId
  let finishedAt ← readClock env.toSurroundings
  let createdAt ← readClock env.toSurroundings
  let errorCode ← lift (CreateInvestigation.checkOptionalText errorCode)
  let _ ← statement backend env.toSurroundings (onStore (AttemptRepository.record {
    attemptId := ⟨attemptId⟩
    jobId := claimed.jobId
    tenant := claimed.tenant
    attemptNumber := claimed.attemptCount
    workerId := w.workerId
    startedAt := started
    finishedAt := some finishedAt
    outcome := some outcome
    errorCode := errorCode
    createdAt := createdAt }))

/-- `_terminal_fail`. -/
def terminalFail (claimed : ClaimedJob) (started : Datetime) (code : Str) :
    Action PyException (Session F) Unit := do
  let _ ← setInvestigationStatus backend env.toSurroundings claimed.tenant claimed.investigationId
    .failed
  let _ ← setJobStatus backend env.toSurroundings claimed.tenant claimed.jobId .failed
  w.recordAttempt backend env claimed started .failed (some code)
  -- the third reading: the attempt has taken two
  let occurredAt ← readClock env.toSurroundings
  let detail ← lift (CreateInvestigation.checkOptionalText (some code))
  recordAudit backend env.toSurroundings {
    tenant := claimed.tenant
    investigationId := some claimed.investigationId
    actor := w.workerId
    action := CreateInvestigation.literal "investigation.failed" CreateInvestigation.failed_notBlank
    detail := detail
    occurredAt := occurredAt }

/-- `_retry_or_fail`. -/
def retryOrFail (claimed : ClaimedJob) (started : Datetime) (code : Str) :
    Action PyException (Session F) Unit := do
  if w.maxAttempts ≤ (claimed.attemptCount : ℕ) then
    w.terminalFail backend env claimed started code
  else
    let _ ← setJobStatus backend env.toSurroundings claimed.tenant claimed.jobId .queued
    w.recordAttempt backend env claimed started .failed (some code)

/-- The `except` clauses around the pipeline. -/
def handle (claimed : ClaimedJob) (started : Datetime) :
    PyException → Action PyException (Session F) Unit
  | .terminalFailure code => w.terminalFail backend env claimed started code
  | .retryableFailure code => w.retryOrFail backend env claimed started code
  | e =>
    -- a cancellation is no `Exception`: it leaves the call
    if e.isException then w.terminalFail backend env claimed started (str "internal_error")
    else throw e

/-- The pipeline, its `except` clauses and their `else`. -/
def process (claimed : ClaimedJob) (started : Datetime) (investigation : InvestigationRecord) :
    Action PyException (Session F) Unit := do
  match ← (w.runPipeline backend env investigation).attempt with
  | .error e => w.handle backend env claimed started e
  | .ok () =>
    let _ ← setJobStatus backend env.toSurroundings claimed.tenant claimed.jobId .succeeded
    w.recordAttempt backend env claimed started .succeeded none

/-- `run_once` from the claimed job on. -/
def runClaimed (claimed : ClaimedJob) : Action PyException (Session F) Bool := do
  let started ← readClock env.toSurroundings
  match ← (getInvestigation backend env.toSurroundings claimed.tenant
    claimed.investigationId).attempt with
  | .error (.persistence .recordNotFound) =>
    -- no investigation to work on: the job ends without an attempt
    let _ ← setJobStatus backend env.toSurroundings claimed.tenant claimed.jobId .failed
    commit backend env.toSurroundings
    return true
  | .error e => throw e
  | .ok investigation =>
    if investigation.status = .cancelled then
      -- neither is an attempt recorded for a cancelled one
      let _ ← setJobStatus backend env.toSurroundings claimed.tenant claimed.jobId .cancelled
      commit backend env.toSurroundings
      return true
    else
      let _ ← setInvestigationStatus backend env.toSurroundings claimed.tenant
        claimed.investigationId .running
      w.process backend env claimed started investigation
      commit backend env.toSurroundings
      return true

/-- `run_once`. -/
def runOnce : Action PyException (Session F) Bool :=
  scope env.toSurroundings do
    let now ← readClock env.toSurroundings
    let claimed ← statement backend env.toSurroundings
      (onStore (JobQueue.claim w.workerId.1 w.lease now))
    match claimed with
    | none =>
      commit backend env.toSurroundings
      return false
    | some claimed => w.runClaimed backend env claimed

/-! ### What the parts of a call leave alone -/

variable {w backend env}

omit [FloatHex F] [Sha256] in
theorem keeps_putReport (record : ReportRecord) (provenance : Provenance F) :
    Keeps Session.outside (putReport backend env record provenance) := keeps_statement _

omit [FloatHex F] [Sha256] in
theorem keeps_persist (investigation : InvestigationRecord) (p : Prepared F) :
    Keeps Session.outside (w.persist backend env investigation p) := by
  unfold persist
  refine keeps_readClock.bind fun now => ?_
  refine (Keeps.lift _).bind fun rows => ?_
  refine (keeps_statement _).bind fun _ => ?_
  refine (Keeps.lift _).bind fun report => ?_
  refine (keeps_putReport _ _).bind fun _ => ?_
  exact (keeps_setInvestigationStatus _ _ _).bind fun _ => keeps_recordAudit _

omit [FloatHex F] [Sha256] in
theorem keeps_recordAttempt (claimed : ClaimedJob) (started : Datetime) (outcome : AttemptOutcome)
    (errorCode : Option Str) :
    Keeps Session.outside (w.recordAttempt backend env claimed started outcome errorCode) := by
  unfold recordAttempt
  refine (keeps_drawId _).bind fun attemptId => ?_
  refine keeps_readClock.bind fun finishedAt => ?_
  refine keeps_readClock.bind fun createdAt => ?_
  refine (Keeps.lift _).bind fun errorCode => ?_
  exact (keeps_statement _).bind fun _ => .pure _

omit [FloatHex F] [Sha256] in
theorem keeps_terminalFail (claimed : ClaimedJob) (started : Datetime) (code : Str) :
    Keeps Session.outside (w.terminalFail backend env claimed started code) := by
  unfold terminalFail
  refine (keeps_setInvestigationStatus _ _ _).bind fun _ => ?_
  refine (keeps_setJobStatus _ _ _).bind fun _ => ?_
  refine (keeps_recordAttempt _ _ _ _).bind fun _ => ?_
  refine keeps_readClock.bind fun occurredAt => ?_
  exact (Keeps.lift _).bind fun detail => keeps_recordAudit _

omit [FloatHex F] [Sha256] in
theorem keeps_retryOrFail (claimed : ClaimedJob) (started : Datetime) (code : Str) :
    Keeps Session.outside (w.retryOrFail backend env claimed started code) := by
  unfold retryOrFail
  apply Keeps.ite
  · exact keeps_terminalFail _ _ _
  · exact (keeps_setJobStatus _ _ _).bind fun _ => keeps_recordAttempt _ _ _ _

omit [FloatHex F] [Sha256] in
theorem keeps_handle (claimed : ClaimedJob) (started : Datetime) (e : PyException) :
    Keeps Session.outside (w.handle backend env claimed started e) := by
  unfold handle
  split
  · exact keeps_terminalFail _ _ _
  · exact keeps_retryOrFail _ _ _
  · exact .ite (keeps_terminalFail _ _ _) (.throw _)

end Worker

end IncidentEvidence
