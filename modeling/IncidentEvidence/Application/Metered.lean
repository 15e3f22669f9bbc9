import IncidentEvidence.Application.Worker
import IncidentEvidence.Observability.Metrics
import IncidentEvidence.Py.Coupling

/-! # The worker and its metrics

    `run_once` as `application/worker.py` has it, with the counters and the stage
    timers that `Worker.runOnce` leaves out. The registry is shared by the workers
    and the metrics page; a call works on its tables and on the registry.

    While the registry is sound and every token count can be added to its total, the
    metrics have no effect on the call: `couples_runOnce` relates it step by step to
    `Worker.runOnce`, and the registry stays sound.
-/

namespace IncidentEvidence

open Py Py.Action Serialization Observability

/-! ### The metrics of a worker -/

namespace WorkerMetrics

/-- The names the worker registers. -/
def JOBS_TOTAL : Str := str "iec_worker_jobs_total"
def STAGE_SECONDS : Str := str "iec_worker_stage_duration_seconds"
def PROVIDER_TIMEOUTS_TOTAL : Str := str "iec_provider_timeouts_total"
def LLM_TOKENS_TOTAL : Str := str "iec_llm_tokens_total"
def VERDICTS_TOTAL : Str := str "iec_investigation_verdicts_total"

/-- The labels of the token counter. -/
def prompt : Str := str "prompt"
def completion : Str := str "completion"

variable {F : Type} [PyFloat F]

/-- What `Worker.__init__` registers. -/
def register (r : MetricsRegistry F) : Except PyException (MetricsRegistry F) := do
  let r ← r.counter JOBS_TOTAL (str "Worker job outcomes.") [str "outcome"]
  let r ← r.histogram STAGE_SECONDS (str "Per-stage worker latency in seconds.")
    DEFAULT_LATENCY_BUCKETS [str "stage"]
  let r ← r.counter PROVIDER_TIMEOUTS_TOTAL (str "LLM provider timeouts.") []
  let r ← r.counter LLM_TOKENS_TOTAL (str "LLM tokens consumed.") [str "kind"]
  r.counter VERDICTS_TOTAL (str "Verification verdicts.") [str "verdict"]

/-- The registry has the metrics of a worker, with their labels. -/
structure Registered (r : MetricsRegistry F) : Prop where
  jobs : r.counterLabels JOBS_TOTAL = some 1
  stages : r.histogramLabels STAGE_SECONDS = some 1
  timeouts : r.counterLabels PROVIDER_TIMEOUTS_TOTAL = some 0
  tokens : r.counterLabels LLM_TOKENS_TOTAL = some 1
  verdicts : r.counterLabels VERDICTS_TOTAL = some 1

/-- The tokens of a kind that were counted so far. -/
def tokenTotal (r : MetricsRegistry F) (kind : Str) : F := r.total LLM_TOKENS_TOTAL [kind]

end WorkerMetrics

/-! ### Calls with metrics -/

/-- A call, the registry, and how often the timers were read. -/
structure Metered (F : Type) where
  session : Session F
  metrics : MetricsRegistry F
  ticks : ℕ := 0

/-- What a call meets, with `time.perf_counter`, reading by reading. -/
structure TimedEnvironment (F : Type) [PyFloat F] extends Environment F where
  perfCounter : ℕ → F

namespace Metered

section metrics
variable {F α : Type} [PyFloat F]

/-- A part of the call that has no metrics. -/
def inSession (x : Action PyException (Session F) α) : Action PyException (Metered F) α :=
  zoom Metered.session (fun m session => { m with session := session }) x

/-- `inc` of a counter of the worker. -/
def inc (name : Str) (amount : Amount F) (labels : List Str) : Action PyException (Metered F) Unit := do
  let m ← get
  let metrics ← lift (m.metrics.inc name amount labels)
  set { m with metrics := metrics }

/-- `inc` by 1. -/
def count (name : Str) (labels : List Str) : Action PyException (Metered F) Unit :=
  inc name (.float (PyFloat.literal 1 0)) labels

/-- `observe` of the stage timer. -/
def observe (value : F) (labels : List Str) : Action PyException (Metered F) Unit := do
  let m ← get
  let metrics ← lift (m.metrics.observe WorkerMetrics.STAGE_SECONDS value labels)
  set { m with metrics := metrics }

/-- `time.perf_counter()`. -/
def readTimer (perfCounter : ℕ → F) : Action PyException (Metered F) F := do
  let m ← get
  set { m with ticks := m.ticks + 1 }
  return perfCounter m.ticks

/-- `with self._stage_seconds.time(labels=(stage,))`. -/
def timed (perfCounter : ℕ → F) (stage : Str) (body : Action PyException (Metered F) α) :
    Action PyException (Metered F) α := do
  let start ← readTimer perfCounter
  let result ← body.attempt
  let stop ← readTimer perfCounter
  observe (PyFloat.sub stop start) [stage]
  lift result

/-- One token count: `if tokens is not None and tokens > 0`. -/
def countKind (tokens : Option Int) (kind : Str) : Action PyException (Metered F) Unit :=
  match tokens with
  | some tokens =>
    if 0 < tokens then inc WorkerMetrics.LLM_TOKENS_TOTAL (.int tokens) [kind] else pure ()
  | none => pure ()

/-- Both token counts. -/
def countTokens (proposal : LLMProposal) : Action PyException (Metered F) Unit := do
  countKind proposal.promptTokens WorkerMetrics.prompt
  countKind proposal.completionTokens WorkerMetrics.completion

end metrics

/-- `except`, with a handler that raises another exception. -/
def rethrow {σ α : Type} (handler : PyException → PyException) (x : Action PyException σ α) :
    Action PyException σ α := do
  match ← x.attempt with
  | .ok a => return a
  | .error e => throw (handler e)

section worker
variable {F : Type} [PyFloat F] [FloatHex F] [Sha256] (w : Worker F) (backend : Backend)
  (env : TimedEnvironment F)

/-- `telemetry.load`. -/
def loadTelemetry : Action PyException (Metered F) (Except PyException (List (SignalBaselineInput F))) :=
  rethrow telemetryFailure <| timed env.perfCounter (str "telemetry_load") do
    inSession (awaiting env.toSurroundings)
    lift env.load.reply

/-- `propose_metric_hypotheses`, under the deadline of the attempt. -/
def propose (request : HypothesisRequest) :
    Action PyException (Metered F) (Except PyException LLMProposal) := do
  match ← (timed env.perfCounter (str "llm_propose") (do
    inSession (awaiting env.toSurroundings)
    inSession (modify fun s => { s with requests := s.requests ++ [request] })
    lift env.proposal.reply)).attempt with
  | .ok proposal => return proposal
  | .error .timeoutError =>
    count WorkerMetrics.PROVIDER_TIMEOUTS_TOTAL []
    throw (providerFailure .timeoutError)
  | .error e => throw (providerFailure e)

/-- What follows the verification: the payloads of the evidence and of the report. -/
def payloads (baseline : BaselineResult F) (ledger : MetricEvidenceLedger F)
    (document : HypothesisDocument) (verification : HypothesisVerificationResult F) :
    Except PyException (Prepared F) :=
  terminalOnDomain (liftDomain do
    let entries ← ledger.entries.mapM fun entry => do
      let payload ← metricEvidenceEntryJson entry
      return (entry.evidenceId, payload)
    let report ← verificationJson verification
    let baselineReport ← baselineRankingJson baseline
    return ⟨⟨baseline, ledger, document, verification⟩, entries, report, baselineReport⟩)

/-- The `persist` stage and what follows it. -/
def persist (investigation : InvestigationRecord) (p : Prepared F) :
    Action PyException (Metered F) Unit := do
  let now ← inSession (readClock env.toSurroundings)
  timed env.perfCounter (str "persist") (inSession do
    let rows ← lift (p.entries.mapM (evidenceRecord investigation now))
    let _ ← statement backend env.toSurroundings (onStore (EvidenceRepository.append rows))
    let report ← lift (reportRecord investigation now p)
    Worker.putReport backend env.toEnvironment report p.toProvenance)
  inSession do
    let _ ← setInvestigationStatus backend env.toSurroundings investigation.tenant
      investigation.investigationId .succeeded
    recordAudit backend env.toSurroundings {
      tenant := investigation.tenant
      investigationId := some investigation.investigationId
      actor := w.workerId
      action := CreateInvestigation.literal "report.persisted" CreateInvestigation.persisted_notBlank
      detail := none
      occurredAt := now }

/-- `_run_pipeline`. -/
def runPipeline (investigation : InvestigationRecord) : Action PyException (Metered F) Unit := do
  let telemetry ← loadTelemetry env
  let (baseline, ledger) ← timed env.perfCounter (str "baseline")
    (lift (baselineStage w.policy investigation telemetry))
  let request := hypothesisRequest investigation ledger
  let proposal ← propose env request
  let proposal ← lift proposal
  countTokens proposal
  let document ← lift (parseStage env.limits proposal request.allowedSignals)
  let verification ← timed env.perfCounter (str "verify")
    (lift (terminalOnDomain (liftDomain (verifyHypothesis document ledger))))
  let prepared ← lift (payloads baseline ledger document verification)
  count WorkerMetrics.VERDICTS_TOTAL [verification.verdict.value]
  persist w backend env investigation prepared

/-- `_terminal_fail`. -/
def terminalFail (claimed : ClaimedJob) (started : Datetime) (code : Str) :
    Action PyException (Metered F) Unit := do
  inSession do
    let _ ← setInvestigationStatus backend env.toSurroundings claimed.tenant
      claimed.investigationId .failed
    let _ ← setJobStatus backend env.toSurroundings claimed.tenant claimed.jobId .failed
    w.recordAttempt backend env.toEnvironment claimed started .failed (some code)
  count WorkerMetrics.JOBS_TOTAL [str "failed"]
  inSession do
    let occurredAt ← readClock env.toSurroundings
    let detail ← lift (CreateInvestigation.checkOptionalText (some code))
    recordAudit backend env.toSurroundings {
      tenant := claimed.tenant
      investigationId := some claimed.investigationId
      actor := w.workerId
      action := CreateInvestigation.literal "investigation.failed" CreateInvestigation.failed_notBlank
      detail := detail
      occurredAt := occurredAt }

/-- `_retry_or_fail`. -/
def retryOrFail (claimed : ClaimedJob) (started : Datetime) (code : Str) :
    Action PyException (Metered F) Unit := do
  if w.maxAttempts ≤ (claimed.attemptCount : ℕ) then
    terminalFail w backend env claimed started code
  else
    inSession do
      let _ ← setJobStatus backend env.toSurroundings claimed.tenant claimed.jobId .queued
      w.recordAttempt backend env.toEnvironment claimed started .failed (some code)
    count WorkerMetrics.JOBS_TOTAL [str "retried"]

/-- The `except` clauses around the pipeline. -/
def handle (claimed : ClaimedJob) (started : Datetime) :
    PyException → Action PyException (Metered F) Unit
  | .terminalFailure code => terminalFail w backend env claimed started code
  | .retryableFailure code => retryOrFail w backend env claimed started code
  | e =>
    if e.isException then terminalFail w backend env claimed started (str "internal_error")
    else throw e

/-- The pipeline, its `except` clauses and their `else`. -/
def process (claimed : ClaimedJob) (started : Datetime) (investigation : InvestigationRecord) :
    Action PyException (Metered F) Unit := do
  match ← (runPipeline w backend env investigation).attempt with
  | .error e => handle w backend env claimed started e
  | .ok () =>
    inSession do
      let _ ← setJobStatus backend env.toSurroundings claimed.tenant claimed.jobId .succeeded
      w.recordAttempt backend env.toEnvironment claimed started .succeeded none
    count WorkerMetrics.JOBS_TOTAL [str "succeeded"]

/-- `run_once` from the claimed job on. -/
def runClaimed (claimed : ClaimedJob) : Action PyException (Metered F) Bool := do
  let started ← inSession (readClock env.toSurroundings)
  match ← (inSession (getInvestigation backend env.toSurroundings claimed.tenant
    claimed.investigationId)).attempt with
  | .error (.persistence .recordNotFound) =>
    inSession do
      let _ ← setJobStatus backend env.toSurroundings claimed.tenant claimed.jobId .failed
      commit backend env.toSurroundings
    return true
  | .error e => throw e
  | .ok investigation =>
    if investigation.status = .cancelled then
      let _ ← inSession (setJobStatus backend env.toSurroundings claimed.tenant claimed.jobId .cancelled)
      count WorkerMetrics.JOBS_TOTAL [str "cancelled"]
      inSession (commit backend env.toSurroundings)
      return true
    else
      let _ ← inSession (setInvestigationStatus backend env.toSurroundings claimed.tenant
        claimed.investigationId .running)
      process w backend env claimed started investigation
      inSession (commit backend env.toSurroundings)
      return true

/-- `async with self._uow_factory() as uow`. -/
def scope {α : Type} (body : Action PyException (Metered F) α) : Action PyException (Metered F) α := do
  inSession (awaiting env.toSurroundings)
  inSession (modify fun s => { s with working := s.shared, aborted := false })
  let result ← body.attempt
  inSession (modify fun s => { s with working := s.shared, aborted := false })
  lift result

/-- `run_once`. -/
def runOnce : Action PyException (Metered F) Bool :=
  scope env do
    let now ← inSession (readClock env.toSurroundings)
    let claimed ← inSession (statement backend env.toSurroundings
      (onStore (JobQueue.claim w.workerId.1 w.lease now)))
    match claimed with
    | none =>
      inSession (commit backend env.toSurroundings)
      return false
    | some claimed => runClaimed w backend env claimed

end worker

end Metered

/-! ### Registries a worker can count in -/

namespace WorkerMetrics

variable {F : Type} [PyFloat F] {r r' : MetricsRegistry F}

/-- The registry is sound and has the metrics of a worker. -/
structure Ready (r : MetricsRegistry F) : Prop where
  sound : r.Sound
  registered : Registered r

/-- A registry in which so many tokens were counted. -/
structure ReadyAt (totals : Str → F) (r : MetricsRegistry F) : Prop extends Ready r where
  totals : ∀ kind, tokenTotal r kind = totals kind

theorem Ready.updated (h : Ready r) (hupdated : r.Updated r') : Ready r' where
  sound := hupdated.sound
  registered :=
    { jobs := by rw [hupdated.counterLabels, h.registered.jobs]
      stages := by rw [hupdated.histogramLabels, h.registered.stages]
      timeouts := by rw [hupdated.counterLabels, h.registered.timeouts]
      tokens := by rw [hupdated.counterLabels, h.registered.tokens]
      verdicts := by rw [hupdated.counterLabels, h.registered.verdicts] }

/-- A further worker finds its metrics in the registry. -/
theorem register_again (h : Registered r) : register r = .ok r := by
  unfold register
  simp only [bind_eq_ok]
  exact ⟨r, MetricsRegistry.counter_again h.jobs _ _, r,
    MetricsRegistry.histogram_again h.stages _ _ _, r, MetricsRegistry.counter_again h.timeouts _ _,
    r, MetricsRegistry.counter_again h.tokens _ _, MetricsRegistry.counter_again h.verdicts _ _⟩

theorem finite_buckets [CountingPyFloat F] :
    ∀ b ∈ (DEFAULT_LATENCY_BUCKETS : List F), PyFloat.isFinite b = true := by
  unfold DEFAULT_LATENCY_BUCKETS
  simp only [List.forall_mem_cons, List.not_mem_nil, false_imp_iff, implies_true, and_true]
  refine ⟨?_, ?_, ?_, ?_, ?_, ?_, ?_, ?_, ?_, ?_, ?_, ?_, ?_⟩ <;>
    exact CountingPyFloat.finite_literal (by decide)

/-- A worker can register its metrics in a new registry, and has counted no tokens. -/
theorem register_empty [CountingPyFloat F] :
    ∃ r, register (.empty : MetricsRegistry F) = .ok r ∧ ReadyAt (fun _ => PyFloat.zero) r := by
  obtain ⟨r₁, h₁, hsound₁, hcounters₁, hhistograms₁, htotals₁⟩ :=
    (MetricsRegistry.sound_empty (F := F)).counter_new (show validateName JOBS_TOTAL = .ok JOBS_TOTAL from rfl) rfl
      (str "Worker job outcomes.") [str "outcome"]
  obtain ⟨r₂, h₂, hsound₂, hhistograms₂, hcounters₂, htotals₂⟩ :=
    hsound₁.histogram_new
      (show validateName STAGE_SECONDS = .ok STAGE_SECONDS from rfl) (by rw [hhistograms₁]; rfl)
      (str "Per-stage worker latency in seconds.") [str "stage"] (List.cons_ne_nil _ _) finite_buckets
  obtain ⟨r₃, h₃, hsound₃, hcounters₃, hhistograms₃, htotals₃⟩ :=
    hsound₂.counter_new
      (show validateName PROVIDER_TIMEOUTS_TOTAL = .ok PROVIDER_TIMEOUTS_TOTAL from rfl)
      (by rw [hcounters₂, hcounters₁, if_neg (by decide)]; rfl) (str "LLM provider timeouts.") []
  obtain ⟨r₄, h₄, hsound₄, hcounters₄, hhistograms₄, htotals₄⟩ :=
    hsound₃.counter_new
      (show validateName LLM_TOKENS_TOTAL = .ok LLM_TOKENS_TOTAL from rfl)
      (by rw [hcounters₃, if_neg (by decide), hcounters₂, hcounters₁, if_neg (by decide)]; rfl)
      (str "LLM tokens consumed.") [str "kind"]
  obtain ⟨r₅, h₅, hsound₅, hcounters₅, hhistograms₅, htotals₅⟩ :=
    hsound₄.counter_new
      (show validateName VERDICTS_TOTAL = .ok VERDICTS_TOTAL from rfl)
      (by rw [hcounters₄, if_neg (by decide), hcounters₃, if_neg (by decide), hcounters₂, hcounters₁,
        if_neg (by decide)]; rfl) (str "Verification verdicts.") [str "verdict"]
  have hcounters : ∀ n, r₅.counterLabels n = if n = VERDICTS_TOTAL then some 1
      else if n = LLM_TOKENS_TOTAL then some 1
      else if n = PROVIDER_TIMEOUTS_TOTAL then some 0
      else if n = JOBS_TOTAL then some 1 else none := by
    intro n
    rw [hcounters₅, hcounters₄, hcounters₃, hcounters₂, hcounters₁]
    rfl
  refine ⟨r₅, ?_, ⟨hsound₅, ?_⟩, fun kind => ?_⟩
  · unfold register
    simp only [bind_eq_ok]
    exact ⟨r₁, h₁, r₂, h₂, r₃, h₃, r₄, h₄, h₅⟩
  · refine ⟨?_, ?_, ?_, ?_, ?_⟩
    · rw [hcounters]
      rfl
    · rw [hhistograms₅, hhistograms₄, hhistograms₃, hhistograms₂]
      rfl
    · rw [hcounters]
      rfl
    · rw [hcounters]
      rfl
    · rw [hcounters]
      rfl
  · rw [tokenTotal, htotals₅, htotals₄, htotals₃, htotals₂, htotals₁]
    rfl

/-- A fact about registries that outlives counting anything but tokens. -/
structure Lasting (P : MetricsRegistry F → Prop) : Prop where
  ready : ∀ {r}, P r → Ready r
  updated : ∀ {r r'}, P r → r.Updated r' → (∀ kind, tokenTotal r' kind = tokenTotal r kind) → P r'

theorem lasting_ready : Lasting (Ready (F := F)) := ⟨fun h => h, fun h hupdated _ => h.updated hupdated⟩

theorem lasting_readyAt (totals : Str → F) : Lasting (ReadyAt totals) :=
  ⟨fun h => h.toReady, fun h hupdated hsame =>
    ⟨h.toReady.updated hupdated, fun kind => (hsame kind).trans (h.totals kind)⟩⟩

/-- A count of tokens is not positive, or can be added to the total. -/
def Countable (totals : Str → F) (tokens : Option Int) (kind : Str) : Prop :=
  ∀ i, tokens = some i → 0 < i → ∃ x : F, PyFloat.ofInt i = some x ∧
    PyFloat.isFinite (PyFloat.add (totals kind) x) = true

end WorkerMetrics

/-- Adding the time a stage took leaves a finite sum finite: the readings are seconds
    of a clock. -/
def TimedEnvironment.Steady {F : Type} [PyFloat F] (env : TimedEnvironment F) : Prop :=
  ∀ (i j : ℕ) (s : F), PyFloat.isFinite s = true →
    PyFloat.isFinite (PyFloat.add s (PyFloat.sub (env.perfCounter i) (env.perfCounter j))) = true

/-- The token counts of the proposal can be added to the totals. -/
def TimedEnvironment.Countable {F : Type} [PyFloat F] (env : TimedEnvironment F)
    (totals : Str → F) : Prop :=
  ∀ p, env.proposal = .returns p →
    WorkerMetrics.Countable totals p.promptTokens WorkerMetrics.prompt ∧
      WorkerMetrics.Countable totals p.completionTokens WorkerMetrics.completion

/-! ### Steps with metrics beside steps without -/

namespace Metered

open WorkerMetrics

section steps
variable {F α β : Type} [PyFloat F] {P : MetricsRegistry F → Prop} {Q : α → β → Prop}

/-- The call with metrics is where the call without is, and `P` holds of the registry. -/
def Beside (P : MetricsRegistry F → Prop) (m : Metered F) (s : Session F) : Prop :=
  m.session = s ∧ P m.metrics

omit [PyFloat F] in
theorem couples_inSession (x : Action PyException (Session F) α) :
    Couples (Beside P) (Beside P) Eq (inSession x) x := by
  intro m s h
  obtain ⟨rfl, hP⟩ := h
  exact ⟨.of_eq (fun _ => rfl) rfl, rfl, hP⟩

/-- An update of the registry that returns. -/
theorem inc_returns {P' : MetricsRegistry F → Prop} {name : Str} {amount : Amount F}
    {labels : List Str} (h : ∀ r, P r → ∃ r', r.inc name amount labels = .ok r' ∧ P' r')
    {m : Metered F} {s : Session F} (hm : Beside P m s) :
    ∃ m', (inc name amount labels).exec m = (.ok (), m') ∧ Beside P' m' s := by
  obtain ⟨hsession, hP⟩ := hm
  obtain ⟨r', hr', hP'⟩ := h m.metrics hP
  refine ⟨{ m with metrics := r' }, ?_, hsession, hP'⟩
  unfold inc
  rw [exec_bind, exec_get]
  dsimp only
  rw [exec_bind, exec_lift, hr']
  rfl

variable [CountingPyFloat F]

/-- Counting something other than tokens. -/
theorem count_returns (hP : Lasting P) {name : Str} {labels : List Str}
    (hlabels : ∀ r : MetricsRegistry F, Registered r → r.counterLabels name = some labels.length)
    (hname : name ≠ LLM_TOKENS_TOTAL) {m : Metered F} {s : Session F} (hm : Beside P m s) :
    ∃ m', (count name labels).exec m = (.ok (), m') ∧ Beside P m' s := by
  refine inc_returns (fun r hr => ?_) hm
  have hready := hP.ready hr
  obtain ⟨r', hr', hupdated, hsame⟩ := hready.sound.inc_one (hlabels r hready.registered)
  exact ⟨r', hr', hP.updated hr hupdated fun kind => hsame _ _ hname.symm⟩

theorem Couples.count_bind (hP : Lasting P) {name : Str} {labels : List Str}
    {R' : Metered F → Session F → Prop} {f : Unit → Action PyException (Metered F) α}
    {y : Action PyException (Session F) β} (hcont : Couples (Beside P) R' Q (f ()) y)
    (hlabels : ∀ r : MetricsRegistry F, Registered r → r.counterLabels name = some labels.length)
    (hname : name ≠ LLM_TOKENS_TOTAL) : Couples (Beside P) R' Q (count name labels >>= f) y :=
  .leftBind (fun _ _ hm => by
    obtain ⟨m', hm', hbeside⟩ := count_returns hP hlabels hname hm
    exact ⟨(), m', hm', hbeside⟩) fun _ => hcont

/-- A stage that is timed. -/
theorem couples_timed (hP : Lasting P) {env : TimedEnvironment F} (hsteady : env.Steady) (stage : Str)
    {x : Action PyException (Metered F) α} {y : Action PyException (Session F) β}
    (h : Couples (Beside P) (Beside P) Q x y) :
    Couples (Beside P) (Beside P) Q (timed env.perfCounter stage x) y := by
  intro m s hm
  -- the first reading of the timer changes neither the call nor the registry
  obtain ⟨hresult, hsession, hmetrics⟩ := h { m with ticks := m.ticks + 1 } s hm
  have hready := hP.ready hmetrics
  obtain ⟨r', hr', hupdated, hsame⟩ := @MetricsRegistry.Sound.observe _ _ _ _ hready.sound _
    [stage] _ hready.registered.stages (hsteady (x.exec { m with ticks := m.ticks + 1 }).2.ticks m.ticks)
  have hexec : (timed env.perfCounter stage x).exec m =
      ((x.exec { m with ticks := m.ticks + 1 }).1,
        { (x.exec { m with ticks := m.ticks + 1 }).2 with
          metrics := r'
          ticks := (x.exec { m with ticks := m.ticks + 1 }).2.ticks + 1 }) := by
    simp only [timed, readTimer, Metered.observe, exec_bind, exec_get, exec_set, exec_pure,
      exec_attempt, exec_lift, hr']
  rw [hexec]
  exact ⟨hresult, hsession, hP.updated hmetrics hupdated fun kind => hsame _ _⟩

omit [CountingPyFloat F] in
/-- One kind of tokens is counted, and the total of the other kind stays. -/
theorem countKind_returns {totals : Str → F} {tokens : Option Int} {kind : Str}
    (h : WorkerMetrics.Countable totals tokens kind) {m : Metered F} {s : Session F}
    (hm : Beside (ReadyAt totals) m s) :
    ∃ m' totals', (countKind tokens kind).exec m = (.ok (), m') ∧
      Beside (ReadyAt totals') m' s ∧ ∀ kind', kind' ≠ kind → totals' kind' = totals kind' := by
  cases tokens with
  | none => exact ⟨m, totals, rfl, hm, fun _ _ => rfl⟩
  | some i =>
    have hcount : countKind (F := F) (some i) kind =
      if 0 < i then inc LLM_TOKENS_TOTAL (.int i) [kind] else pure () := rfl
    rw [hcount]
    by_cases hpos : 0 < i
    · obtain ⟨x, hx, hfinite⟩ := h i rfl hpos
      have hstep : ∀ r, ReadyAt totals r → ∃ r', r.inc LLM_TOKENS_TOTAL (.int i) [kind] = .ok r' ∧
          ReadyAt (fun kind' => if kind' = kind then PyFloat.add (totals kind) x else totals kind') r' := by
        intro r hr
        have htotal : r.total LLM_TOKENS_TOTAL [kind] = totals kind := hr.totals kind
        rw [← htotal] at hfinite
        have hamount : (Amount.int i : Amount F).isNegative = false := by
          simp [Amount.isNegative, hpos.le]
        have hconverts : (Amount.int i : Amount F).toFloat = .ok x := by
          rw [Amount.toFloat, hx]
          rfl
        obtain ⟨r', hr', hupdated, htotals⟩ :=
          @MetricsRegistry.Sound.inc _ _ _ hr.sound _ _ [kind] _ hr.registered.tokens hamount hconverts hfinite
        refine ⟨r', hr', hr.toReady.updated hupdated, fun kind' => ?_⟩
        have hkinds : ([kind'] : List Str) = [kind] ↔ kind' = kind := by simp
        rw [tokenTotal, htotals, htotal]
        simp only [true_and, hkinds]
        by_cases hk : kind' = kind
        · rw [if_pos hk, if_pos hk]
        · rw [if_neg hk, if_neg hk]
          exact hr.totals kind'
      obtain ⟨m', hm', hbeside⟩ := inc_returns hstep hm
      refine ⟨m', _, ?_, hbeside, fun kind' hne => if_neg hne⟩
      rw [if_pos hpos]
      exact hm'
    · refine ⟨m, totals, ?_, hm, fun _ _ => rfl⟩
      rw [if_neg hpos]
      rfl

omit [CountingPyFloat F] in
/-- Both kinds of tokens are counted when both can be. -/
theorem countTokens_returns {totals : Str → F} {proposal : LLMProposal}
    (hprompt : WorkerMetrics.Countable totals proposal.promptTokens prompt)
    (hcompletion : WorkerMetrics.Countable totals proposal.completionTokens completion)
    {m : Metered F} {s : Session F} (hm : Beside (ReadyAt totals) m s) :
    ∃ m', (countTokens proposal).exec m = (.ok (), m') ∧ Beside Ready m' s := by
  obtain ⟨m₁, totals₁, hm₁, hbeside₁, hsame⟩ := countKind_returns hprompt hm
  have hcompletion₁ : WorkerMetrics.Countable totals₁ proposal.completionTokens completion := by
    unfold WorkerMetrics.Countable
    rw [hsame completion (by decide)]
    exact hcompletion
  obtain ⟨m₂, totals₂, hm₂, hbeside₂, -⟩ := countKind_returns hcompletion₁ hbeside₁
  refine ⟨m₂, ?_, hbeside₂.1, hbeside₂.2.toReady⟩
  unfold countTokens
  rw [exec_bind, hm₁]
  exact hm₂

omit [CountingPyFloat F] in
/-- Counts that can be added are counts the worker can convert. -/
theorem countTokens_eq_ok {totals : Str → F} {proposal : LLMProposal}
    (hprompt : WorkerMetrics.Countable totals proposal.promptTokens prompt)
    (hcompletion : WorkerMetrics.Countable totals proposal.completionTokens completion) :
    IncidentEvidence.countTokens F proposal = .ok () := by
  have hkind : ∀ {tokens : Option Int} {kind : Str}, WorkerMetrics.Countable totals tokens kind →
      countToken F tokens = .ok () := by
    intro tokens kind h
    cases tokens with
    | none => rfl
    | some i =>
      refine if_neg fun hand => ?_
      obtain ⟨x, hx, -⟩ := h i rfl hand.1
      rw [hx] at hand
      cases hand.2
  exact bind_eq_ok.mpr ⟨(), hkind hprompt, hkind hcompletion⟩

end steps

/-! ### The call with metrics beside the call without -/

section rethrowing
variable {α β σ τ : Type} {Q : α → β → Prop} {R R' : σ → τ → Prop}

theorem couples_rethrow (handler : PyException → PyException) {x : Action PyException σ α}
    {y : Action PyException τ β} (h : Couples R R' Q x y) :
    Couples R R' Q (rethrow handler x) (rethrow handler y) := by
  unfold rethrow
  refine h.attempt.bind (fun a b hab => ?_) fun _ _ hR => hR
  cases hab with
  | ok hQ => exact .pure hQ
  | error => exact .throw _

/-- An await whose exceptions are mapped is one that raises the mapped exceptions, as
    long as what comes before it raises nothing that is mapped. -/
theorem rethrow_awaited {handler : PyException → PyException} {x : Action PyException σ Unit}
    (h : OnlyRaises (fun e => handler e = e) x) (outcome : Outcome α) :
    rethrow handler (x >>= fun _ => lift outcome.reply) =
      x >>= fun _ => lift (awaited handler outcome) := by
  refine exec_ext fun s => ?_
  have hraises := h s
  unfold Wp at hraises
  simp only [rethrow, exec_bind, exec_attempt, exec_lift]
  rcases hx : x.exec s with ⟨r, s'⟩
  rw [hx] at hraises
  cases r with
  | ok a => cases outcome <;> rfl
  | error e =>
    show (Except.error (handler e), s') = _
    rw [show handler e = e from hraises]

end rethrowing

theorem awaiting_raises {F : Type} {env : Surroundings} {handler : PyException → PyException}
    (h : handler .cancelled = .cancelled) :
    OnlyRaises (fun e => handler e = e) (awaiting (F := F) env) :=
  OnlyRaises.get.bind fun _ => (OnlyRaises.set _).bind fun _ => .ite (.throw h) (.pure _)

section worker
variable {F : Type} [PyFloat F] [CountingPyFloat F] [FloatHex F] [Sha256] {w : Worker F}
  {backend : Backend} {env : TimedEnvironment F} {P : MetricsRegistry F → Prop}

omit [FloatHex F] [Sha256] in
theorem couples_loadTelemetry (hP : Lasting P) (hsteady : env.Steady) :
    Couples (Beside P) (Beside P) Eq (loadTelemetry env) (do
      awaiting env.toSurroundings
      lift (awaited telemetryFailure env.load)) := by
  rw [← rethrow_awaited (awaiting_raises rfl)]
  refine couples_rethrow _ (couples_timed hP hsteady _ ?_)
  exact (couples_inSession _).seq fun _ _ _ => .lift_same _

omit [FloatHex F] [Sha256] in
/-- What is proposed is what the port returned. -/
theorem couples_propose (hP : Lasting P) (hsteady : env.Steady) (request : HypothesisRequest) :
    Couples (Beside P) (Beside P) (fun a b => a = b ∧ ∀ p, a = .ok p → env.proposal = .returns p)
      (propose env request) (do
        awaiting env.toSurroundings
        modify fun s => { s with requests := s.requests ++ [request] }
        lift (awaited providerFailure env.proposal)) := by
  have hraises : OnlyRaises (fun e => providerFailure e = e) (do
      awaiting (F := F) env.toSurroundings
      modify fun s => { s with requests := s.requests ++ [request] }) :=
    (awaiting_raises rfl).bind fun _ => .modify _
  have hmapped := rethrow_awaited hraises env.proposal
  rw [bind_assoc, bind_assoc] at hmapped
  rw [← hmapped]
  have hreply : ExceptRel (fun a b => a = b ∧ ∀ p, a = .ok p → env.proposal = .returns p)
      env.proposal.reply env.proposal.reply := by
    cases hproposal : env.proposal with
    | returns p => exact .ok ⟨rfl, fun q hq => by rw [Except.ok.inj hq]⟩
    | illTyped e => exact .ok ⟨rfl, fun q hq => by cases hq⟩
    | raises e => exact .error
  have hbody := couples_timed hP hsteady (str "llm_propose")
    ((couples_inSession (awaiting env.toSurroundings)).seq fun _ _ _ =>
      (couples_inSession (modify fun s => { s with requests := s.requests ++ [request] })).seq
        fun _ _ _ => .lift hreply)
  unfold propose rethrow
  refine hbody.attempt.seq fun a b hab => ?_
  cases hab with
  | ok hQ => exact .pure hQ
  | @error e =>
    by_cases htimeout : e = .timeoutError
    · subst htimeout
      exact Couples.count_bind hP (.throw _) (fun r hr => hr.timeouts) (by decide)
    · cases e <;> first | exact absurd rfl htimeout | exact .throw _

omit [FloatHex F] [Sha256] in
theorem couples_persist (hP : Lasting P) (hsteady : env.Steady) (investigation : InvestigationRecord)
    (p : Prepared F) :
    Couples (Beside P) (Beside P) Eq (persist w backend env investigation p)
      (w.persist backend env.toEnvironment investigation p) := by
  have hgrouped : w.persist backend env.toEnvironment investigation p =
      readClock env.toSurroundings >>= fun now => (do
        let rows ← lift (p.entries.mapM (evidenceRecord investigation now))
        let _ ← statement backend env.toSurroundings (onStore (EvidenceRepository.append rows))
        let report ← lift (reportRecord investigation now p)
        Worker.putReport backend env.toEnvironment report p.toProvenance) >>= fun _ => (do
        let _ ← setInvestigationStatus backend env.toSurroundings investigation.tenant
          investigation.investigationId .succeeded
        recordAudit backend env.toSurroundings {
          tenant := investigation.tenant
          investigationId := some investigation.investigationId
          actor := w.workerId
          action := CreateInvestigation.literal "report.persisted"
          detail := none
          occurredAt := now }) := by
    simp only [Worker.persist, bind_assoc]
  rw [hgrouped]
  refine (couples_inSession _).seq fun now _ hnow => ?_
  subst hnow
  refine (couples_timed hP hsteady _ (couples_inSession _)).seq fun _ _ _ => ?_
  exact couples_inSession _

omit [CountingPyFloat F] in
/-- The stage of the verification in its two parts. -/
theorem verifyStage_eq (baseline : BaselineResult F) (ledger : MetricEvidenceLedger F)
    (document : HypothesisDocument) : verifyStage baseline ledger document =
      terminalOnDomain (liftDomain (verifyHypothesis document ledger)) >>=
        payloads baseline ledger document := by
  unfold verifyStage payloads
  cases verifyHypothesis document ledger <;> rfl

/-- **The pipeline with metrics does what the pipeline without does**, as long as the
    token counts can be added to the totals. -/
theorem couples_runPipeline (hsteady : env.Steady) {totals : Str → F}
    (hcountable : env.Countable totals) (investigation : InvestigationRecord) :
    Couples (Beside (ReadyAt totals)) (Beside Ready) Eq
      (runPipeline w backend env investigation)
      (w.runPipeline backend env.toEnvironment investigation) := by
  have hweaken : ∀ m s, Beside (ReadyAt totals) m s → Beside (Ready (F := F)) m s :=
    fun m s hm => ⟨hm.1, hm.2.toReady⟩
  have hP := lasting_readyAt totals
  have hgrouped : w.runPipeline backend env.toEnvironment investigation =
      (do
        awaiting env.toSurroundings
        lift (awaited telemetryFailure env.load)) >>= fun telemetry =>
      lift (baselineStage w.policy investigation telemetry) >>= fun ranked =>
      (do
        awaiting env.toSurroundings
        modify fun s => { s with requests := s.requests ++ [hypothesisRequest investigation ranked.2] }
        lift (awaited providerFailure env.proposal)) >>= fun proposal =>
      lift proposal >>= fun proposal =>
      lift (IncidentEvidence.countTokens F proposal) >>= fun _ =>
      lift (parseStage env.limits proposal (allowedSignals ranked.2)) >>= fun document =>
      lift (verifyStage ranked.1 ranked.2 document) >>= fun prepared =>
      w.persist backend env.toEnvironment investigation prepared := by
    simp only [Worker.runPipeline, bind_assoc]
    rfl
  rw [hgrouped]
  unfold runPipeline
  refine (couples_loadTelemetry hP hsteady).bind (fun telemetry _ h => ?_) hweaken
  subst h
  refine (couples_timed hP hsteady _ (.lift_same _)).bind (fun ranked _ h => ?_) hweaken
  subst h
  refine (couples_propose hP hsteady _).bind (fun reply _ h => ?_) hweaken
  obtain ⟨rfl, hreturned⟩ := h
  cases reply with
  | error e => exact fun m s hm => ⟨.error, hweaken m s hm⟩
  | ok proposal =>
    -- the counts are added to totals that are those of the beginning of the call
    obtain ⟨hprompt, hcompletion⟩ := hcountable proposal (hreturned proposal rfl)
    have hcounted : IncidentEvidence.countTokens F proposal = .ok () :=
      countTokens_eq_ok hprompt hcompletion
    rw [lift_ok_bind, lift_ok_bind, hcounted, lift_ok_bind]
    have hcounts : ∀ m s, Beside (ReadyAt totals) m s →
        ∃ a m', (countTokens proposal).exec m = (.ok a, m') ∧ Beside Ready m' s := by
      intro m s hm
      obtain ⟨m', hm', hbeside⟩ := countTokens_returns hprompt hcompletion hm
      exact ⟨(), m', hm', hbeside⟩
    refine Couples.leftBind hcounts fun _ => ?_
    refine (Couples.lift_same _).seq fun document _ h => ?_
    subst h
    rw [verifyStage_eq, lift_bind, bind_assoc]
    refine (couples_timed lasting_ready hsteady _ (.lift_same _)).seq fun verification _ h => ?_
    subst h
    refine (Couples.lift_same _).seq fun prepared _ h => ?_
    subst h
    exact Couples.count_bind lasting_ready (couples_persist lasting_ready hsteady _ _)
      (fun r hr => hr.verdicts) (by decide)

omit [FloatHex F] [Sha256] in
theorem couples_terminalFail (claimed : ClaimedJob) (started : Datetime) (code : Str) :
    Couples (Beside (Ready (F := F))) (Beside Ready) Eq (terminalFail w backend env claimed started code)
      (w.terminalFail backend env.toEnvironment claimed started code) := by
  have hgrouped : w.terminalFail backend env.toEnvironment claimed started code = (do
      let _ ← setInvestigationStatus backend env.toSurroundings claimed.tenant
        claimed.investigationId .failed
      let _ ← setJobStatus backend env.toSurroundings claimed.tenant claimed.jobId .failed
      w.recordAttempt backend env.toEnvironment claimed started .failed (some code)) >>= fun _ => (do
      let occurredAt ← readClock env.toSurroundings
      let detail ← lift (CreateInvestigation.checkOptionalText (some code))
      recordAudit backend env.toSurroundings {
        tenant := claimed.tenant
        investigationId := some claimed.investigationId
        actor := w.workerId
        action := CreateInvestigation.literal "investigation.failed"
        detail := detail
        occurredAt := occurredAt }) := by
    simp only [Worker.terminalFail, bind_assoc]
  rw [hgrouped]
  refine (couples_inSession _).seq fun _ _ _ => ?_
  exact Couples.count_bind lasting_ready (couples_inSession _) (fun r hr => hr.jobs) (by decide)

omit [FloatHex F] [Sha256] in
/-- A job is counted after the call has written its rows. -/
theorem couples_inSession_count {labels : List Str} (x : Action PyException (Session F) Unit)
    (hlabels : labels.length = 1) :
    Couples (Beside (Ready (F := F))) (Beside Ready) Eq
      (inSession x >>= fun _ => count JOBS_TOTAL labels) x := by
  have hcount : Couples (Beside (Ready (F := F))) (Beside Ready) Eq (count JOBS_TOTAL labels)
      (pure () : Action PyException (Session F) Unit) := by
    intro m s hm
    obtain ⟨m', hm', hbeside⟩ := count_returns lasting_ready
      (fun (r : MetricsRegistry F) hr => show r.counterLabels JOBS_TOTAL = some labels.length by
        rw [hr.jobs, hlabels]) (by decide) hm
    rw [hm']
    exact ⟨.ok rfl, hbeside⟩
  have hseq : Couples (Beside (Ready (F := F))) (Beside Ready) Eq
      (inSession x >>= fun _ => count JOBS_TOTAL labels) (x >>= fun _ => pure ()) :=
    (couples_inSession x).seq fun _ _ _ => hcount
  rwa [bind_pure_unit] at hseq

omit [FloatHex F] [Sha256] in
theorem couples_retryOrFail (claimed : ClaimedJob) (started : Datetime) (code : Str) :
    Couples (Beside (Ready (F := F))) (Beside Ready) Eq (retryOrFail w backend env claimed started code)
      (w.retryOrFail backend env.toEnvironment claimed started code) :=
  .ite Iff.rfl (couples_terminalFail _ _ _) (couples_inSession_count _ rfl)

omit [FloatHex F] [Sha256] in
theorem couples_handle (claimed : ClaimedJob) (started : Datetime) (e : PyException) :
    Couples (Beside (Ready (F := F))) (Beside Ready) Eq (handle w backend env claimed started e)
      (w.handle backend env.toEnvironment claimed started e) := by
  cases e with
  | terminalFailure code => exact couples_terminalFail _ _ _
  | retryableFailure code => exact couples_retryOrFail _ _ _
  | _ => exact .ite Iff.rfl (couples_terminalFail _ _ _) (.throw _)

theorem couples_process (hsteady : env.Steady) {totals : Str → F} (hcountable : env.Countable totals)
    (claimed : ClaimedJob) (started : Datetime) (investigation : InvestigationRecord) :
    Couples (Beside (ReadyAt totals)) (Beside Ready) Eq
      (process w backend env claimed started investigation)
      (w.process backend env.toEnvironment claimed started investigation) := by
  unfold process Worker.process
  refine (couples_runPipeline hsteady hcountable investigation).attempt.bind (fun a b hab => ?_)
    fun _ _ hm => hm
  cases hab with
  | error => exact couples_handle _ _ _
  | ok hunit => exact couples_inSession_count _ rfl

theorem couples_runClaimed (hsteady : env.Steady) {totals : Str → F}
    (hcountable : env.Countable totals) (claimed : ClaimedJob) :
    Couples (Beside (ReadyAt totals)) (Beside Ready) Eq (runClaimed w backend env claimed)
      (w.runClaimed backend env.toEnvironment claimed) := by
  have hweaken : ∀ m s, Beside (ReadyAt totals) m s → Beside (Ready (F := F)) m s :=
    fun m s hm => ⟨hm.1, hm.2.toReady⟩
  unfold runClaimed Worker.runClaimed
  refine (couples_inSession _).bind (fun started _ h => ?_) hweaken
  subst h
  refine (couples_inSession _).attempt.bind (fun found found' h => ?_) hweaken
  cases h with
  | @error e =>
    by_cases hmissing : e = .persistence .recordNotFound
    · subst hmissing
      have hgrouped : (do
          let _ ← setJobStatus backend env.toSurroundings claimed.tenant claimed.jobId .failed
          commit backend env.toSurroundings
          return true : Action PyException (Session F) Bool) = (do
            let _ ← setJobStatus backend env.toSurroundings claimed.tenant claimed.jobId .failed
            commit backend env.toSurroundings) >>= fun _ => return true := by
        simp only [bind_assoc]
      dsimp only
      rw [hgrouped]
      exact (couples_inSession _).bind (fun _ _ _ => (Couples.pure rfl).weaken hweaken) hweaken
    · -- any other exception leaves both calls
      have hthrow : Couples (Beside (ReadyAt totals)) (Beside Ready) (Eq : Bool → Bool → Prop)
          (throw e) (throw e) := (Couples.throw e).weaken hweaken
      cases e with
      | persistence p => cases p <;> first | exact absurd rfl hmissing | exact hthrow
      | _ => exact hthrow
  | @ok i _ heq =>
    subst heq
    by_cases hcancelled : i.status = .cancelled
    · simp only [hcancelled, if_true]
      refine (couples_inSession _).bind (fun _ _ _ => ?_) hweaken
      refine Couples.weaken ?_ hweaken
      refine Couples.count_bind (lasting_readyAt totals) ?_ (fun r hr => hr.jobs) (by decide)
      exact (couples_inSession _).seq fun _ _ _ => .pure rfl
    · simp only [hcancelled, if_false]
      refine (couples_inSession _).bind (fun _ _ _ => ?_) hweaken
      refine (couples_process hsteady hcountable claimed started i).bind (fun _ _ _ => ?_)
        fun _ _ hm => hm
      exact (couples_inSession _).seq fun _ _ _ => .pure rfl

/-- **`run_once` with metrics does what `run_once` without does**: it returns or raises
    the same and leaves the call in the same state. The registry stays ready. -/
theorem couples_runOnce (hsteady : env.Steady) {totals : Str → F} (hcountable : env.Countable totals) :
    Couples (Beside (ReadyAt totals)) (Beside Ready) Eq (runOnce w backend env)
      (w.runOnce backend env.toEnvironment) := by
  have hweaken : ∀ m s, Beside (ReadyAt totals) m s → Beside (Ready (F := F)) m s :=
    fun m s hm => ⟨hm.1, hm.2.toReady⟩
  -- the body is coupled first; the scope around it is the same on both sides
  have hbody : Couples (Beside (ReadyAt totals)) (Beside Ready) Eq (do
      let now ← inSession (readClock env.toSurroundings)
      let claimed ← inSession (statement backend env.toSurroundings
        (onStore (JobQueue.claim w.workerId.1 w.lease now)))
      match claimed with
      | none =>
        inSession (commit backend env.toSurroundings)
        return false
      | some claimed => runClaimed w backend env claimed) (do
      let now ← readClock env.toSurroundings
      let claimed ← statement backend env.toSurroundings
        (onStore (JobQueue.claim w.workerId.1 w.lease now))
      match claimed with
      | none =>
        commit backend env.toSurroundings
        return false
      | some claimed => w.runClaimed backend env.toEnvironment claimed) := by
    refine (couples_inSession _).bind (fun now _ h => ?_) hweaken
    subst h
    refine (couples_inSession _).bind (fun claimed _ h => ?_) hweaken
    subst h
    cases claimed with
    | none => exact ((couples_inSession _).seq fun _ _ _ => .pure rfl).weaken hweaken
    | some claimed => exact couples_runClaimed hsteady hcountable claimed
  unfold runOnce scope Worker.runOnce IncidentEvidence.scope
  refine (couples_inSession _).bind (fun _ _ _ => ?_) hweaken
  refine (couples_inSession _).bind (fun _ _ _ => ?_) hweaken
  refine hbody.attempt.bind (fun result _ hresult => ?_) fun _ _ hm => hm
  refine (couples_inSession _).seq fun _ _ _ => ?_
  exact .lift hresult

end worker

end Metered

end IncidentEvidence
