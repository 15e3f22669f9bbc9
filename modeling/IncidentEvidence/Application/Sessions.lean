import IncidentEvidence.Domain.Verifier
import IncidentEvidence.Persistence.Memory

/-! # Calls inside a unit of work

    What the use cases and the worker have around them: a unit of work with its
    copy of the committed tables, the clocks, the id factory and the task that may
    be cancelled wherever it awaits. The unit of work is the in-memory one or the
    PostgreSQL one, whose transaction is over after a statement has failed.

    Beside the tables goes a record of what each report was made from. The code
    does not keep it; it is committed and dropped together with the report.
-/

namespace IncidentEvidence

open Py Py.Action

/-! ### Tables and where reports come from -/

/-- What a report was made from. -/
structure Provenance (F : Type) where
  baseline : BaselineResult F
  ledger : MetricEvidenceLedger F
  document : HypothesisDocument
  verification : HypothesisVerificationResult F

/-- The tables, and the provenance of the reports in them. -/
structure Tracked (F : Type) where
  store : Store
  provenance : Dict UUID (Provenance F)

def Tracked.empty {F : Type} : Tracked F := ⟨.empty, .empty⟩

/-! ### Sessions -/

/-- `HypothesisRequest`. -/
structure HypothesisRequest where
  tenant : TenantId
  incident : IncidentId
  run : RunId
  allowedSignals : Finset SignalKey
  deriving DecidableEq

/-- A call and its unit of work. -/
structure Session (F : Type) where
  /-- The committed tables. -/
  shared : Tracked F
  /-- What the open transaction sees. -/
  working : Tracked F
  /-- A statement of the transaction has failed. -/
  aborted : Bool := false
  /-- How often the call has awaited so far. -/
  awaits : ℕ := 0
  /-- Readings of the injected clock. -/
  readings : ℕ := 0
  /-- Readings of the system clock. -/
  stamps : ℕ := 0
  /-- Ids drawn from the factory. -/
  drawn : List UUID := []
  /-- Requests sent to the model. -/
  requests : List HypothesisRequest := []

/-- A call that begins. -/
def Session.start {F : Type} (shared : Tracked F) : Session F where
  shared := shared
  working := shared

/-- What happens around a call. -/
structure Surroundings where
  /-- The injected clock, reading by reading. -/
  clock : ℕ → Datetime
  /-- `datetime.now(UTC)`, reading by reading. -/
  system : ℕ → Datetime
  /-- The awaits in which the task is cancelled. -/
  cancelled : ℕ → Bool
  /-- The awaits whose statement the database refuses. -/
  fails : ℕ → Bool

inductive Backend where
  | memory
  | postgres

section calls
variable {F α : Type} (backend : Backend) (env : Surroundings)

/-- A computation on the tables. -/
def onStore (x : Repository α) : Action PyException (Tracked F) α :=
  zoom Tracked.store (fun t store => { t with store := store }) x

/-- A computation on the tables of the open transaction. -/
def onWorking (x : Action PyException (Tracked F) α) : Action PyException (Session F) α :=
  zoom Session.working (fun s working => { s with working := working }) x

/-- `await`: the task may be cancelled here. -/
def awaiting : Action PyException (Session F) Unit := do
  let s ← get
  set { s with awaits := s.awaits + 1 }
  if env.cancelled s.awaits then throw .cancelled

/-- `self._clock()`. -/
def readClock : Action PyException (Session F) Datetime := do
  let s ← get
  set { s with readings := s.readings + 1 }
  return env.clock s.readings

/-- `datetime.now(UTC)` inside a repository. -/
def systemNow : Action PyException (Session F) Datetime := do
  let s ← get
  set { s with stamps := s.stamps + 1 }
  return env.system s.stamps

/-- `self._id_factory()`. -/
def drawId (id : UUID) : Action PyException (Session F) UUID := do
  modify fun s => { s with drawn := s.drawn ++ [id] }
  return id

/-- The transaction is over: later statements are refused and nothing can be committed. -/
def abort : Action PyException (Session F) Unit := modify fun s => { s with aborted := true }

/-- A statement of a PostgreSQL transaction. It may be refused, and it may violate a
    unique constraint, which the repositories map to `IdempotencyConflictError`; a
    row that is not found is no failure of the statement. -/
def Postgres.statement (n : ℕ) (x : Action PyException (Tracked F) α) :
    Action PyException (Session F) α := do
  let s ← get
  if s.aborted then throw .database
  if env.fails n then
    abort
    throw .database
  match ← (onWorking x).attempt with
  | .ok a => return a
  | .error e =>
    if e = idempotencyConflict then abort
    throw e

/-- An awaited repository method. -/
def statement (x : Action PyException (Tracked F) α) : Action PyException (Session F) α := do
  let n := (← get).awaits
  awaiting env
  match backend with
  | .memory => onWorking x
  | .postgres => Postgres.statement env n x

/-- `commit`. PostgreSQL answers the commit of an aborted transaction with a rollback. -/
def commit : Action PyException (Session F) Unit := do
  let n := (← get).awaits
  awaiting env
  match backend with
  | .memory => modify fun s => { s with shared := s.working }
  | .postgres => do
    let s ← get
    if s.aborted then set { s with working := s.shared, aborted := false }
    else if env.fails n then
      abort
      throw .database
    else set { s with shared := s.working }

/-- `async with self._uow_factory() as uow`: the body works on a copy, and what it has
    not committed when it is left is dropped. -/
def scope (body : Action PyException (Session F) α) : Action PyException (Session F) α := do
  awaiting env
  modify fun s => { s with working := s.shared, aborted := false }
  let result ← body.attempt
  modify fun s => { s with working := s.shared, aborted := false }
  lift result

/-- `investigations.get`. -/
def getInvestigation (tenant : TenantId) (investigationId : InvestigationId) :
    Action PyException (Session F) InvestigationRecord :=
  statement backend env (onStore (InvestigationRepository.get tenant investigationId))

/-- `investigations.set_status`. -/
def setInvestigationStatus (tenant : TenantId) (investigationId : InvestigationId)
    (status : InvestigationStatus) : Action PyException (Session F) InvestigationRecord := do
  let now ← systemNow env
  statement backend env (onStore (InvestigationRepository.setStatus tenant investigationId status now))

/-- `jobs.set_status`. -/
def setJobStatus (tenant : TenantId) (jobId : JobId) (status : JobStatus) :
    Action PyException (Session F) JobRecord := do
  let now ← systemNow env
  statement backend env (onStore (JobQueue.setStatus tenant jobId status now))

/-- `audit.record`. -/
def recordAudit (record : AuditRecord) : Action PyException (Session F) Unit :=
  statement backend env (onStore (AuditLog.record record))

end calls

/-! ### What calls leave alone -/

section outside
variable {F α : Type} {backend : Backend} {env : Surroundings}

/-- What others have of a call: the committed tables and the requests that were sent. -/
def Session.outside (s : Session F) : Tracked F × List HypothesisRequest := (s.shared, s.requests)

theorem keeps_awaiting : Keeps Session.outside (awaiting (F := F) env) := by
  intro s
  unfold awaiting
  by_cases h : env.cancelled s.awaits = true
  · simp [h, Session.outside]
  · simp [h, Session.outside]

theorem keeps_readClock : Keeps Session.outside (readClock (F := F) env) := fun _ => rfl

theorem keeps_systemNow : Keeps Session.outside (systemNow (F := F) env) := fun _ => rfl

theorem keeps_drawId (id : UUID) : Keeps Session.outside (drawId (F := F) id) := fun _ => rfl

theorem keeps_onWorking (x : Action PyException (Tracked F) α) :
    Keeps Session.outside (onWorking x) := fun _ => rfl

theorem keeps_abort : Keeps Session.outside (abort (F := F)) := fun _ => rfl

/-- A statement works on the open transaction. -/
theorem keeps_statement (x : Action PyException (Tracked F) α) :
    Keeps Session.outside (statement backend env x) := by
  unfold statement
  refine Keeps.get.bind fun before => keeps_awaiting.bind fun _ => ?_
  cases backend with
  | memory => exact keeps_onWorking x
  | postgres =>
    unfold Postgres.statement
    refine Keeps.get.bind fun s => ?_
    have hrun : Keeps Session.outside (do
        match ← (onWorking x).attempt with
        | .ok a => return a
        | .error e =>
          if e = idempotencyConflict then abort
          throw e : Action PyException (Session F) α) := by
      refine (keeps_onWorking x).attempt.bind fun r => ?_
      cases r with
      | ok a => exact .pure a
      | error e => exact .ite (keeps_abort.bind fun _ => .throw e) (.throw e)
    exact .ite (.throw _) (.ite (keeps_abort.bind fun _ => .throw _) hrun)

theorem keeps_setInvestigationStatus (tenant : TenantId) (id : InvestigationId)
    (status : InvestigationStatus) :
    Keeps Session.outside (setInvestigationStatus (F := F) backend env tenant id status) :=
  keeps_systemNow.bind fun _ => keeps_statement _

theorem keeps_setJobStatus (tenant : TenantId) (id : JobId) (status : JobStatus) :
    Keeps Session.outside (setJobStatus (F := F) backend env tenant id status) :=
  keeps_systemNow.bind fun _ => keeps_statement _

theorem keeps_recordAudit (record : AuditRecord) :
    Keeps Session.outside (recordAudit (F := F) backend env record) := keeps_statement _

end outside

end IncidentEvidence
