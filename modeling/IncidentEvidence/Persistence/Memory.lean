import IncidentEvidence.Persistence.Records
import IncidentEvidence.Py.Action
import IncidentEvidence.Py.Dict
import IncidentEvidence.Py.Sorted
import Mathlib.Data.Prod.Lex

/-! # The in-memory store

    `persistence/memory.py`: six tables and the repositories over them, as
    computations on the store. `updated_at` of a status change is read from the
    system clock; the methods that read it take that instant as an argument.

    Each method has one `_exec` lemma that says what it returns or raises and
    what the store is then.
-/

namespace IncidentEvidence

open Py Py.Action

/-! ### Tables -/

/-- The key of an evidence row: tenant, run and evidence id. -/
abbrev EvidenceKey := Str × Str × Str

/-- `_Store`. -/
structure Store where
  investigations : Dict UUID InvestigationRecord
  jobs : Dict UUID JobRecord
  attempts : Dict UUID AttemptRecord
  evidence : Dict EvidenceKey EvidenceRecord
  reports : Dict UUID ReportRecord
  audit : List AuditRecord

/-- `_Store()`. -/
def Store.empty : Store := ⟨.empty, .empty, .empty, .empty, .empty, []⟩

/-- A repository method over the store. -/
abbrev Repository := Action PyException Store

/-- `IdempotencyConflictError`. -/
def idempotencyConflict : PyException := .persistence .idempotencyConflict

/-- `RecordNotFoundError`. -/
def recordNotFound : PyException := .persistence .recordNotFound

/-- `replace(record, status=status, updated_at=now)`. -/
def InvestigationRecord.withStatus (record : InvestigationRecord) (status : InvestigationStatus)
    (now : Datetime) : InvestigationRecord :=
  { record with status := status, updatedAt := now }

/-- `replace(record, status=status, updated_at=now)`. -/
def JobRecord.withStatus (record : JobRecord) (status : JobStatus) (now : Datetime) : JobRecord :=
  { record with status := status, updatedAt := now }

/-! ### Investigations -/

namespace InvestigationRepository

/-- `_by_key`. -/
def byKey (s : Store) (tenant : TenantId) (key : Option Text) : Option InvestigationRecord :=
  match key with
  | none => none
  | some key => s.investigations.values.find? fun record =>
      record.tenant = tenant ∧ record.idempotencyKey = some key

def create (record : InvestigationRecord) : Repository InvestigationRecord := do
  let s ← get
  match byKey s record.tenant record.idempotencyKey with
  | some existing => return existing
  | none =>
    if (s.investigations.get? record.investigationId.value).isSome then throw idempotencyConflict
    set { s with investigations := s.investigations.set record.investigationId.value record }
    return record

theorem create_exec (record : InvestigationRecord) (s : Store) :
    (create record).exec s = match byKey s record.tenant record.idempotencyKey with
      | some existing => (.ok existing, s)
      | none =>
        if (s.investigations.get? record.investigationId.value).isSome then
          (.error idempotencyConflict, s)
        else (.ok record,
          { s with investigations := s.investigations.set record.investigationId.value record }) := by
  unfold create
  rw [exec_bind, exec_get]
  show Action.exec (match byKey s record.tenant record.idempotencyKey with | some _ => _ | none => _) s = _
  cases byKey s record.tenant record.idempotencyKey with
  | some existing => rfl
  | none =>
    by_cases h : (s.investigations.get? record.investigationId.value).isSome
    · simp [h]
    · simp [h]

/-- The tenant's investigation, when there is one. -/
def find? (s : Store) (tenant : TenantId) (investigationId : InvestigationId) :
    Option InvestigationRecord :=
  (s.investigations.get? investigationId.value).filter fun record => record.tenant = tenant

def get (tenant : TenantId) (investigationId : InvestigationId) :
    Repository InvestigationRecord := do
  let s ← MonadState.get
  lift (orRaise (find? s tenant investigationId) recordNotFound)

def setStatus (tenant : TenantId) (investigationId : InvestigationId)
    (status : InvestigationStatus) (now : Datetime) : Repository InvestigationRecord := do
  let record ← get tenant investigationId
  let updated := record.withStatus status now
  modify fun s => { s with investigations := s.investigations.set investigationId.value updated }
  return updated

theorem find?_eq_some {s : Store} {tenant : TenantId} {investigationId : InvestigationId}
    {record : InvestigationRecord} : find? s tenant investigationId = some record ↔
      s.investigations.get? investigationId.value = some record ∧ record.tenant = tenant := by
  unfold find?
  rw [Option.filter_eq_some_iff, decide_eq_true_iff]

theorem get_exec (tenant : TenantId) (investigationId : InvestigationId) (s : Store) :
    (get tenant investigationId).exec s =
      (orRaise (find? s tenant investigationId) recordNotFound, s) := by
  simp [get]

theorem setStatus_exec (tenant : TenantId) (investigationId : InvestigationId)
    (status : InvestigationStatus) (now : Datetime) (s : Store) :
    (setStatus tenant investigationId status now).exec s =
      match find? s tenant investigationId with
      | some record => (.ok (record.withStatus status now), { s with
          investigations := s.investigations.set investigationId.value (record.withStatus status now) })
      | none => (.error recordNotFound, s) := by
  unfold setStatus
  rw [exec_bind, get_exec]
  cases find? s tenant investigationId <;> simp [orRaise]

end InvestigationRepository

/-! ### Jobs -/

namespace JobQueue

def enqueue (record : JobRecord) : Repository JobRecord := do
  let s ← get
  if (s.jobs.get? record.jobId.value).isSome then throw idempotencyConflict
  set { s with jobs := s.jobs.set record.jobId.value record }
  return record

theorem enqueue_exec (record : JobRecord) (s : Store) :
    (enqueue record).exec s =
      if (s.jobs.get? record.jobId.value).isSome then (.error idempotencyConflict, s)
      else (.ok record, { s with jobs := s.jobs.set record.jobId.value record }) := by
  unfold enqueue
  by_cases h : (s.jobs.get? record.jobId.value).isSome
  · simp [h]
  · simp [h]

/-- `_claimable`. -/
def claimable (job : JobRecord) (moment : Datetime) : Bool :=
  (job.status = .queued && job.availableAt ≤ moment) ||
    (job.status = .claimed && job.leaseExpiresAt.any fun expiry => expiry ≤ moment)

/-- What `claim` sorts by. -/
def claimKey (job : JobRecord) : Datetime ×ₗ Str := toLex (job.availableAt, job.jobId.value.str)

/-- The row of a job that was claimed. -/
def claimedRow (job : JobRecord) (workerId : Text) (moment leaseExpiry : Datetime) : JobRecord :=
  { job with
    status := .claimed
    claimedBy := some workerId
    claimedAt := some moment
    leaseExpiresAt := some leaseExpiry
    attemptCount := job.attemptCount + 1
    updatedAt := moment }

/-- What the worker learns of the job it claimed. -/
def claimedJob (job : JobRecord) (workerId : Text) (leaseExpiry : Datetime) : ClaimedJob where
  jobId := job.jobId
  investigationId := job.investigationId
  tenant := job.tenant
  workerId := workerId
  leaseExpiresAt := leaseExpiry
  attemptCount := Nat.succPNat job.attemptCount

/-- The jobs that can be claimed, in the order of claiming. -/
def eligible (s : Store) (moment : Datetime) : List JobRecord :=
  sortedOn claimKey (s.jobs.values.filter fun job => claimable job moment)

def claim (workerId : Str) (lease : Int) (moment : Datetime) : Repository (Option ClaimedJob) := do
  let workerId ← lift (checkText workerId)
  let s ← get
  match eligible s moment with
  | [] => return none
  | job :: _ =>
    let leaseExpiry ← lift (orRaise (moment.add lease) .overflowError)
    set { s with
      jobs := s.jobs.set job.jobId.value (claimedRow job workerId moment leaseExpiry) }
    return some (claimedJob job workerId leaseExpiry)

theorem claim_exec (workerId : Text) (lease : Int) (moment : Datetime) (s : Store) :
    (claim workerId.1 lease moment).exec s =
      match eligible s moment with
      | [] => (.ok none, s)
      | job :: _ =>
        match moment.add lease with
        | none => (.error .overflowError, s)
        | some leaseExpiry => (.ok (some (claimedJob job workerId leaseExpiry)),
            { s with
              jobs := s.jobs.set job.jobId.value (claimedRow job workerId moment leaseExpiry) }) := by
  unfold claim
  rw [checkText_val]
  simp only [exec_bind, exec_lift, exec_get]
  cases eligible s moment with
  | nil => rfl
  | cons job rest =>
    cases h : moment.add lease with
    | none => simp [orRaise]
    | some leaseExpiry => simp [orRaise]

/-- The tenant's job, when there is one. -/
def find? (s : Store) (tenant : TenantId) (jobId : JobId) : Option JobRecord :=
  (s.jobs.get? jobId.value).filter fun record => record.tenant = tenant

def get (tenant : TenantId) (jobId : JobId) : Repository JobRecord := do
  let s ← MonadState.get
  lift (orRaise (find? s tenant jobId) recordNotFound)

def setStatus (tenant : TenantId) (jobId : JobId) (status : JobStatus) (now : Datetime) :
    Repository JobRecord := do
  let record ← get tenant jobId
  let updated := record.withStatus status now
  modify fun s => { s with jobs := s.jobs.set jobId.value updated }
  return updated

theorem find?_eq_some {s : Store} {tenant : TenantId} {jobId : JobId} {record : JobRecord} :
    find? s tenant jobId = some record ↔
      s.jobs.get? jobId.value = some record ∧ record.tenant = tenant := by
  unfold find?
  rw [Option.filter_eq_some_iff, decide_eq_true_iff]

theorem get_exec (tenant : TenantId) (jobId : JobId) (s : Store) :
    (get tenant jobId).exec s = (orRaise (find? s tenant jobId) recordNotFound, s) := by
  simp [get]

theorem setStatus_exec (tenant : TenantId) (jobId : JobId) (status : JobStatus) (now : Datetime)
    (s : Store) :
    (setStatus tenant jobId status now).exec s =
      match find? s tenant jobId with
      | some record => (.ok (record.withStatus status now), { s with
          jobs := s.jobs.set jobId.value (record.withStatus status now) })
      | none => (.error recordNotFound, s) := by
  unfold setStatus
  rw [exec_bind, get_exec]
  cases find? s tenant jobId <;> simp [orRaise]

end JobQueue

/-! ### Attempts -/

namespace AttemptRepository

/-- An attempt of the same job with the same number is stored. -/
def duplicate (s : Store) (record : AttemptRecord) : Bool :=
  s.attempts.values.any fun existing =>
    existing.jobId = record.jobId && existing.attemptNumber = record.attemptNumber

def record (record : AttemptRecord) : Repository AttemptRecord := do
  let s ← get
  if duplicate s record then throw idempotencyConflict
  set { s with attempts := s.attempts.set record.attemptId.value record }
  return record

theorem record_exec (r : AttemptRecord) (s : Store) :
    (record r).exec s =
      if duplicate s r then (.error idempotencyConflict, s)
      else (.ok r, { s with attempts := s.attempts.set r.attemptId.value r }) := by
  unfold record
  by_cases h : duplicate s r
  · simp [h]
  · simp [h]

def listForJob (s : Store) (tenant : TenantId) (jobId : JobId) : List AttemptRecord :=
  sortedOn (fun attempt => attempt.attemptNumber)
    (s.attempts.values.filter fun attempt => attempt.tenant = tenant ∧ attempt.jobId = jobId)

end AttemptRepository

/-! ### Evidence -/

namespace EvidenceRepository

/-- The key a row is stored under. -/
def key (record : EvidenceRecord) : EvidenceKey :=
  (record.tenant.value, record.run.value, record.evidenceId.value)

/-- One turn of the loop of `append`. -/
def appendOne (record : EvidenceRecord) : Repository EvidenceRecord := do
  let s ← get
  match s.evidence.get? (key record) with
  | some existing => return existing
  | none =>
    set { s with evidence := s.evidence.set (key record) record }
    return record

theorem appendOne_exec (r : EvidenceRecord) (s : Store) :
    (appendOne r).exec s = match s.evidence.get? (key r) with
      | some existing => (.ok existing, s)
      | none => (.ok r, { s with evidence := s.evidence.set (key r) r }) := by
  unfold appendOne
  rw [exec_bind, exec_get]
  cases h : s.evidence.get? (key r) <;> simp [h]

def append (records : List EvidenceRecord) : Repository (List EvidenceRecord) :=
  records.mapM appendOne

/-- The table after `append`: a row that is there stays. -/
def appended (table : Dict EvidenceKey EvidenceRecord) :
    List EvidenceRecord → Dict EvidenceKey EvidenceRecord
  | [] => table
  | r :: rs => appended (if (table.get? (key r)).isSome then table else table.set (key r) r) rs

theorem append_exec (records : List EvidenceRecord) (s : Store) :
    ∃ stored, (append records).exec s =
      (.ok stored, { s with evidence := appended s.evidence records }) := by
  unfold append
  induction records generalizing s with
  | nil => exact ⟨[], rfl⟩
  | cons r rs ih =>
    rw [List.mapM_cons, exec_bind, appendOne_exec]
    cases h : s.evidence.get? (key r) with
    | some existing =>
      obtain ⟨stored, hstored⟩ := ih s
      refine ⟨existing :: stored, ?_⟩
      simp [hstored, appended, h]
    | none =>
      obtain ⟨stored, hstored⟩ := ih { s with evidence := s.evidence.set (key r) r }
      refine ⟨r :: stored, ?_⟩
      simp [hstored, appended, h]

/-- A key is stored under the row it had, else under the first row appended for it. -/
theorem get?_appended (table : Dict EvidenceKey EvidenceRecord) (records : List EvidenceRecord)
    (k : EvidenceKey) :
    (appended table records).get? k =
      (table.get? k).or (records.find? fun r => key r = k) := by
  induction records generalizing table with
  | nil => simp [appended]
  | cons r rs ih =>
    unfold appended
    rw [ih, List.find?_cons]
    by_cases hsome : (table.get? (key r)).isSome = true
    · rw [if_pos hsome]
      by_cases hk : key r = k
      · obtain ⟨v, hv⟩ := Option.isSome_iff_exists.mp hsome
        rw [hk] at hv
        simp [hv]
      · simp [hk]
    · rw [if_neg hsome, Dict.get?_set]
      by_cases hk : key r = k
      · have hnone : table.get? k = none := by
          rw [← hk]
          exact Option.not_isSome_iff_eq_none.mp hsome
        simp [hk, hnone]
      · rw [if_neg (Ne.symm hk)]
        simp [hk]

def listForInvestigation (s : Store) (tenant : TenantId) (investigationId : InvestigationId) :
    List EvidenceRecord :=
  sortedOn (fun record => record.evidenceId.value) (s.evidence.values.filter fun record =>
    record.tenant = tenant ∧ record.investigationId = investigationId)

end EvidenceRepository

/-! ### Reports -/

namespace ReportRepository

def put (record : ReportRecord) : Repository ReportRecord := do
  let s ← get
  if (s.reports.get? record.investigationId.value).isSome then throw idempotencyConflict
  set { s with reports := s.reports.set record.investigationId.value record }
  return record

theorem put_exec (record : ReportRecord) (s : Store) :
    (put record).exec s =
      if (s.reports.get? record.investigationId.value).isSome then (.error idempotencyConflict, s)
      else (.ok record,
        { s with reports := s.reports.set record.investigationId.value record }) := by
  unfold put
  by_cases h : (s.reports.get? record.investigationId.value).isSome
  · simp [h]
  · simp [h]

/-- The tenant's report, when there is one. -/
def find? (s : Store) (tenant : TenantId) (investigationId : InvestigationId) :
    Option ReportRecord :=
  (s.reports.get? investigationId.value).filter fun record => record.tenant = tenant

def get (tenant : TenantId) (investigationId : InvestigationId) : Repository ReportRecord := do
  let s ← MonadState.get
  lift (orRaise (find? s tenant investigationId) recordNotFound)

theorem get_exec (tenant : TenantId) (investigationId : InvestigationId) (s : Store) :
    (get tenant investigationId).exec s =
      (orRaise (find? s tenant investigationId) recordNotFound, s) := by
  simp [get]

end ReportRepository

/-! ### Audit -/

namespace AuditLog

def record (record : AuditRecord) : Repository Unit :=
  modify fun s => { s with audit := s.audit ++ [record] }

theorem record_exec (r : AuditRecord) (s : Store) :
    (record r).exec s = (.ok (), { s with audit := s.audit ++ [r] }) := rfl

def listForInvestigation (s : Store) (tenant : TenantId) (investigationId : InvestigationId) :
    List AuditRecord :=
  s.audit.filter fun record =>
    record.tenant = tenant ∧ record.investigationId = some investigationId

end AuditLog

end IncidentEvidence
