import IncidentEvidence.Exceptions
import IncidentEvidence.Py.Uuid
import Mathlib.Data.PNat.Defs

/-! # Persistence records

    `persistence/records.py`. What the constructors check is carried by the field
    types: a `Text` is not blank, a count is a natural number or a positive one.
    Timestamps are aware, hence instants.
-/

namespace IncidentEvidence

open Py

/-! ### Checked values -/

/-- A text `_check_text` accepts. -/
abbrev Text := {s : Str // isBlank s = false}

/-- `_check_text`. -/
def checkText (value : Str) : Except PyException Text :=
  if h : isBlank value = false then .ok ⟨value, h⟩ else .error (.persistence .invalidRecord)

/-- `_check_count` with `minimum=1`. -/
def checkPositive (value : Int) : Except PyException ℕ+ :=
  if h : 0 < value.toNat then .ok ⟨value.toNat, h⟩ else .error (.persistence .invalidRecord)

theorem checkText_eq_ok {value : Str} {t : Text} : checkText value = .ok t ↔ t.1 = value := by
  unfold checkText
  by_cases h : isBlank value = false
  · rw [dif_pos h]
    simp [Subtype.ext_iff, eq_comm]
  · rw [dif_neg h]
    constructor
    · intro hok
      cases hok
    · intro heq
      exact absurd (heq ▸ t.2) h

@[simp] theorem checkText_val (t : Text) : checkText t.1 = .ok t := checkText_eq_ok.mpr rfl

theorem checkText_eq_error {value : Str} {e : PyException} :
    checkText value = .error e ↔ isBlank value = true ∧ e = .persistence .invalidRecord := by
  unfold checkText
  by_cases h : isBlank value = false
  · simp [h]
  · rw [dif_neg h]
    simp [Bool.eq_true_of_not_eq_false h, eq_comm]

/-! ### Surrogate identifiers -/

@[ext]
structure InvestigationId where
  value : UUID
  deriving DecidableEq

@[ext]
structure JobId where
  value : UUID
  deriving DecidableEq

@[ext]
structure AttemptId where
  value : UUID
  deriving DecidableEq

/-! ### Statuses -/

inductive InvestigationStatus where
  | pending
  | running
  | succeeded
  | failed
  | cancelled
  deriving DecidableEq

inductive JobStatus where
  | queued
  | claimed
  | running
  | succeeded
  | failed
  | cancelled
  deriving DecidableEq

/-- The text of a status. -/
def JobStatus.value : JobStatus → Str
  | .queued => str "queued"
  | .claimed => str "claimed"
  | .running => str "running"
  | .succeeded => str "succeeded"
  | .failed => str "failed"
  | .cancelled => str "cancelled"

inductive AttemptOutcome where
  | succeeded
  | failed
  | timeout
  | cancelled
  deriving DecidableEq

inductive LedgerKind where
  | metric
  | change
  deriving DecidableEq

/-! ### Records -/

/-- A durable investigation request row. -/
structure InvestigationRecord where
  investigationId : InvestigationId
  tenant : TenantId
  incident : IncidentId
  run : RunId
  window : IncidentWindow
  status : InvestigationStatus
  idempotencyKey : Option Text
  createdAt : Datetime
  updatedAt : Datetime
  deriving DecidableEq

/-- A claimable queue row for one investigation. -/
structure JobRecord where
  jobId : JobId
  investigationId : InvestigationId
  tenant : TenantId
  status : JobStatus
  availableAt : Datetime
  claimedBy : Option Text
  claimedAt : Option Datetime
  leaseExpiresAt : Option Datetime
  attemptCount : ℕ
  maxAttempts : ℕ+
  createdAt : Datetime
  updatedAt : Datetime
  deriving DecidableEq

/-- The subset of a job returned to the worker that claimed it. -/
structure ClaimedJob where
  jobId : JobId
  investigationId : InvestigationId
  tenant : TenantId
  workerId : Text
  leaseExpiresAt : Datetime
  attemptCount : ℕ+
  deriving DecidableEq

/-- An append-only record of one job execution attempt. -/
structure AttemptRecord where
  attemptId : AttemptId
  jobId : JobId
  tenant : TenantId
  attemptNumber : ℕ+
  workerId : Text
  startedAt : Datetime
  finishedAt : Option Datetime
  outcome : Option AttemptOutcome
  errorCode : Option Text
  createdAt : Datetime
  deriving DecidableEq

/-- A content-addressed persisted evidence-ledger entry. -/
structure EvidenceRecord where
  tenant : TenantId
  investigationId : InvestigationId
  run : RunId
  evidenceId : EvidenceId
  ledgerKind : LedgerKind
  schemaVersion : Text
  payload : Text
  createdAt : Datetime
  deriving DecidableEq

/-- The replayable incident report for one investigation. -/
structure ReportRecord where
  investigationId : InvestigationId
  tenant : TenantId
  run : RunId
  schemaVersion : Text
  payload : Text
  createdAt : Datetime
  baselinePayload : Option Text
  deriving DecidableEq

/-- An append-only, sanitized audit event. -/
structure AuditRecord where
  tenant : TenantId
  investigationId : Option InvestigationId
  actor : Text
  action : Text
  detail : Option Text
  occurredAt : Datetime
  deriving DecidableEq

end IncidentEvidence
