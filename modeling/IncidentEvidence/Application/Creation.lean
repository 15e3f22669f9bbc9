import IncidentEvidence.Persistence.Records

/-! # What creating an investigation writes

    `application/contracts.py` and the records `CreateInvestigation.execute` builds
    in `application/use_cases.py`. The records depend on the command, the ids that
    were drawn and the time of the call only.
-/

namespace IncidentEvidence

open Py

/-- A request to open an investigation for a tenant's incident run. -/
structure CreateInvestigationCommand where
  tenant : TenantId
  incident : IncidentId
  run : RunId
  window : IncidentWindow
  idempotencyKey : Option Str
  deriving DecidableEq

namespace CreateInvestigation

/-- `DEFAULT_MAX_ATTEMPTS`. -/
def DEFAULT_MAX_ATTEMPTS : Int := 3

/-- The text of a checked literal. -/
def literal (s : String) (h : isBlank (str s) = false := by decide) : Text := ⟨str s, h⟩

theorem controlPlane_notBlank : isBlank (str "control-plane") = false := by decide

theorem created_notBlank : isBlank (str "investigation.created") = false := by decide

theorem persisted_notBlank : isBlank (str "report.persisted") = false := by decide

theorem failed_notBlank : isBlank (str "investigation.failed") = false := by decide

/-- `_check_optional_text`. -/
def checkOptionalText : Option Str → Except PyException (Option Text)
  | none => .ok none
  | some value => some <$> checkText value

/-- The investigation the call stores. -/
def investigationRecord (command : CreateInvestigationCommand) (investigationId : InvestigationId)
    (now : Datetime) : Except PyException InvestigationRecord := do
  let idempotencyKey ← checkOptionalText command.idempotencyKey
  return {
    investigationId := investigationId
    tenant := command.tenant
    incident := command.incident
    run := command.run
    window := command.window
    status := .pending
    idempotencyKey := idempotencyKey
    createdAt := now
    updatedAt := now }

/-- The job it enqueues for a new investigation. -/
def jobRecord (command : CreateInvestigationCommand) (investigationId : InvestigationId)
    (jobId : JobId) (maxAttempts : Int) (now : Datetime) : Except PyException JobRecord := do
  let maxAttempts ← checkPositive maxAttempts
  return {
    jobId := jobId
    investigationId := investigationId
    tenant := command.tenant
    status := .queued
    availableAt := now
    claimedBy := none
    claimedAt := none
    leaseExpiresAt := none
    attemptCount := 0
    maxAttempts := maxAttempts
    createdAt := now
    updatedAt := now }

/-- Its audit event. -/
def auditRecord (command : CreateInvestigationCommand) (investigationId : InvestigationId)
    (now : Datetime) : AuditRecord where
  tenant := command.tenant
  investigationId := some investigationId
  actor := literal "control-plane" controlPlane_notBlank
  action := literal "investigation.created" created_notBlank
  detail := none
  occurredAt := now

theorem checkOptionalText_eq_ok {value : Option Str} {t : Option Text} :
    checkOptionalText value = .ok t ↔ value = t.map Subtype.val := by
  cases value with
  | none => cases t <;> simp [checkOptionalText]
  | some v =>
    simp only [checkOptionalText, map_eq_ok, checkText_eq_ok]
    cases t with
    | none => simp
    | some w =>
      constructor
      · intro h
        obtain ⟨t, ht, heq⟩ := h
        rw [← ht, Option.some.inj heq]
        rfl
      · intro h
        exact ⟨w, (Option.some.inj h).symm, rfl⟩

theorem investigationRecord_eq_ok {command : CreateInvestigationCommand}
    {investigationId : InvestigationId} {now : Datetime} {record : InvestigationRecord} :
    investigationRecord command investigationId now = .ok record ↔
      command.idempotencyKey = record.idempotencyKey.map Subtype.val ∧
        record = ⟨investigationId, command.tenant, command.incident, command.run, command.window,
          .pending, record.idempotencyKey, now, now⟩ := by
  simp only [investigationRecord, bind_eq_ok, checkOptionalText_eq_ok, pure_eq_ok]
  constructor
  · intro h
    obtain ⟨key, hkey, rfl⟩ := h
    exact ⟨hkey, rfl⟩
  · intro h
    exact ⟨_, h.1, h.2⟩

theorem jobRecord_eq_ok {command : CreateInvestigationCommand}
    {investigationId : InvestigationId} {jobId : JobId} {maxAttempts : Int} {now : Datetime}
    {record : JobRecord} :
    jobRecord command investigationId jobId maxAttempts now = .ok record ↔
      checkPositive maxAttempts = .ok record.maxAttempts ∧
        record = ⟨jobId, investigationId, command.tenant, .queued, now, none, none, none, 0,
          record.maxAttempts, now, now⟩ := by
  simp only [jobRecord, bind_eq_ok, pure_eq_ok]
  constructor
  · intro h
    obtain ⟨attempts, hattempts, rfl⟩ := h
    exact ⟨hattempts, rfl⟩
  · intro h
    exact ⟨_, h.1, h.2⟩

end CreateInvestigation

/-! ### Calls -/

/-- A call of `execute`: its command, the ids and the time it draws, and the setting
    of the use case. -/
structure CreateCall where
  command : CreateInvestigationCommand
  investigationId : InvestigationId
  jobId : JobId
  now : Datetime
  maxAttempts : Int

namespace CreateCall

def investigation (call : CreateCall) : Except PyException InvestigationRecord :=
  CreateInvestigation.investigationRecord call.command call.investigationId call.now

def job (call : CreateCall) : Except PyException JobRecord :=
  CreateInvestigation.jobRecord call.command call.investigationId call.jobId call.maxAttempts call.now

def event (call : CreateCall) : AuditRecord :=
  CreateInvestigation.auditRecord call.command call.investigationId call.now

/-- A row of the caller's tenant under its key. -/
def Matches (call : CreateCall) (row : InvestigationRecord) : Prop :=
  row.tenant = call.command.tenant ∧
    row.idempotencyKey.map Subtype.val = call.command.idempotencyKey

theorem matches_of_ok {call : CreateCall} {record : InvestigationRecord}
    (h : call.investigation = .ok record) :
    call.Matches record ∧ record.investigationId = call.investigationId := by
  obtain ⟨hkey, heq⟩ := CreateInvestigation.investigationRecord_eq_ok.mp h
  rw [heq]
  exact ⟨⟨rfl, hkey.symm⟩, rfl⟩

end CreateCall

namespace Demo

/-- Two calls of one client with one key. -/
def createCall (first : Bool) : CreateCall where
  command := ⟨⟨str "tenant"⟩, ⟨str "incident"⟩, ⟨str "run"⟩,
    ⟨⟨0, Datetime.zero_lt⟩, ⟨10, Datetime.ten_lt⟩, ⟨20, Datetime.twenty_lt⟩⟩, some (str "key")⟩
  investigationId := if first then ⟨⟨1, by decide⟩⟩ else ⟨⟨2, by decide⟩⟩
  jobId := if first then ⟨⟨3, by decide⟩⟩ else ⟨⟨4, by decide⟩⟩
  now := ⟨0, Datetime.zero_lt⟩
  maxAttempts := CreateInvestigation.DEFAULT_MAX_ATTEMPTS

end Demo

end IncidentEvidence
