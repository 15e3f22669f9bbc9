import IncidentEvidence.Application.UseCases

/-! # Invariants of the tables

    What every repository method maintains, every use case and every call of the worker
    maintains, over both units of work and whatever is refused or cancelled
    (`Upholds.scope`). So a fact about rows is proved of the one method that writes them.

    The reports are stored with the schema version of the verifier: only `persist`
    writes them (`versioned_execute`, `versioned_runOnce`).
-/

namespace IncidentEvidence

open Py Py.Action Serialization

/-! ### Sessions -/

section sessions
variable {F α β : Type} {backend : Backend} {env : Surroundings} {q : Store → Prop}

/-- The committed tables and those of the open transaction are as they should be. -/
def Session.Both (q : Store → Prop) (s : Session F) : Prop :=
  q s.shared.store ∧ q s.working.store

/-- A part of a call keeps both so. -/
abbrev Upholds (q : Store → Prop) (x : Action PyException (Session F) α) : Prop :=
  Maintains (Session.Both q) x

/-- What works on neither of them. -/
theorem Upholds.of_keeps {x : Action PyException (Session F) α}
    (h : Keeps (fun s => (s.shared, s.working)) x) : Upholds q x :=
  h.maintains (f := fun s : Session F => (s.shared, s.working)) (Q := fun t => q t.1.store ∧ q t.2.store)

theorem upholds_awaiting : Upholds (F := F) q (awaiting env) := by
  apply Upholds.of_keeps
  intro s
  unfold awaiting
  by_cases h : env.cancelled s.awaits = true
  · simp [h]
  · simp [h]

theorem upholds_readClock : Upholds (F := F) q (readClock env) := Upholds.of_keeps fun _ => rfl

theorem upholds_systemNow : Upholds (F := F) q (systemNow env) := Upholds.of_keeps fun _ => rfl

theorem upholds_drawId (id : UUID) : Upholds (F := F) q (drawId id) := Upholds.of_keeps fun _ => rfl

/-- A statement that keeps the tables in order. -/
theorem upholds_statement {x : Action PyException (Tracked F) α}
    (h : Maintains (fun t => q t.store) x) : Upholds q (statement backend env x) := by
  have hworking : Upholds q (onWorking x) := fun s hs => ⟨hs.1, h s.working hs.2⟩
  unfold statement
  refine Maintains.get.bind fun before => upholds_awaiting.bind fun _ => ?_
  cases backend with
  | memory => exact hworking
  | postgres =>
    unfold Postgres.statement
    refine Maintains.get.bind fun s => .ite (.throw _) (.ite ?_ ?_)
    · exact Maintains.bind (fun _ hs => hs) fun _ => .throw _
    · refine hworking.attempt.bind fun r => ?_
      cases r with
      | ok a => exact .pure a
      | error e => exact .ite (Maintains.bind (fun _ hs => hs) fun _ => .throw e) (.throw e)

theorem upholds_onStore {x : Repository α} (h : Maintains q x) :
    Upholds (F := F) q (statement backend env (onStore x)) :=
  upholds_statement fun t ht => h t.store ht

/-- What is committed is what the transaction saw. -/
theorem upholds_commit : Upholds (F := F) q (commit backend env) := by
  unfold commit
  refine Maintains.get.bind fun before => upholds_awaiting.bind fun _ => ?_
  cases backend with
  | memory => exact .modify fun s hs => ⟨hs.2, hs.2⟩
  | postgres =>
    intro s hs
    rw [exec_bind, exec_get]
    by_cases haborted : s.aborted = true
    · simp only [haborted, if_true]
      exact ⟨hs.1, hs.1⟩
    · by_cases hfails : env.fails before.awaits = true
      · simp only [haborted, hfails, Bool.false_eq_true, if_true, if_false, exec_bind]
        exact hs
      · simp only [haborted, hfails, Bool.false_eq_true, if_false]
        exact ⟨hs.2, hs.2⟩

/-- **A scope** begins and ends with the committed tables. -/
theorem Upholds.scope {body : Action PyException (Session F) α} (h : Upholds q body) :
    Upholds q (scope env body) := by
  have hreset : Upholds (F := F) q
      (modify fun s => { s with working := s.shared, aborted := false }) :=
    .modify fun s hs => ⟨hs.1, hs.1⟩
  unfold IncidentEvidence.scope
  exact upholds_awaiting.bind fun _ => hreset.bind fun _ => h.attempt.bind fun _ =>
    hreset.bind fun _ => .lift _

end sessions

/-! ### The reports -/

section reports

/-- Every report has the schema version of the verifier. -/
def Store.Versioned (S : Store) : Prop :=
  ∀ k r, S.reports.get? k = some r → r.schemaVersion.1 = VERIFICATION_SCHEMA_VERSION

theorem versioned_of_keeps {α : Type} {x : Repository α} (h : Keeps Store.reports x) :
    Maintains Store.Versioned x :=
  h.maintains (Q := fun reports : Dict UUID ReportRecord => ∀ k r, reports.get? k = some r →
    r.schemaVersion.1 = VERIFICATION_SCHEMA_VERSION)

theorem versioned_put {record : ReportRecord}
    (h : record.schemaVersion.1 = VERIFICATION_SCHEMA_VERSION) :
    Maintains Store.Versioned (ReportRepository.put record) := by
  intro S hS
  rw [ReportRepository.put_exec]
  split
  · exact hS
  · intro k r hr
    by_cases hk : k = record.investigationId.value
    · rw [hk, Dict.get?_set_self] at hr
      obtain rfl := Option.some.inj hr
      exact h
    · rw [Dict.get?_set_ne _ _ hk] at hr
      exact hS k r hr

/-! The other methods leave the reports alone. -/

theorem reports_create (record : InvestigationRecord) :
    Keeps Store.reports (InvestigationRepository.create record) := by
  intro S
  rw [InvestigationRepository.create_exec]
  split
  · rfl
  · split
    · rfl
    · rfl

theorem reports_getInvestigation (tenant : TenantId) (id : InvestigationId) :
    Keeps Store.reports (InvestigationRepository.get tenant id) := by
  intro S
  rw [InvestigationRepository.get_exec]

theorem reports_setStatus (tenant : TenantId) (id : InvestigationId) (status : InvestigationStatus)
    (now : Datetime) : Keeps Store.reports (InvestigationRepository.setStatus tenant id status now) := by
  intro S
  rw [InvestigationRepository.setStatus_exec]
  split
  · rfl
  · rfl

theorem reports_setJobStatus (tenant : TenantId) (id : JobId) (status : JobStatus) (now : Datetime) :
    Keeps Store.reports (JobQueue.setStatus tenant id status now) := by
  intro S
  rw [JobQueue.setStatus_exec]
  split
  · rfl
  · rfl

theorem reports_enqueue (record : JobRecord) : Keeps Store.reports (JobQueue.enqueue record) := by
  intro S
  rw [JobQueue.enqueue_exec]
  split
  · rfl
  · rfl

theorem reports_claim (workerId : Text) (lease : Int) (moment : Datetime) :
    Keeps Store.reports (JobQueue.claim workerId.1 lease moment) := by
  intro S
  rw [JobQueue.claim_exec]
  split
  · rfl
  · split
    · rfl
    · rfl

theorem reports_record (record : AttemptRecord) :
    Keeps Store.reports (AttemptRepository.record record) := by
  intro S
  rw [AttemptRepository.record_exec]
  split
  · rfl
  · rfl

theorem reports_append (records : List EvidenceRecord) :
    Keeps Store.reports (EvidenceRepository.append records) := by
  intro S
  obtain ⟨stored, hstored⟩ := EvidenceRepository.append_exec records S
  rw [hstored]

/-! ### Calls -/

variable {F : Type} {backend : Backend}

/-- A statement on another table. -/
theorem versioned_statement {α : Type} {env : Surroundings} {x : Repository α}
    (h : Keeps Store.reports x) :
    Upholds (F := F) Store.Versioned (statement backend env (onStore x)) :=
  upholds_onStore (versioned_of_keeps h)

theorem versioned_setInvestigationStatus {env : Surroundings} (tenant : TenantId)
    (id : InvestigationId) (status : InvestigationStatus) :
    Upholds (F := F) Store.Versioned (setInvestigationStatus backend env tenant id status) :=
  upholds_systemNow.bind fun _ => versioned_statement (reports_setStatus _ _ _ _)

theorem versioned_setStatusOfJob {env : Surroundings} (tenant : TenantId) (id : JobId)
    (status : JobStatus) :
    Upholds (F := F) Store.Versioned (setJobStatus backend env tenant id status) :=
  upholds_systemNow.bind fun _ => versioned_statement (reports_setJobStatus _ _ _ _)

theorem versioned_recordAudit {env : Surroundings} (record : AuditRecord) :
    Upholds (F := F) Store.Versioned (recordAudit backend env record) :=
  versioned_statement fun _ => rfl

theorem versioned_execute {env : Surroundings} (call : CreateCall) :
    Upholds (F := F) Store.Versioned (CreateInvestigation.execute backend env call) := by
  unfold CreateInvestigation.execute
  refine (upholds_drawId _).bind fun _ => Upholds.scope ?_
  refine (Maintains.lift _).bind fun record => ?_
  refine (versioned_statement (reports_create record)).bind fun stored => ?_
  have hend : Upholds (F := F) Store.Versioned (do
      commit backend env
      return stored.investigationId) := upholds_commit.bind fun _ => .pure _
  refine .ite ((upholds_drawId _).bind fun _ => (Maintains.lift _).bind fun job => ?_) hend
  refine (versioned_statement (reports_enqueue job)).bind fun _ => ?_
  exact (versioned_recordAudit _).bind fun _ => hend

variable [PyFloat F] [FloatHex F] [Sha256] {w : Worker F} {env : Environment F}

omit [FloatHex F] [Sha256] in
theorem versioned_persist (investigation : InvestigationRecord) (p : Prepared F) :
    Upholds Store.Versioned (w.persist backend env investigation p) := by
  unfold Worker.persist
  refine upholds_readClock.bind fun now => (Maintains.lift _).bind fun rows => ?_
  refine (versioned_statement (reports_append rows)).bind fun _ => ?_
  refine Maintains.liftBind fun report hreport => Maintains.bind ?_ fun _ =>
    (versioned_setInvestigationStatus _ _ _).bind fun _ => versioned_recordAudit _
  -- the one report that is written
  have hversion : report.schemaVersion.1 = VERIFICATION_SCHEMA_VERSION := by
    simp only [reportRecord, bind_eq_ok, pure_eq_ok] at hreport
    obtain ⟨_, -, _, -, rfl⟩ := hreport
    rfl
  refine upholds_statement (Maintains.bind ?_ fun _ => .modify fun t ht => ht)
  exact fun t ht => versioned_put hversion t.store ht

theorem versioned_runPipeline (investigation : InvestigationRecord) :
    Upholds Store.Versioned (w.runPipeline backend env investigation) := by
  unfold Worker.runPipeline
  refine upholds_awaiting.bind fun _ => (Maintains.lift _).bind fun telemetry => ?_
  refine (Maintains.lift _).bind fun ranked => upholds_awaiting.bind fun _ => ?_
  refine Maintains.bind (fun _ hs => hs) fun _ => (Maintains.lift _).bind fun proposal => ?_
  refine (Maintains.lift _).bind fun _ => (Maintains.lift _).bind fun _ => ?_
  refine (Maintains.lift _).bind fun document => (Maintains.lift _).bind fun prepared => ?_
  exact versioned_persist investigation prepared

omit [FloatHex F] [Sha256] in
theorem versioned_recordAttempt (claimed : ClaimedJob) (started : Datetime)
    (outcome : AttemptOutcome) (errorCode : Option Str) :
    Upholds Store.Versioned (w.recordAttempt backend env claimed started outcome errorCode) := by
  unfold Worker.recordAttempt
  refine (upholds_drawId _).bind fun _ => upholds_readClock.bind fun _ => ?_
  refine upholds_readClock.bind fun _ => (Maintains.lift _).bind fun _ => ?_
  exact (versioned_statement (reports_record _)).bind fun _ => .pure _

omit [FloatHex F] [Sha256] in
theorem versioned_terminalFail (claimed : ClaimedJob) (started : Datetime) (code : Str) :
    Upholds Store.Versioned (w.terminalFail backend env claimed started code) := by
  unfold Worker.terminalFail
  refine (versioned_setInvestigationStatus _ _ _).bind fun _ => ?_
  refine (versioned_setStatusOfJob _ _ _).bind fun _ => ?_
  refine (versioned_recordAttempt _ _ _ _).bind fun _ => upholds_readClock.bind fun _ => ?_
  exact (Maintains.lift _).bind fun _ => versioned_recordAudit _

omit [FloatHex F] [Sha256] in
theorem versioned_handle (claimed : ClaimedJob) (started : Datetime) (e : PyException) :
    Upholds Store.Versioned (w.handle backend env claimed started e) := by
  unfold Worker.handle
  split
  · exact versioned_terminalFail _ _ _
  · unfold Worker.retryOrFail
    refine .ite (versioned_terminalFail _ _ _) ?_
    exact (versioned_setStatusOfJob _ _ _).bind fun _ => versioned_recordAttempt _ _ _ _
  · exact .ite (versioned_terminalFail _ _ _) (.throw _)

theorem versioned_process (claimed : ClaimedJob) (started : Datetime)
    (investigation : InvestigationRecord) :
    Upholds Store.Versioned (w.process backend env claimed started investigation) := by
  unfold Worker.process
  refine (versioned_runPipeline _).attempt.bind fun result => ?_
  cases result with
  | error e => exact versioned_handle _ _ _
  | ok _ => exact (versioned_setStatusOfJob _ _ _).bind fun _ => versioned_recordAttempt _ _ _ _

theorem versioned_runOnce : Upholds Store.Versioned (w.runOnce backend env) := by
  unfold Worker.runOnce
  refine Upholds.scope (upholds_readClock.bind fun now => ?_)
  refine (versioned_statement (reports_claim _ _ _)).bind fun claimed => ?_
  cases claimed with
  | none => exact upholds_commit.bind fun _ => .pure _
  | some claimed =>
    show Upholds Store.Versioned (w.runClaimed backend env claimed)
    unfold Worker.runClaimed
    refine upholds_readClock.bind fun started => ?_
    refine (versioned_statement (reports_getInvestigation _ _)).attempt.bind fun found => ?_
    split
    · exact (versioned_setStatusOfJob _ _ _).bind fun _ => upholds_commit.bind fun _ => .pure _
    · exact .throw _
    · refine .ite ?_ ?_
      · exact (versioned_setStatusOfJob _ _ _).bind fun _ => upholds_commit.bind fun _ => .pure _
      · refine (versioned_setInvestigationStatus _ _ _).bind fun _ => ?_
        exact (versioned_process _ _ _).bind fun _ => upholds_commit.bind fun _ => .pure _

end reports

end IncidentEvidence
