import IncidentEvidence.Application.FailedRuns
import IncidentEvidence.Py.Coupling

/-! # The system clock decides nothing

    `updated_at` is written from the system clock and never read. Two calls that meet
    the same in everything but the system clock, from stores that differ in their
    stamps at most, return or raise the same, and what they commit differs in its
    stamps at most (`couples_runOnce_stamps`, `couples_execute_stamps`).
-/

namespace IncidentEvidence

open Py Py.Action

/-! ### Repositories -/

namespace SameButStamps

variable {S S' : Store}

@[refl] theorem refl (S : Store) : SameButStamps S S := ⟨rfl, rfl, rfl, rfl, rfl, rfl⟩

theorem symm (h : SameButStamps S S') : SameButStamps S' S :=
  ⟨h.investigations.symm, h.jobs.symm, h.attempts.symm, h.evidence.symm, h.reports.symm, h.audit.symm⟩

end SameButStamps

/-- Rows of one investigation that differ in their stamp at most. -/
def InvestigationRecord.Same (i i' : InvestigationRecord) : Prop := i.unstamped = i'.unstamped

/-- Rows of one job that differ in their stamp at most. -/
def JobRecord.Same (j j' : JobRecord) : Prop := j.unstamped = j'.unstamped

/-- What a row is, up to its stamp. -/
theorem InvestigationRecord.Same.eq {i i' : InvestigationRecord} (h : i.Same i') :
    i' = { i with updatedAt := i'.updatedAt } := by
  cases i
  cases i'
  simp only [Same, unstamped, InvestigationRecord.mk.injEq] at h
  obtain ⟨rfl, rfl, rfl, rfl, rfl, rfl, rfl, rfl, -⟩ := h
  rfl

theorem JobRecord.Same.eq {j j' : JobRecord} (h : j.Same j') :
    j' = { j with updatedAt := j'.updatedAt } := by
  cases j
  cases j'
  simp only [Same, unstamped, JobRecord.mk.injEq] at h
  obtain ⟨rfl, rfl, rfl, rfl, rfl, rfl, rfl, rfl, rfl, rfl, rfl, -⟩ := h
  rfl

theorem InvestigationRecord.Same.withStatus {i i' : InvestigationRecord} (h : i.Same i')
    (status : InvestigationStatus) (now now' : Datetime) :
    (i.withStatus status now).Same (i'.withStatus status now') := by
  rw [h.eq]
  rfl

theorem JobRecord.Same.withStatus {j j' : JobRecord} (h : j.Same j') (status : JobStatus)
    (now now' : Datetime) : (j.withStatus status now).Same (j'.withStatus status now') := by
  rw [h.eq]
  rfl

/-- Values that agree up to a function, or are both missing. -/
theorem option_map_cases {α β : Type} {f : α → β} {a a' : Option α} (h : a.map f = a'.map f) :
    (a = none ∧ a' = none) ∨ ∃ x x', a = some x ∧ a' = some x' ∧ f x = f x' := by
  cases a with
  | none => exact Or.inl ⟨rfl, Option.map_eq_none_iff.mp h.symm⟩
  | some x =>
    obtain ⟨x', hx', heq⟩ := Option.map_eq_some_iff.mp h.symm
    exact Or.inr ⟨x, x', rfl, hx', heq.symm⟩

section repositories
variable {S S' : Store}

theorem SameButStamps.find?_investigation (h : SameButStamps S S') (tenant : TenantId)
    (id : InvestigationId) :
    (InvestigationRepository.find? S tenant id = none ∧
        InvestigationRepository.find? S' tenant id = none) ∨
      ∃ i i', InvestigationRepository.find? S tenant id = some i ∧
        InvestigationRepository.find? S' tenant id = some i' ∧ i.Same i' := by
  rcases option_map_cases (Dict.get?_congr h.investigations id.value) with
    ⟨hi, hi'⟩ | ⟨i, i', hi, hi', hsame⟩
  · exact Or.inl ⟨by rw [InvestigationRepository.find?, hi]; rfl,
      by rw [InvestigationRepository.find?, hi']; rfl⟩
  · have htenant : i'.tenant = i.tenant := by
      rw [InvestigationRecord.Same.eq hsame]
    rw [InvestigationRepository.find?, InvestigationRepository.find?, hi, hi']
    by_cases ht : i.tenant = tenant
    · exact Or.inr ⟨i, i', by simp [ht], by simp [htenant, ht], hsame⟩
    · exact Or.inl ⟨by simp [ht], by simp [htenant, ht]⟩

theorem SameButStamps.find?_job (h : SameButStamps S S') (tenant : TenantId) (id : JobId) :
    (JobQueue.find? S tenant id = none ∧ JobQueue.find? S' tenant id = none) ∨
      ∃ j j', JobQueue.find? S tenant id = some j ∧ JobQueue.find? S' tenant id = some j' ∧
        j.Same j' := by
  rcases option_map_cases (Dict.get?_congr h.jobs id.value) with ⟨hj, hj'⟩ | ⟨j, j', hj, hj', hsame⟩
  · exact Or.inl ⟨by rw [JobQueue.find?, hj]; rfl, by rw [JobQueue.find?, hj']; rfl⟩
  · have htenant : j'.tenant = j.tenant := by
      rw [JobRecord.Same.eq hsame]
    rw [JobQueue.find?, JobQueue.find?, hj, hj']
    by_cases ht : j.tenant = tenant
    · exact Or.inr ⟨j, j', by simp [ht], by simp [htenant, ht], hsame⟩
    · exact Or.inl ⟨by simp [ht], by simp [htenant, ht]⟩

theorem couples_get (tenant : TenantId) (id : InvestigationId) :
    Couples SameButStamps SameButStamps InvestigationRecord.Same
      (InvestigationRepository.get tenant id) (InvestigationRepository.get tenant id) := by
  intro S S' h
  rw [InvestigationRepository.get_exec, InvestigationRepository.get_exec]
  rcases h.find?_investigation tenant id with ⟨hi, hi'⟩ | ⟨i, i', hi, hi', hsame⟩
  · rw [hi, hi']
    exact ⟨.error, h⟩
  · rw [hi, hi']
    exact ⟨.ok hsame, h⟩

theorem couples_setStatus (tenant : TenantId) (id : InvestigationId) (status : InvestigationStatus)
    (now now' : Datetime) :
    Couples SameButStamps SameButStamps InvestigationRecord.Same
      (InvestigationRepository.setStatus tenant id status now)
      (InvestigationRepository.setStatus tenant id status now') := by
  intro S S' h
  rw [InvestigationRepository.setStatus_exec, InvestigationRepository.setStatus_exec]
  rcases h.find?_investigation tenant id with ⟨hi, hi'⟩ | ⟨i, i', hi, hi', hsame⟩
  · rw [hi, hi']
    exact ⟨.error, h⟩
  · rw [hi, hi']
    have hrow := hsame.withStatus status now now'
    exact ⟨.ok hrow, { h with investigations := Dict.set_congr h.investigations id.value hrow }⟩

theorem couples_setJobStatus (tenant : TenantId) (id : JobId) (status : JobStatus)
    (now now' : Datetime) :
    Couples SameButStamps SameButStamps JobRecord.Same (JobQueue.setStatus tenant id status now)
      (JobQueue.setStatus tenant id status now') := by
  intro S S' h
  rw [JobQueue.setStatus_exec, JobQueue.setStatus_exec]
  rcases h.find?_job tenant id with ⟨hj, hj'⟩ | ⟨j, j', hj, hj', hsame⟩
  · rw [hj, hj']
    exact ⟨.error, h⟩
  · rw [hj, hj']
    have hrow := hsame.withStatus status now now'
    exact ⟨.ok hrow, { h with jobs := Dict.set_congr h.jobs id.value hrow }⟩

/-- The jobs that can be claimed are the same, in the same order. -/
theorem SameButStamps.eligible (h : SameButStamps S S') (moment : Datetime) :
    (JobQueue.eligible S moment).map JobRecord.unstamped =
      (JobQueue.eligible S' moment).map JobRecord.unstamped := by
  have hsorted : ∀ T : Store, (JobQueue.eligible T moment).map JobRecord.unstamped =
      sortedOn JobQueue.claimKey
        ((T.jobs.values.map JobRecord.unstamped).filter fun job => JobQueue.claimable job moment) := by
    intro T
    rw [List.filter_map]
    exact map_sortedBy _ _ fun _ _ _ _ => rfl
  rw [hsorted, hsorted, Dict.values_congr h.jobs]

theorem couples_claim (workerId : Text) (lease : Int) (moment : Datetime) :
    Couples SameButStamps SameButStamps Eq (JobQueue.claim workerId.1 lease moment)
      (JobQueue.claim workerId.1 lease moment) := by
  intro S S' h
  have heligible := h.eligible moment
  rw [JobQueue.claim_exec, JobQueue.claim_exec]
  cases hjobs : JobQueue.eligible S moment with
  | nil =>
    rw [hjobs] at heligible
    rw [List.map_eq_nil_iff.mp heligible.symm]
    exact ⟨.ok rfl, h⟩
  | cons job rest =>
    rw [hjobs] at heligible
    obtain ⟨job', rest', hjobs', hsame, -⟩ := List.map_eq_cons_iff.mp heligible.symm
    have hjob : job' = { job with updatedAt := job'.updatedAt } := JobRecord.Same.eq hsame.symm
    rw [hjobs']
    dsimp only
    cases moment.add lease with
    | none => exact ⟨.error, h⟩
    | some leaseExpiry =>
      rw [hjob]
      exact ⟨.ok rfl, { h with jobs := Dict.set_congr h.jobs job.jobId.value rfl }⟩

theorem couples_append (records : List EvidenceRecord) :
    Couples SameButStamps SameButStamps (fun _ _ => True) (EvidenceRepository.append records)
      (EvidenceRepository.append records) := by
  intro S S' h
  obtain ⟨stored, hstored⟩ := EvidenceRepository.append_exec records S
  obtain ⟨stored', hstored'⟩ := EvidenceRepository.append_exec records S'
  rw [hstored, hstored']
  refine ⟨.ok trivial, { h with evidence := ?_ }⟩
  rw [h.evidence]

theorem couples_put (record : ReportRecord) :
    Couples SameButStamps SameButStamps Eq (ReportRepository.put record) (ReportRepository.put record) := by
  intro S S' h
  rw [ReportRepository.put_exec, ReportRepository.put_exec, h.reports]
  by_cases hput : (S'.reports.get? record.investigationId.value).isSome = true
  · rw [if_pos hput, if_pos hput]
    exact ⟨.error, h⟩
  · rw [if_neg hput, if_neg hput]
    exact ⟨.ok rfl, { h with reports := rfl }⟩

theorem couples_record (record : AttemptRecord) :
    Couples SameButStamps SameButStamps Eq (AttemptRepository.record record)
      (AttemptRepository.record record) := by
  intro S S' h
  have hduplicate : AttemptRepository.duplicate S record = AttemptRepository.duplicate S' record := by
    rw [AttemptRepository.duplicate, h.attempts, ← AttemptRepository.duplicate]
  rw [AttemptRepository.record_exec, AttemptRepository.record_exec, hduplicate, h.attempts]
  by_cases hdup : AttemptRepository.duplicate S' record = true
  · rw [if_pos hdup, if_pos hdup]
    exact ⟨.error, h⟩
  · rw [if_neg hdup, if_neg hdup]
    exact ⟨.ok rfl, { h with attempts := rfl }⟩

theorem couples_audit (record : AuditRecord) :
    Couples SameButStamps SameButStamps Eq (AuditLog.record record) (AuditLog.record record) := by
  intro S S' h
  rw [AuditLog.record_exec, AuditLog.record_exec, h.audit]
  exact ⟨.ok rfl, { h with audit := rfl }⟩

theorem couples_create (record : InvestigationRecord) :
    Couples SameButStamps SameButStamps InvestigationRecord.Same
      (InvestigationRepository.create record) (InvestigationRepository.create record) := by
  intro S S' h
  have hkey : ∀ T : Store, (InvestigationRepository.byKey T record.tenant record.idempotencyKey).map
      InvestigationRecord.unstamped = record.idempotencyKey.bind fun key =>
        (T.investigations.values.map InvestigationRecord.unstamped).find? fun r =>
          r.tenant = record.tenant ∧ r.idempotencyKey = some key := by
    intro T
    cases hk : record.idempotencyKey with
    | none => rfl
    | some key =>
      show _ = List.find? _ (List.map _ _)
      rw [List.find?_map]
      rfl
  have hfound : (InvestigationRepository.byKey S record.tenant record.idempotencyKey).map
      InvestigationRecord.unstamped =
      (InvestigationRepository.byKey S' record.tenant record.idempotencyKey).map
        InvestigationRecord.unstamped := by
    rw [hkey, hkey, Dict.values_congr h.investigations]
  have hstored := congrArg Option.isSome
    (Dict.get?_congr h.investigations record.investigationId.value)
  rw [Option.isSome_map, Option.isSome_map] at hstored
  rw [InvestigationRepository.create_exec, InvestigationRepository.create_exec, hstored]
  rcases option_map_cases hfound with ⟨hi, hi'⟩ | ⟨i, i', hi, hi', hsame⟩
  · rw [hi, hi']
    dsimp only
    by_cases hput : (S'.investigations.get? record.investigationId.value).isSome = true
    · rw [if_pos hput, if_pos hput]
      exact ⟨.error, h⟩
    · rw [if_neg hput, if_neg hput]
      exact ⟨.ok rfl, { h with
        investigations := Dict.set_congr h.investigations record.investigationId.value rfl }⟩
  · rw [hi, hi']
    exact ⟨.ok hsame, h⟩

theorem couples_enqueue (record : JobRecord) :
    Couples SameButStamps SameButStamps Eq (JobQueue.enqueue record) (JobQueue.enqueue record) := by
  intro S S' h
  have hstored := congrArg Option.isSome (Dict.get?_congr h.jobs record.jobId.value)
  rw [Option.isSome_map, Option.isSome_map] at hstored
  rw [JobQueue.enqueue_exec, JobQueue.enqueue_exec, hstored]
  by_cases hput : (S'.jobs.get? record.jobId.value).isSome = true
  · rw [if_pos hput, if_pos hput]
    exact ⟨.error, h⟩
  · rw [if_neg hput, if_neg hput]
    exact ⟨.ok rfl, { h with jobs := Dict.set_congr h.jobs record.jobId.value rfl }⟩

end repositories

/-! ### Sessions -/

/-- Tables that differ in their stamps at most. -/
structure SameTables {F : Type} (t t' : Tracked F) : Prop where
  store : SameButStamps t.store t'.store
  provenance : t.provenance = t'.provenance

/-- Calls that are at the same point, over tables that differ in their stamps at most. -/
structure SameSession {F : Type} (s s' : Session F) : Prop where
  shared : SameTables s.shared s'.shared
  working : SameTables s.working s'.working
  aborted : s.aborted = s'.aborted
  awaits : s.awaits = s'.awaits
  readings : s.readings = s'.readings
  drawn : s.drawn = s'.drawn
  requests : s.requests = s'.requests

theorem SameTables.start {F : Type} {t t' : Tracked F} (h : SameTables t t') :
    SameSession (Session.start t) (Session.start t') := ⟨h, h, rfl, rfl, rfl, rfl, rfl⟩

/-- What two calls meet is the same, but for the system clock. -/
structure Surroundings.Alike (env env' : Surroundings) : Prop where
  clock : env.clock = env'.clock
  cancelled : env.cancelled = env'.cancelled

section sessions
variable {F α β : Type} {Q : α → β → Prop} {env env' : Surroundings}

theorem couples_awaiting (h : env.Alike env') :
    Couples (SameSession (F := F)) SameSession Eq (awaiting env) (awaiting env') := by
  intro s s' hs
  unfold awaiting
  rw [exec_bind, exec_get, exec_bind, exec_get]
  dsimp only
  rw [exec_bind, exec_set, exec_bind, exec_set]
  dsimp only
  rw [hs.awaits, h.cancelled]
  have hnext : SameSession { s with awaits := s'.awaits + 1 } { s' with awaits := s'.awaits + 1 } :=
    { hs with awaits := rfl }
  by_cases hcancelled : env'.cancelled s'.awaits = true
  · rw [if_pos hcancelled]
    exact ⟨.error, hnext⟩
  · rw [if_neg hcancelled]
    exact ⟨.ok rfl, hnext⟩

theorem couples_readClock (h : env.Alike env') :
    Couples (SameSession (F := F)) SameSession Eq (readClock env) (readClock env') := by
  intro s s' hs
  have hreading : env.clock s.readings = env'.clock s'.readings := by
    rw [h.clock, hs.readings]
  exact ⟨.ok hreading, { hs with readings := congrArg (· + 1) hs.readings }⟩

theorem couples_systemNow :
    Couples (SameSession (F := F)) SameSession (fun _ _ => True) (systemNow env) (systemNow env') :=
  fun _ _ hs => ⟨.ok trivial, { hs with }⟩

theorem couples_drawId (id : UUID) :
    Couples (SameSession (F := F)) SameSession Eq (drawId id) (drawId id) :=
  fun _ _ hs => ⟨.ok rfl, { hs with drawn := congrArg (· ++ [id]) hs.drawn }⟩

theorem couples_onStore {x : Repository α} {y : Repository β}
    (h : Couples SameButStamps SameButStamps Q x y) :
    Couples (SameTables (F := F)) SameTables Q (onStore x) (onStore y) := by
  intro t t' ht
  obtain ⟨hresult, hstore⟩ := h t.store t'.store ht.store
  exact ⟨hresult, hstore, ht.provenance⟩

/-- A statement of the in-memory store. -/
theorem couples_statement (henv : env.Alike env') {x : Action PyException (Tracked F) α}
    {y : Action PyException (Tracked F) β} (h : Couples SameTables SameTables Q x y) :
    Couples SameSession SameSession Q (statement .memory env x) (statement .memory env' y) := by
  have hworking : Couples SameSession SameSession Q (onWorking x) (onWorking y) := by
    intro s s' hs
    obtain ⟨hresult, htables⟩ := h s.working s'.working hs.working
    exact ⟨hresult, { hs with working := htables }⟩
  have hread : Couples (SameSession (F := F)) SameSession (fun _ _ => True)
      (get : Action PyException (Session F) _) (get : Action PyException (Session F) _) :=
    fun _ _ hs => ⟨.ok trivial, hs⟩
  unfold statement
  exact hread.seq fun _ _ _ => (couples_awaiting henv).seq fun _ _ _ => hworking

theorem couples_commit (henv : env.Alike env') :
    Couples (SameSession (F := F)) SameSession Eq (commit .memory env) (commit .memory env') := by
  have hread : Couples (SameSession (F := F)) SameSession (fun _ _ => True)
      (get : Action PyException (Session F) _) (get : Action PyException (Session F) _) :=
    fun _ _ hs => ⟨.ok trivial, hs⟩
  unfold commit
  refine hread.seq fun _ _ _ => (couples_awaiting henv).seq fun _ _ _ => ?_
  exact .modify fun _ _ hs => { hs with shared := hs.working }

theorem couples_scope (henv : env.Alike env') {x : Action PyException (Session F) α}
    {y : Action PyException (Session F) β} (h : Couples SameSession SameSession Q x y) :
    Couples SameSession SameSession Q (scope env x) (scope env' y) := by
  have hreset : Couples (SameSession (F := F)) SameSession Eq
      (modify fun s => { s with working := s.shared, aborted := false })
      (modify fun s => { s with working := s.shared, aborted := false } :
        Action PyException (Session F) PUnit) :=
    .modify fun _ _ hs => { hs with working := hs.shared, aborted := rfl }
  unfold scope
  refine (couples_awaiting henv).seq fun _ _ _ => hreset.seq fun _ _ _ => ?_
  exact h.attempt.seq fun _ _ hresult => hreset.seq fun _ _ _ => .lift hresult

theorem couples_getInvestigation (henv : env.Alike env') (tenant : TenantId) (id : InvestigationId) :
    Couples (SameSession (F := F)) SameSession InvestigationRecord.Same
      (getInvestigation .memory env tenant id) (getInvestigation .memory env' tenant id) :=
  couples_statement henv (couples_onStore (couples_get tenant id))

theorem couples_setInvestigationStatus (henv : env.Alike env') (tenant : TenantId)
    (id : InvestigationId) (status : InvestigationStatus) :
    Couples (SameSession (F := F)) SameSession InvestigationRecord.Same
      (setInvestigationStatus .memory env tenant id status)
      (setInvestigationStatus .memory env' tenant id status) :=
  couples_systemNow.seq fun _ _ _ =>
    couples_statement henv (couples_onStore (couples_setStatus tenant id status _ _))

theorem couples_setStatusOfJob (henv : env.Alike env') (tenant : TenantId) (id : JobId)
    (status : JobStatus) :
    Couples (SameSession (F := F)) SameSession JobRecord.Same
      (setJobStatus .memory env tenant id status) (setJobStatus .memory env' tenant id status) :=
  couples_systemNow.seq fun _ _ _ =>
    couples_statement henv (couples_onStore (couples_setJobStatus tenant id status _ _))

theorem couples_recordAudit (henv : env.Alike env') (record : AuditRecord) :
    Couples (SameSession (F := F)) SameSession Eq (recordAudit .memory env record)
      (recordAudit .memory env' record) :=
  couples_statement henv (couples_onStore (couples_audit record))

/-- **A creation does not depend on the system clock.** -/
theorem couples_execute_stamps (henv : env.Alike env') (call : CreateCall) :
    Couples (SameSession (F := F)) SameSession Eq (CreateInvestigation.execute .memory env call)
      (CreateInvestigation.execute .memory env' call) := by
  unfold CreateInvestigation.execute
  refine (couples_drawId _).seq fun _ _ _ => couples_scope henv ?_
  refine (Couples.lift_same _).seq fun record _ h => ?_
  subst h
  refine (couples_statement henv (couples_onStore (couples_create record))).seq fun i i' h => ?_
  rw [h.eq]
  by_cases hnew : i.investigationId = call.investigationId
  · simp only [hnew, if_true]
    refine (couples_drawId _).seq fun _ _ _ => ?_
    refine (Couples.lift_same _).seq fun job _ h => ?_
    subst h
    refine (couples_statement henv (couples_onStore (couples_enqueue job))).seq fun _ _ _ => ?_
    refine (couples_recordAudit henv _).seq fun _ _ _ => ?_
    exact (couples_commit henv).seq fun _ _ _ => .pure rfl
  · simp only [hnew, if_false]
    exact (couples_commit henv).seq fun _ _ _ => .pure rfl

end sessions

/-! ### Calls of the worker -/

/-- Two calls of the worker meet the same, but for the system clock and for token counts
    that are counted alike. -/
structure Environment.Alike {F : Type} [PyFloat F] (env env' : Environment F) : Prop extends
    Surroundings.Alike env.toSurroundings env'.toSurroundings where
  load : env.load = env'.load
  attemptId : env.attemptId = env'.attemptId
  limits : env.limits = env'.limits
  proposal : ExceptRel (ExceptRel fun p p' =>
    p.rawJson = p'.rawJson ∧ countTokens F p = countTokens F p') env.proposal.reply env'.proposal.reply

section worker
variable {F : Type} [PyFloat F] [FloatHex F] [Sha256] {w : Worker F} {env env' : Environment F}

omit [FloatHex F] [Sha256] in
theorem couples_recordAttempt_stamps (h : env.Alike env') (claimed : ClaimedJob) (started : Datetime)
    (outcome : AttemptOutcome) (code : Option Str) :
    Couples SameSession SameSession Eq (w.recordAttempt .memory env claimed started outcome code)
      (w.recordAttempt .memory env' claimed started outcome code) := by
  unfold Worker.recordAttempt
  rw [h.attemptId]
  refine (couples_drawId _).seq fun attemptId _ heq => ?_
  subst heq
  refine (couples_readClock h.toAlike).seq fun finishedAt _ heq => ?_
  subst heq
  refine (couples_readClock h.toAlike).seq fun createdAt _ heq => ?_
  subst heq
  refine (Couples.lift_same _).seq fun errorCode _ heq => ?_
  subst heq
  exact (couples_statement h.toAlike (couples_onStore (couples_record _))).seq fun _ _ _ => .pure rfl

omit [FloatHex F] [Sha256] in
theorem couples_terminalFail_stamps (h : env.Alike env') (claimed : ClaimedJob) (started : Datetime)
    (code : Str) :
    Couples SameSession SameSession Eq (w.terminalFail .memory env claimed started code)
      (w.terminalFail .memory env' claimed started code) := by
  unfold Worker.terminalFail
  refine (couples_setInvestigationStatus h.toAlike _ _ _).seq fun _ _ _ => ?_
  refine (couples_setStatusOfJob h.toAlike _ _ _).seq fun _ _ _ => ?_
  refine (couples_recordAttempt_stamps h _ _ _ _).seq fun _ _ _ => ?_
  refine (couples_readClock h.toAlike).seq fun occurredAt _ heq => ?_
  subst heq
  refine (Couples.lift_same _).seq fun detail _ heq => ?_
  subst heq
  exact couples_recordAudit h.toAlike _

omit [FloatHex F] [Sha256] in
theorem couples_handle_stamps (h : env.Alike env') (claimed : ClaimedJob) (started : Datetime)
    (e : PyException) :
    Couples SameSession SameSession Eq (w.handle .memory env claimed started e)
      (w.handle .memory env' claimed started e) := by
  have hretry : ∀ code, Couples SameSession SameSession Eq
      (w.retryOrFail .memory env claimed started code)
      (w.retryOrFail .memory env' claimed started code) := by
    intro code
    refine .ite Iff.rfl (couples_terminalFail_stamps h _ _ _) ?_
    exact (couples_setStatusOfJob h.toAlike _ _ _).seq fun _ _ _ => couples_recordAttempt_stamps h _ _ _ _
  cases e with
  | terminalFailure code => exact couples_terminalFail_stamps h _ _ _
  | retryableFailure code => exact hretry code
  | _ => exact .ite Iff.rfl (couples_terminalFail_stamps h _ _ _) (.throw _)

omit [FloatHex F] [Sha256] in
theorem couples_persist_stamps (h : env.Alike env') (investigation : InvestigationRecord)
    (p : Prepared F) :
    Couples SameSession SameSession Eq (w.persist .memory env investigation p)
      (w.persist .memory env' investigation p) := by
  have hput : ∀ report, Couples SameSession SameSession Eq
      (Worker.putReport .memory env report p.toProvenance)
      (Worker.putReport .memory env' report p.toProvenance) := by
    intro report
    refine couples_statement h.toAlike ?_
    refine (couples_onStore (couples_put report)).seq fun _ _ _ => ?_
    exact .modify fun t t' ht => { ht with provenance := by rw [ht.provenance] }
  unfold Worker.persist
  refine (couples_readClock h.toAlike).seq fun now _ heq => ?_
  subst heq
  refine (Couples.lift_same _).seq fun rows _ heq => ?_
  subst heq
  refine (couples_statement h.toAlike (couples_onStore (couples_append rows))).seq fun _ _ _ => ?_
  refine (Couples.lift_same _).seq fun report _ heq => ?_
  subst heq
  refine (hput report).seq fun _ _ _ => ?_
  refine (couples_setInvestigationStatus h.toAlike _ _ _).seq fun _ _ _ => ?_
  exact couples_recordAudit h.toAlike _

theorem couples_pipeline_stamps (h : env.Alike env') {i i' : InvestigationRecord} (hi : i.Same i') :
    Couples SameSession SameSession Eq (w.runPipeline .memory env i) (w.runPipeline .memory env' i') := by
  have hload : awaited telemetryFailure env.load = awaited telemetryFailure env'.load := by
    rw [h.load]
  have hproposal : ExceptRel (ExceptRel fun p p' =>
      p.rawJson = p'.rawJson ∧ countTokens F p = countTokens F p')
      (awaited providerFailure env.proposal) (awaited providerFailure env'.proposal) := by
    have hreply := h.proposal
    unfold awaited
    generalize env.proposal.reply = r at hreply
    generalize env'.proposal.reply = r' at hreply
    cases hreply with
    | ok hr => exact .ok hr
    | error => exact .error
  -- the stages read nothing of the stamp
  rw [hi.eq]
  unfold Worker.runPipeline
  rw [hload]
  refine (couples_awaiting h.toAlike).seq fun _ _ _ => ?_
  refine (Couples.lift_same _).seq fun telemetry _ heq => ?_
  subst heq
  refine (Couples.lift_same _).seq fun ranked _ heq => ?_
  subst heq
  refine (couples_awaiting h.toAlike).seq fun _ _ _ => ?_
  have hrequest : Couples SameSession SameSession Eq
      (modify fun s => { s with requests := s.requests ++ [hypothesisRequest i ranked.2] })
      (modify fun s => { s with requests := s.requests ++ [hypothesisRequest i ranked.2] } :
        Action PyException (Session F) PUnit) :=
    .modify fun _ _ hs => { hs with requests := congrArg (· ++ _) hs.requests }
  refine hrequest.seq fun _ _ _ => ?_
  refine (Couples.lift hproposal).seq fun reply reply' hreply => ?_
  refine (Couples.lift hreply).seq fun p p' hp => ?_
  have hparse : parseStage env.limits p (allowedSignals ranked.2) =
      parseStage env'.limits p' (allowedSignals ranked.2) := by
    rw [parseStage, parseStage, hp.1, h.limits]
  rw [hp.2]
  refine (Couples.lift_same _).seq fun _ _ _ => ?_
  show Couples _ _ _ (lift (parseStage env.limits p (allowedSignals ranked.2)) >>= _)
    (lift (parseStage env'.limits p' (allowedSignals ranked.2)) >>= _)
  rw [hparse]
  refine (Couples.lift_same _).seq fun document _ heq => ?_
  subst heq
  refine (Couples.lift_same _).seq fun prepared _ heq => ?_
  subst heq
  exact couples_persist_stamps h _ _

theorem couples_process_stamps (h : env.Alike env') (claimed : ClaimedJob) (started : Datetime)
    {i i' : InvestigationRecord} (hi : i.Same i') :
    Couples SameSession SameSession Eq (w.process .memory env claimed started i)
      (w.process .memory env' claimed started i') := by
  unfold Worker.process
  refine (couples_pipeline_stamps h hi).attempt.seq fun _ _ hresult => ?_
  cases hresult with
  | error => exact couples_handle_stamps h _ _ _
  | ok _ =>
    exact (couples_setStatusOfJob h.toAlike _ _ _).seq fun _ _ _ =>
      couples_recordAttempt_stamps h _ _ _ _

theorem couples_runClaimed_stamps (h : env.Alike env') (claimed : ClaimedJob) :
    Couples SameSession SameSession Eq (w.runClaimed .memory env claimed)
      (w.runClaimed .memory env' claimed) := by
  unfold Worker.runClaimed
  refine (couples_readClock h.toAlike).seq fun started _ heq => ?_
  subst heq
  refine (couples_getInvestigation h.toAlike _ _).attempt.seq fun _ _ hfound => ?_
  cases hfound with
  | @error e =>
    by_cases hmissing : e = .persistence .recordNotFound
    · subst hmissing
      refine (couples_setStatusOfJob h.toAlike _ _ _).seq fun _ _ _ => ?_
      exact (couples_commit h.toAlike).seq fun _ _ _ => .pure rfl
    · -- any other exception leaves both calls
      cases e with
      | persistence p => cases p <;> first | exact absurd rfl hmissing | exact .throw _
      | _ => exact .throw _
  | @ok i i' hi =>
    have hstatus : i'.status = i.status := by rw [hi.eq]
    by_cases hcancelled : i.status = .cancelled
    · simp only [hstatus, hcancelled, if_true]
      refine (couples_setStatusOfJob h.toAlike _ _ _).seq fun _ _ _ => ?_
      exact (couples_commit h.toAlike).seq fun _ _ _ => .pure rfl
    · simp only [hstatus, hcancelled, if_false]
      refine (couples_setInvestigationStatus h.toAlike _ _ _).seq fun _ _ _ => ?_
      refine (couples_process_stamps h claimed started hi).seq fun _ _ _ => ?_
      exact (couples_commit h.toAlike).seq fun _ _ _ => .pure rfl

/-- **A call of `run_once` depends neither on the system clock nor on token counts** that
    are counted alike. -/
theorem couples_runOnce_stamps (h : env.Alike env') :
    Couples SameSession SameSession Eq (w.runOnce .memory env) (w.runOnce .memory env') := by
  unfold Worker.runOnce
  refine couples_scope h.toAlike ?_
  refine (couples_readClock h.toAlike).seq fun now _ heq => ?_
  subst heq
  refine (couples_statement h.toAlike (couples_onStore (couples_claim _ _ _))).seq fun claimed _ heq => ?_
  subst heq
  cases claimed with
  | none => exact (couples_commit h.toAlike).seq fun _ _ _ => .pure rfl
  | some claimed => exact couples_runClaimed_stamps h claimed

end worker

end IncidentEvidence
