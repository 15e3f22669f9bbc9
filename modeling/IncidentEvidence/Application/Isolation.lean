import IncidentEvidence.Application.EvidenceListing

/-! # Tenants are isolated

    The tables are keyed by ids, so a tenant's rows are apart from another one's
    only as far as every method filters and every write goes to a row of the same
    tenant. `SharesRows` compares the rows of one tenant in two stores:

    1. A call on behalf of another tenant keeps them (`sharesRows_of_effect`,
       `sharesRows_of_created`).
    2. The answers of the two reads depend on them alone (`status_answer`,
       `report_answer`).
-/

namespace IncidentEvidence

open Py Py.Action

/-! ### Rows of one tenant -/

section tables
variable {K V : Type} [DecidableEq K] {tenantOf : V → TenantId} {A : TenantId}

/-- Both tables have the same rows of a tenant under the same keys. -/
def SharesRows (tenantOf : V → TenantId) (A : TenantId) (t t' : Dict K V) : Prop :=
  ∀ k v, tenantOf v = A → (t.get? k = some v ↔ t'.get? k = some v)

theorem SharesRows.refl (t : Dict K V) : SharesRows tenantOf A t t := fun _ _ _ => Iff.rfl

/-- A row of another tenant is new, or it replaces a row of another tenant. -/
theorem sharesRows_set {t : Dict K V} {k : K} {v : V} (hv : tenantOf v ≠ A)
    (hold : ∀ u, t.get? k = some u → tenantOf u ≠ A) : SharesRows tenantOf A t (t.set k v) := by
  intro k' u hu
  by_cases hk : k' = k
  · rw [hk, Dict.get?_set_self]
    constructor
    · intro h
      exact absurd hu (hold u h)
    · intro h
      rw [Option.some.inj h] at hv
      exact absurd hu hv
  · rw [Dict.get?_set_ne _ _ hk]

/-- A tenant that finds a row in one table finds it in the other one. -/
theorem SharesRows.filter {t t' : Dict K V} (h : SharesRows tenantOf A t t') (k : K) :
    (t.get? k).filter (fun v => tenantOf v = A) = (t'.get? k).filter fun v => tenantOf v = A := by
  apply Option.ext
  intro v
  rw [Option.filter_eq_some_iff, Option.filter_eq_some_iff, decide_eq_true_iff]
  constructor
  · intro hv
    exact ⟨(h k v hv.2).mp hv.1, hv.2⟩
  · intro hv
    exact ⟨(h k v hv.2).mpr hv.1, hv.2⟩

end tables

/-- The six tables have the same rows of a tenant. -/
structure SameTenant (A : TenantId) (S S' : Store) : Prop where
  investigations : SharesRows InvestigationRecord.tenant A S.investigations S'.investigations
  jobs : SharesRows JobRecord.tenant A S.jobs S'.jobs
  attempts : SharesRows AttemptRecord.tenant A S.attempts S'.attempts
  evidence : SharesRows EvidenceRecord.tenant A S.evidence S'.evidence
  reports : SharesRows ReportRecord.tenant A S.reports S'.reports
  audit : S.audit.filter (fun r => r.tenant = A) = S'.audit.filter fun r => r.tenant = A

theorem SameTenant.refl (A : TenantId) (S : Store) : SameTenant A S S :=
  ⟨.refl _, .refl _, .refl _, .refl _, .refl _, rfl⟩

/-! ### Writes -/

section writes
variable {A : TenantId} {S : Store}

/-- An audit record of another tenant. -/
theorem filter_audit_append {log : List AuditRecord} {event : AuditRecord} (h : event.tenant ≠ A) :
    log.filter (fun r => r.tenant = A) = (log ++ [event]).filter fun r => r.tenant = A := by
  rw [List.filter_append, List.filter_singleton, decide_eq_false h]
  show _ = List.filter _ log ++ []
  rw [List.append_nil]

/-- Evidence rows of another tenant: they are stored under keys of their own. -/
theorem sharesRows_appended {table : Dict EvidenceKey EvidenceRecord} {rows : List EvidenceRecord}
    (h : ∀ row ∈ rows, row.tenant ≠ A) :
    SharesRows EvidenceRecord.tenant A table (EvidenceRepository.appended table rows) := by
  intro k row hrow
  rw [EvidenceRepository.get?_appended]
  cases hold : table.get? k with
  | some old => exact Iff.rfl
  | none =>
    show none = some row ↔ rows.find? _ = some row
    constructor
    · intro hnone
      cases hnone
    · intro hfind
      exact absurd hrow (h row (List.mem_of_find?_eq_some hfind))

/-- The row of a tenant's investigation is replaced. -/
theorem sharesRows_investigation {B : TenantId} (hne : B ≠ A) {id : InvestigationId}
    {old new : InvestigationRecord} (hfind : InvestigationRepository.find? S B id = some old)
    (hnew : new.tenant = B) :
    SharesRows InvestigationRecord.tenant A S.investigations (S.investigations.set id.value new) := by
  obtain ⟨hget, htenant⟩ := InvestigationRepository.find?_eq_some.mp hfind
  apply sharesRows_set
  · rw [hnew]
    exact hne
  · intro u hu
    obtain rfl := Option.some.inj (hget.symm.trans hu)
    rw [htenant]
    exact hne

/-- The row of a job is replaced. -/
theorem sharesRows_job (hkeyed : S.jobs.Keyed fun r => r.jobId.value) {job new : JobRecord}
    (hmem : job ∈ S.jobs.values) (hne : job.tenant ≠ A) (hnew : new.tenant = job.tenant) :
    SharesRows JobRecord.tenant A S.jobs (S.jobs.set job.jobId.value new) := by
  apply sharesRows_set
  · rw [hnew]
    exact hne
  · intro u hu
    have hget := hkeyed.get?_of_mem hmem
    obtain rfl := Option.some.inj (hget.symm.trans hu)
    exact hne

/-- A row under a key that was free. -/
theorem sharesRows_new {K V : Type} [DecidableEq K] {tenantOf : V → TenantId} {t : Dict K V} {k : K}
    {v : V} (hv : tenantOf v ≠ A) (hfree : t.get? k = none) :
    SharesRows tenantOf A t (t.set k v) := by
  apply sharesRows_set hv
  intro u hu
  rw [hfree] at hu
  cases hu

end writes

section calls
variable {F : Type} {S T : Tracked F} {A : TenantId} {ids : List UUID}

/-- **A creation keeps the rows of the other tenants.** -/
theorem sharesRows_of_created {call : CreateCall} {id : InvestigationId}
    (h : CreateInvestigation.Effect call S id T ids) (hne : call.command.tenant ≠ A) :
    SameTenant A S.store T.store := by
  cases h with
  | replayed record existing hrecord hkey => exact .refl A S.store
  | created record job hrecord hjob hkey hnew hnewJob =>
    obtain ⟨⟨hrecordTenant, -⟩, -⟩ := CreateCall.matches_of_ok hrecord
    obtain ⟨-, hjobEq⟩ := CreateInvestigation.jobRecord_eq_ok.mp hjob
    have hjobTenant : job.tenant = call.command.tenant := by rw [hjobEq]
    exact {
      investigations := sharesRows_new (by rw [hrecordTenant]; exact hne) hnew
      jobs := sharesRows_new (by rw [hjobTenant]; exact hne) hnewJob
      attempts := .refl _
      evidence := .refl _
      reports := .refl _
      audit := filter_audit_append hne }

variable [PyFloat F] [FloatHex F] [Sha256] {w : Worker F} {env : Environment F}

omit [Sha256] in
/-- The rows of a ledger are of the tenant of its investigation. -/
theorem tenant_of_rows {i : InvestigationRecord} {now : Datetime}
    {entries : List (MetricShiftEvidence F)} {rows : List EvidenceRecord}
    (h : List.Forall₂ (RowOf i now) entries rows) {row : EvidenceRecord} (hrow : row ∈ rows) :
    row.tenant = i.tenant := by
  obtain ⟨n, hn, rfl⟩ := List.getElem_of_mem hrow
  have hn' : n < entries.length := h.length_eq ▸ hn
  have hrowOf := h.get hn' hn
  show (rows.get ⟨n, hn⟩).tenant = i.tenant
  rw [hrowOf.2]

/-- What a pipeline that ends has appended. -/
theorem sharesRows_of_ends {B : TenantId} (hne : B ≠ A) {base store : Store}
    {i : InvestigationRecord} (hi : i.tenant = B) {e : PyException} {n : ℕ}
    (h : w.Ends env base i e n store) :
    SharesRows EvidenceRecord.tenant A base.evidence store.evidence := by
  cases h with
  | early _ hprepare => exact .refl _
  | conflict p rows hmade hrows hreport =>
    apply sharesRows_appended
    intro row hrow
    rw [tenant_of_rows hrows hrow, hi]
    exact hne

/-- **A call of the worker keeps the rows of every tenant but that of the job it claims.** -/
theorem sharesRows_of_effect {a : Bool} (h : w.Effect env S a T ids)
    (hfiled : S.store.Filed) (hfresh : S.store.attempts.get? env.attemptId = none)
    (hother : ∀ c : Claim w env S.store, c.job.tenant ≠ A) : SameTenant A S.store T.store := by
  have hmem : ∀ c : Claim w env S.store, c.job ∈ S.store.jobs.values := by
    intro c
    have hfirst : c.job ∈ JobQueue.eligible S.store (env.clock 0) := by
      rw [c.first]
      exact List.mem_cons_self
    unfold JobQueue.eligible at hfirst
    rw [mem_sortedOn] at hfirst
    exact (List.mem_filter.mp hfirst).1
  have hjobs : ∀ (c : Claim w env S.store) (new : JobRecord), new.tenant = c.job.tenant →
      SharesRows JobRecord.tenant A S.store.jobs (S.store.jobs.set c.job.jobId.value new) :=
    fun c _ hnew => sharesRows_job hfiled.jobs (hmem c) (hother c) hnew
  -- every row that is written is of the tenant of the job
  cases h with
  | idle hnone => exact .refl A S.store
  | orphaned c t hnone => exact { SameTenant.refl A S.store with jobs := hjobs c _ rfl }
  | cancelled c i t hfind hstatus => exact { SameTenant.refl A S.store with jobs := hjobs c _ rfl }
  | succeeded c i p rows report t t' hfind hstatus hmade hrows hreport hnone hdup =>
    have hne := hother c
    obtain ⟨hget, htenant⟩ := InvestigationRepository.find?_eq_some.mp hfind
    have hkey : c.job.investigationId.value = i.investigationId.value :=
      hfiled.investigations _ _ hget
    have hfind' : InvestigationRepository.find? S.store c.job.tenant i.investigationId = some i := by
      rw [hkey] at hget
      exact InvestigationRepository.find?_eq_some.mpr ⟨hget, htenant⟩
    have hi : i.tenant ≠ A := by
      rw [htenant]
      exact hne
    have hreportTenant : report.tenant ≠ A := by
      rw [hreport.2.1]
      exact hi
    have hrowsTenant : ∀ row ∈ rows, row.tenant ≠ A := by
      intro row hrow
      rw [tenant_of_rows hrows hrow]
      exact hi
    exact {
      investigations := sharesRows_investigation hne hfind' htenant
      jobs := hjobs c _ rfl
      attempts := sharesRows_new hne hfresh
      evidence := sharesRows_appended hrowsTenant
      reports := sharesRows_new hreportTenant hnone
      audit := filter_audit_append hi }
  | failed c i e n store code t t' hfind hstatus hends hexception hterminal hcode hdup =>
    have hne := hother c
    obtain ⟨-, htenant⟩ := InvestigationRepository.find?_eq_some.mp hfind
    have hevidence := sharesRows_of_ends hne htenant hends
    obtain ⟨hinvestigations, hjobsSame, hattempts, hreports, haudit⟩ := hends.same
    constructor
    · show SharesRows _ _ _ (store.investigations.set _ _)
      rw [hinvestigations]
      exact sharesRows_investigation hne hfind htenant
    · show SharesRows _ _ _ (store.jobs.set _ _)
      rw [hjobsSame]
      exact hjobs c _ rfl
    · show SharesRows _ _ _ (store.attempts.set _ _)
      rw [hattempts]
      exact sharesRows_new hne hfresh
    · exact hevidence
    · show SharesRows _ _ _ store.reports
      rw [hreports]
      exact .refl _
    · show _ = List.filter _ (store.audit ++ _)
      rw [haudit]
      exact filter_audit_append hne
  | retried c i code t t' hfind hstatus hprepare hleft hdup =>
    have hne := hother c
    obtain ⟨-, htenant⟩ := InvestigationRepository.find?_eq_some.mp hfind
    exact {
      investigations := sharesRows_investigation hne hfind htenant
      jobs := hjobs c _ rfl
      attempts := sharesRows_new hne hfresh
      evidence := .refl _
      reports := .refl _
      audit := rfl }

end calls

/-! ### Reads -/

section reads
variable {F : Type} (env : Surroundings) (S : Tracked F) (tenant : TenantId) (id : InvestigationId)

/-- What `GetInvestigationStatus.execute` answers. -/
theorem status_answer :
    ((GetInvestigationStatus.execute .memory env tenant id).exec (Session.start S)).1 =
      if env.cancelled 0 ∨ env.cancelled 1 then .error .cancelled
      else orRaise (InvestigationRepository.find? S.store tenant id)
        (.application .investigationNotFound) := by
  unfold GetInvestigationStatus.execute scope getInvestigation statement awaiting onWorking onStore
  by_cases h₀ : env.cancelled 0 = true
  · simp [Session.start, h₀]
  · by_cases h₁ : env.cancelled 1 = true
    · simp [Session.start, h₀, h₁]
    · cases hfind : InvestigationRepository.find? S.store tenant id with
      | none => simp [Session.start, h₀, h₁, InvestigationRepository.get_exec, hfind, orRaise, recordNotFound]
      | some record => simp [Session.start, h₀, h₁, InvestigationRepository.get_exec, hfind, orRaise]

/-- What `GetReport.execute` answers. -/
theorem report_answer :
    ((GetReport.execute .memory env tenant id).exec (Session.start S)).1 =
      if env.cancelled 0 ∨ env.cancelled 1 then .error .cancelled
      else if (InvestigationRepository.find? S.store tenant id).isNone then
        .error (.application .investigationNotFound)
      else if env.cancelled 2 then .error .cancelled
      else orRaise (ReportRepository.find? S.store tenant id) (.application .reportNotReady) := by
  unfold GetReport.execute scope getInvestigation statement awaiting onWorking onStore
  by_cases h₀ : env.cancelled 0 = true
  · simp [Session.start, h₀]
  · by_cases h₁ : env.cancelled 1 = true
    · simp [Session.start, h₀, h₁]
    · cases hfind : InvestigationRepository.find? S.store tenant id with
      | none => simp [Session.start, h₀, h₁, InvestigationRepository.get_exec, hfind, orRaise, recordNotFound]
      | some record =>
        by_cases h₂ : env.cancelled 2 = true
        · simp [Session.start, h₀, h₁, h₂, InvestigationRepository.get_exec, hfind, orRaise]
        · cases hreport : ReportRepository.find? S.store tenant id with
          | none =>
            simp [Session.start, h₀, h₁, h₂, InvestigationRepository.get_exec, hfind, orRaise,
              ReportRepository.get_exec, hreport, recordNotFound]
          | some report =>
            simp [Session.start, h₀, h₁, h₂, InvestigationRepository.get_exec, hfind, orRaise,
              ReportRepository.get_exec, hreport]

end reads

/-! ### Isolation -/

section isolation
variable {F : Type} {S S' : Tracked F} {A B : TenantId}

/-- Both reads answer by the rows of the tenant. -/
theorem same_answers {id id' : InvestigationId}
    (hinvestigation : InvestigationRepository.find? S.store B id =
      InvestigationRepository.find? S'.store B id')
    (hreport : (InvestigationRepository.find? S.store B id).isSome →
      ReportRepository.find? S.store B id = ReportRepository.find? S'.store B id')
    (env : Surroundings) :
    ((GetInvestigationStatus.execute .memory env B id).exec (Session.start S)).1 =
        ((GetInvestigationStatus.execute .memory env B id').exec (Session.start S')).1 ∧
      ((GetReport.execute .memory env B id).exec (Session.start S)).1 =
        ((GetReport.execute .memory env B id').exec (Session.start S')).1 := by
  rw [status_answer, status_answer, report_answer, report_answer, ← hinvestigation]
  refine ⟨rfl, ?_⟩
  cases hfind : InvestigationRepository.find? S.store B id with
  | none => rfl
  | some i =>
    rw [hfind] at hreport
    rw [hreport rfl]

/-- Rows that agree give the same answers. -/
theorem SameTenant.answers (h : SameTenant B S.store S'.store) (env : Surroundings)
    (id : InvestigationId) :
    ((GetInvestigationStatus.execute .memory env B id).exec (Session.start S)).1 =
        ((GetInvestigationStatus.execute .memory env B id).exec (Session.start S')).1 ∧
      ((GetReport.execute .memory env B id).exec (Session.start S)).1 =
        ((GetReport.execute .memory env B id).exec (Session.start S')).1 :=
  same_answers (h.investigations.filter id.value) (fun _ => h.reports.filter id.value) env

/-- An id that another tenant has is like one that nobody has. -/
theorem foreign_id {i : InvestigationRecord} {id id' : InvestigationId} (hne : i.tenant ≠ B)
    (hid : S.store.investigations.get? id.value = some i)
    (hid' : S.store.investigations.get? id'.value = none) (env : Surroundings) :
    ((GetInvestigationStatus.execute .memory env B id).exec (Session.start S)).1 =
        ((GetInvestigationStatus.execute .memory env B id').exec (Session.start S)).1 ∧
      ((GetReport.execute .memory env B id).exec (Session.start S)).1 =
        ((GetReport.execute .memory env B id').exec (Session.start S)).1 := by
  have hnone : InvestigationRepository.find? S.store B id = none := by
    unfold InvestigationRepository.find?
    rw [hid, Option.filter_some, if_neg]
    simpa using hne
  have hnone' : InvestigationRepository.find? S.store B id' = none := by
    unfold InvestigationRepository.find?
    rw [hid']
    rfl
  apply same_answers
  · rw [hnone, hnone']
  · rw [hnone]
    intro h
    cases h

variable [PyFloat F] [FloatHex F] [Sha256] [LawfulPyFloat F]

/-- **Tenants are isolated.** What is done on behalf of one tenant keeps the rows of every other
    one in all six tables, and what it reads depends on its own rows alone. -/
theorem tenants_isolated (hmade : S.store.Made) (hne : A ≠ B) :
    (∀ (call : CreateCall) (env : Surroundings), call.command.tenant = B →
      S.store.investigations.get? call.investigationId.value = none →
      S.store.jobs.get? call.jobId.value = none →
      SameTenant A S.store
        ((CreateInvestigation.execute .memory env call).exec (Session.start S)).2.shared.store) ∧
    (∀ (w : Worker F) (env : Environment F) (job : JobRecord) (rest : List JobRecord),
      JobQueue.eligible S.store (env.clock 0) = job :: rest → job.tenant = B →
      S.store.attempts.get? env.attemptId = none →
      SameTenant A S.store ((w.runOnce .memory env).exec (Session.start S)).2.shared.store) ∧
    (∀ (S' : Tracked F) (env : Surroundings) (id : InvestigationId),
      SameTenant B S.store S'.store →
      ((GetInvestigationStatus.execute .memory env B id).exec (Session.start S)).1 =
          ((GetInvestigationStatus.execute .memory env B id).exec (Session.start S')).1 ∧
        ((GetReport.execute .memory env B id).exec (Session.start S)).1 =
          ((GetReport.execute .memory env B id).exec (Session.start S')).1) ∧
    ∀ (env : Surroundings) (id id' : InvestigationId) (i : InvestigationRecord), i.tenant = A →
      S.store.investigations.get? id.value = some i →
      S.store.investigations.get? id'.value = none →
      ((GetInvestigationStatus.execute .memory env B id).exec (Session.start S)).1 =
          ((GetInvestigationStatus.execute .memory env B id').exec (Session.start S)).1 ∧
        ((GetReport.execute .memory env B id).exec (Session.start S)).1 =
          ((GetReport.execute .memory env B id').exec (Session.start S)).1 := by
  have hfiled := hmade.filed
  refine ⟨?_, ?_, ?_, ?_⟩
  · intro call env hcall hnew _
    have hother : call.command.tenant ≠ A := by
      rw [hcall]
      exact hne.symm
    have heffect : Wp (CreateInvestigation.execute .memory env call) (Session.start S) _ _ :=
      execute_effect hfiled.investigations hnew
    refine heffect.final (P := fun s' => SameTenant A S.store s'.shared.store)
      (fun _ _ h => sharesRows_of_created h hother) ?_
    -- a call that raises commits nothing
    intro _ s' h
    rw [h]
    exact .refl A S.store
  · intro w env job rest hfirst hjob hfresh
    have hother : ∀ c : Claim w env S.store, c.job.tenant ≠ A := by
      intro c
      have hhead := c.first
      rw [hfirst] at hhead
      obtain ⟨rfl, -⟩ := List.cons_eq_cons.mp hhead
      rw [hjob]
      exact hne.symm
    have heffect : Wp (w.runOnce .memory env) (Session.start S) _ _ :=
      runOnce_effect hfiled.investigations
    refine heffect.final (P := fun s' => SameTenant A S.store s'.shared.store)
      (fun _ _ h => sharesRows_of_effect h hfiled hfresh hother) ?_
    intro _ s' h
    rw [h]
    exact .refl A S.store
  · intro S' env id h
    exact h.answers env id
  · intro env id id' i hi hid hid'
    apply foreign_id _ hid hid'
    rw [hi]
    exact hne

end isolation

namespace Demo

/-- A store with one investigation that waits. -/
def pendingStore : Store :=
  Operation.runAll [.investigationsCreate pending, .jobsEnqueue firstJob] Store.empty

/-- A call of another tenant. -/
def strangerCall : CreateCall :=
  { createCall true with
    command := { (createCall true).command with tenant := ⟨str "stranger"⟩ }
    investigationId := ⟨⟨7, UUID.seven_lt⟩⟩
    jobId := ⟨⟨8, by decide⟩⟩ }

end Demo

open Demo in
/-- The stranger creates an investigation of its own and asks for the one that waits, and the
    worker runs the one that waits. -/
theorem tenants_isolated_demo :
    SameTenant ⟨str "tenant"⟩ pendingStore
      ((CreateInvestigation.execute (F := ExactFloat) .memory calm strangerCall).exec
        (Session.start ⟨pendingStore, .empty⟩)).2.shared.store ∧
    SameTenant ⟨str "stranger"⟩ pendingStore
      ((worker.runOnce .memory healthy).exec (Session.start ⟨pendingStore, .empty⟩)).2.shared.store ∧
    ((GetReport.execute (F := ExactFloat) .memory calm ⟨str "stranger"⟩ ⟨⟨1, by decide⟩⟩).exec
        (Session.start ⟨pendingStore, .empty⟩)).1 =
      ((GetReport.execute (F := ExactFloat) .memory calm ⟨str "stranger"⟩ ⟨⟨9, by decide⟩⟩).exec
        (Session.start ⟨pendingStore, .empty⟩)).1 := by
  have hmade : (⟨pendingStore, .empty⟩ : Tracked ExactFloat).store.Made := ⟨_, rfl⟩
  have hne : (⟨str "tenant"⟩ : TenantId) ≠ ⟨str "stranger"⟩ := by decide
  obtain ⟨hcreate, -, -, hread⟩ := tenants_isolated hmade hne
  obtain ⟨-, hrun, -⟩ := tenants_isolated hmade hne.symm
  refine ⟨?_, ?_, ?_⟩
  · exact hcreate strangerCall calm rfl (by decide +kernel) (by decide +kernel)
  · exact hrun worker healthy firstJob [] (by decide +kernel) rfl (by decide +kernel)
  · exact (hread calm _ _ pending rfl (by decide +kernel) (by decide +kernel)).2

end IncidentEvidence
