import IncidentEvidence.Application.Attempts

/-! # The queue drains

    A call of `run_once` that is not cancelled and whose ports raise exceptions it
    can record returns (`runOnce_total`). It returns false when nothing can be
    claimed, and otherwise the job it claims has ended or has one attempt less
    left. Calls of one worker therefore come to an end (`queue_drains`).
-/

namespace IncidentEvidence

open Py Py.Action Runs

/-! ### Ports that raise exceptions -/

/-- An `Exception`. A port that raises one of the worker's own gives it a code. -/
def PyException.Ordinary (e : PyException) : Prop :=
  e.isException = true ∧ isBlank e.failureCode = false

section ordinary
variable {F : Type} [PyFloat F]

/-- No await is cancelled, and the ports and what they return raise exceptions at most. -/
structure Environment.Ordinary (env : Environment F) : Prop where
  granted : ∀ n, env.cancelled n = false
  load : ∀ e, env.load = .raises e → e.Ordinary
  proposal : ∀ e, env.proposal = .raises e → e.Ordinary
  value : ∀ e, env.IllTyped e → e.Ordinary

/-- An exception that is not the worker's own. -/
theorem ordinary_of_public {e : PyException} (hprivate : e.isPrivate = false)
    (hexception : e.isException = true) : e.Ordinary := by
  have hcode : isBlank (str "internal_error") = false := by decide
  refine ⟨hexception, ?_⟩
  cases e <;> first | exact hcode | cases hprivate

/-- So are those that leave the pipeline. -/
theorem Environment.Origin.ordinary {env : Environment F} {e : PyException} (henv : env.Ordinary)
    (h : env.Origin e) : e.Ordinary := by
  cases h with
  | load e₀ h =>
    have hload := henv.load e₀ h
    unfold telemetryFailure
    split
    · exact ⟨rfl, by decide⟩
    · exact hload
  | provider e₀ h =>
    have hproposal := henv.proposal e₀ h
    unfold providerFailure
    split
    · exact ⟨rfl, by decide⟩
    · exact ⟨rfl, by decide⟩
    · exact ⟨rfl, by decide⟩
    · exact ⟨rfl, by decide⟩
    · exact hproposal
  | value _ h => exact henv.value e h
  | domain d => exact ⟨rfl, by cases d <;> rfl⟩
  | validation l hl => exact ⟨rfl, by cases l <;> rfl⟩
  | untyped _ hprivate hexception => exact ordinary_of_public hprivate hexception

end ordinary

/-! ### What a call raises -/

section raised
variable {F α : Type} {env : Surroundings}

/-- What `except Exception` catches. -/
abbrev Caught (e : PyException) : Prop := e.isException = true

theorem onlyRaises_awaiting {p : PyException → Prop} (hgranted : ∀ n, env.cancelled n = false) :
    OnlyRaises p (awaiting (F := F) env) := by
  intro s
  unfold awaiting
  simp only [wp_bind, wp_get, wp_set, wp_ite, wp_throw, wp_pure]
  refine ⟨fun h => ?_, fun _ => trivial⟩
  rw [hgranted] at h
  cases h

/-- A statement raises what its method raises. -/
theorem onlyRaises_statement {p : PyException → Prop} (hgranted : ∀ n, env.cancelled n = false)
    {x : Action PyException (Tracked F) α} (hx : OnlyRaises p x) :
    OnlyRaises p (statement .memory env x) := by
  unfold statement
  refine OnlyRaises.get.bind fun s => ?_
  refine (onlyRaises_awaiting hgranted).bind fun _ => ?_
  exact hx.zoom _ _

theorem onlyRaises_onStore {p : PyException → Prop} {x : Repository α} (hx : OnlyRaises p x) :
    OnlyRaises p (onStore (F := F) x) := hx.zoom _ _

theorem onlyRaises_readClock {p : PyException → Prop} : OnlyRaises p (readClock (F := F) env) :=
  fun _ => trivial

theorem onlyRaises_commit {p : PyException → Prop} (hgranted : ∀ n, env.cancelled n = false) :
    OnlyRaises p (commit (F := F) .memory env) := by
  unfold commit
  refine OnlyRaises.get.bind fun s => ?_
  exact (onlyRaises_awaiting hgranted).bind fun _ => .modify _

theorem onlyRaises_scope {p : PyException → Prop} (hgranted : ∀ n, env.cancelled n = false)
    {body : Action PyException (Session F) α} (hbody : OnlyRaises p body) :
    OnlyRaises p (scope env body) := by
  unfold scope
  refine (onlyRaises_awaiting hgranted).bind fun _ => ?_
  refine OnlyRaises.bind (.modify _) fun _ => ?_
  refine hbody.attemptBind (fun a => ?_) fun e he => ?_
  · exact OnlyRaises.bind (.modify _) fun _ => .lift (by simp)
  · refine OnlyRaises.bind (.modify _) fun _ => .lift fun e' he' => ?_
    obtain rfl := Except.error.inj he'
    exact he

/-- A check of a text raises an exception. -/
theorem caught_checkText {value : Str} {e : PyException} (h : checkText value = .error e) :
    Caught e := by
  rw [(checkText_eq_error.mp h).2]
  rfl

theorem caught_checkOptionalText {value : Option Str} {e : PyException}
    (h : CreateInvestigation.checkOptionalText value = .error e) : Caught e := by
  cases value with
  | none => simp [CreateInvestigation.checkOptionalText] at h
  | some value =>
    cases hcheck : checkText value with
    | ok t => simp [CreateInvestigation.checkOptionalText, hcheck] at h
    | error e' =>
      obtain rfl : e' = e := by simpa [CreateInvestigation.checkOptionalText, hcheck] using h
      exact caught_checkText hcheck

theorem onlyRaises_getInvestigation (tenant : TenantId) (id : InvestigationId) :
    OnlyRaises Caught (InvestigationRepository.get tenant id) := by
  intro s
  unfold Wp
  rw [InvestigationRepository.get_exec]
  cases InvestigationRepository.find? s tenant id with
  | none => exact rfl
  | some record => trivial

theorem onlyRaises_setInvestigationStatus (hgranted : ∀ n, env.cancelled n = false)
    (tenant : TenantId) (id : InvestigationId) (status : InvestigationStatus) :
    OnlyRaises Caught (setInvestigationStatus (F := F) .memory env tenant id status) := by
  unfold setInvestigationStatus
  refine OnlyRaises.bind (fun _ => trivial) fun now => ?_
  refine onlyRaises_statement hgranted (onlyRaises_onStore fun s => ?_)
  unfold Wp
  rw [InvestigationRepository.setStatus_exec]
  cases InvestigationRepository.find? s tenant id with
  | none => exact rfl
  | some record => trivial

theorem onlyRaises_setJobStatus (hgranted : ∀ n, env.cancelled n = false)
    (tenant : TenantId) (id : JobId) (status : JobStatus) :
    OnlyRaises Caught (setJobStatus (F := F) .memory env tenant id status) := by
  unfold setJobStatus
  refine OnlyRaises.bind (fun _ => trivial) fun now => ?_
  refine onlyRaises_statement hgranted (onlyRaises_onStore fun s => ?_)
  unfold Wp
  rw [JobQueue.setStatus_exec]
  cases JobQueue.find? s tenant id with
  | none => exact rfl
  | some record => trivial

theorem onlyRaises_recordAudit {p : PyException → Prop} (hgranted : ∀ n, env.cancelled n = false)
    (record : AuditRecord) : OnlyRaises p (recordAudit (F := F) .memory env record) :=
  onlyRaises_statement hgranted (onlyRaises_onStore fun _ => trivial)

theorem onlyRaises_record (record : AttemptRecord) :
    OnlyRaises Caught (AttemptRepository.record record) := by
  intro s
  unfold Wp
  rw [AttemptRepository.record_exec]
  by_cases hdup : AttemptRepository.duplicate s record = true
  · rw [if_pos hdup]
    exact rfl
  · rw [if_neg hdup]
    trivial

end raised

section worker
variable {F : Type} [PyFloat F] [FloatHex F] [Sha256] {w : Worker F} {env : Environment F}
  {investigation : InvestigationRecord}

omit [PyFloat F] [FloatHex F] [Sha256] in
theorem onlyRaises_evidenceAppend {p : PyException → Prop} (rows : List EvidenceRecord) :
    OnlyRaises p (EvidenceRepository.append rows) := by
  intro s
  obtain ⟨stored, hexec⟩ := EvidenceRepository.append_exec rows s
  unfold Wp
  rw [hexec]
  trivial

omit [FloatHex F] [Sha256] in
theorem onlyRaises_persist (hgranted : ∀ n, env.cancelled n = false) (p : Prepared F) :
    OnlyRaises Caught (w.persist .memory env investigation p) := by
  unfold Worker.persist
  refine onlyRaises_readClock.bind fun now => ?_
  refine (OnlyRaises.lift fun e he => ?_).bind fun rows => ?_
  · obtain ⟨_, entry, _, _, _, hentry⟩ := mapM_eq_error.mp he
    unfold evidenceRecord at hentry
    rw [bind_eq_error] at hentry
    rcases hentry with hcheck | ⟨_, _, hpure⟩
    · exact caught_checkText hcheck
    · cases hpure
  refine (onlyRaises_statement hgranted (onlyRaises_onStore (onlyRaises_evidenceAppend rows))).bind
    fun _ => ?_
  refine (OnlyRaises.lift fun e he => ?_).bind fun report => ?_
  · unfold reportRecord at he
    simp only [bind_eq_error] at he
    rcases he with hcheck | ⟨_, _, hcheck | ⟨_, _, hpure⟩⟩
    · exact caught_checkText hcheck
    · exact caught_checkText hcheck
    · cases hpure
  refine OnlyRaises.bind ?_ fun _ => ?_
  · unfold Worker.putReport
    refine onlyRaises_statement hgranted fun t => ?_
    unfold Wp
    rw [putReport_exec]
    by_cases hsome : (t.store.reports.get? report.investigationId.value).isSome = true
    · rw [if_pos hsome]
      exact rfl
    · rw [if_neg hsome]
      trivial
  refine (onlyRaises_setInvestigationStatus hgranted _ _ _).bind fun _ => ?_
  exact onlyRaises_recordAudit hgranted _

theorem onlyRaises_runPipeline (henv : env.Ordinary) :
    OnlyRaises Caught (w.runPipeline .memory env investigation) := by
  have hcaught : ∀ {e}, env.Origin e → Caught e := fun h => (h.ordinary henv).1
  unfold Worker.runPipeline
  refine (onlyRaises_awaiting henv.granted).bind fun _ => ?_
  refine OnlyRaises.liftBind (fun e he => hcaught (origin_load he)) fun telemetry hload => ?_
  rw [awaited_eq_ok] at hload
  refine OnlyRaises.liftBind (fun e he => hcaught (origin_baselineStage hload he)) fun stage _ => ?_
  obtain ⟨baseline, ledger⟩ := stage
  refine (onlyRaises_awaiting henv.granted).bind fun _ => ?_
  refine OnlyRaises.bind (.modify _) fun _ => ?_
  refine OnlyRaises.liftBind (fun e he => hcaught (origin_proposal he)) fun reply hreply => ?_
  rw [awaited_eq_ok] at hreply
  refine OnlyRaises.liftBind (fun e he => ?_) fun proposal hproposal => ?_
  · rw [he] at hreply
    exact hcaught (origin_reply hreply)
  rw [hproposal] at hreply
  refine OnlyRaises.liftBind (fun e he => hcaught (origin_countTokens he)) fun _ _ => ?_
  refine OnlyRaises.liftBind (fun e he => hcaught (origin_parseStage hreply he)) fun document _ => ?_
  refine OnlyRaises.liftBind (fun e he => hcaught (origin_verifyStage he)) fun prepared _ => ?_
  exact onlyRaises_persist henv.granted prepared

omit [FloatHex F] [Sha256] in
theorem onlyRaises_recordAttempt (hgranted : ∀ n, env.cancelled n = false) (claimed : ClaimedJob)
    (started : Datetime) (outcome : AttemptOutcome) (code : Option Str) :
    OnlyRaises Caught (w.recordAttempt .memory env claimed started outcome code) := by
  unfold Worker.recordAttempt
  refine OnlyRaises.bind (fun _ => trivial) fun attemptId => ?_
  refine onlyRaises_readClock.bind fun finishedAt => ?_
  refine onlyRaises_readClock.bind fun createdAt => ?_
  refine (OnlyRaises.lift fun e he => caught_checkOptionalText he).bind fun errorCode => ?_
  refine OnlyRaises.bind ?_ fun _ => .pure _
  exact onlyRaises_statement hgranted (onlyRaises_onStore (onlyRaises_record _))

omit [FloatHex F] [Sha256] in
theorem onlyRaises_terminalFail (hgranted : ∀ n, env.cancelled n = false) (claimed : ClaimedJob)
    (started : Datetime) (code : Str) :
    OnlyRaises Caught (w.terminalFail .memory env claimed started code) := by
  unfold Worker.terminalFail
  refine (onlyRaises_setInvestigationStatus hgranted _ _ _).bind fun _ => ?_
  refine (onlyRaises_setJobStatus hgranted _ _ _).bind fun _ => ?_
  refine (onlyRaises_recordAttempt hgranted _ _ _ _).bind fun _ => ?_
  refine onlyRaises_readClock.bind fun occurredAt => ?_
  refine (OnlyRaises.lift fun e he => caught_checkOptionalText he).bind fun detail => ?_
  exact onlyRaises_recordAudit hgranted _

omit [FloatHex F] [Sha256] in
theorem onlyRaises_handle (hgranted : ∀ n, env.cancelled n = false) (claimed : ClaimedJob)
    (started : Datetime) {e : PyException} (he : Caught e) :
    OnlyRaises Caught (w.handle .memory env claimed started e) := by
  unfold Worker.handle
  split
  · exact onlyRaises_terminalFail hgranted _ _ _
  · unfold Worker.retryOrFail
    refine (onlyRaises_terminalFail hgranted _ _ _).ite ?_
    refine (onlyRaises_setJobStatus hgranted _ _ _).bind fun _ => ?_
    exact onlyRaises_recordAttempt hgranted _ _ _ _
  · exact (onlyRaises_terminalFail hgranted _ _ _).ite (.throw he)

/-- **A call that is not cancelled raises exceptions only.** -/
theorem onlyRaises_runOnce (henv : env.Ordinary) : OnlyRaises Caught (w.runOnce .memory env) := by
  have hcommit : ∀ r : Bool, OnlyRaises Caught
      (do commit .memory env.toSurroundings; return r : Action PyException (Session F) Bool) :=
    fun r => (onlyRaises_commit henv.granted).bind fun _ => .pure r
  unfold Worker.runOnce
  refine onlyRaises_scope henv.granted ?_
  refine onlyRaises_readClock.bind fun now => ?_
  refine OnlyRaises.bind ?_ fun claimed => ?_
  · refine onlyRaises_statement henv.granted (onlyRaises_onStore fun s => ?_)
    unfold Wp
    rw [JobQueue.claim_exec]
    cases JobQueue.eligible s now with
    | nil => trivial
    | cons job rest =>
      cases now.add w.lease with
      | none => exact rfl
      | some expiry => trivial
  cases claimed with
  | none => exact hcommit false
  | some claimed =>
    show OnlyRaises Caught (w.runClaimed .memory env claimed)
    unfold Worker.runClaimed
    refine onlyRaises_readClock.bind fun started => ?_
    have hget : OnlyRaises Caught (getInvestigation (F := F) .memory env.toSurroundings
        claimed.tenant claimed.investigationId) :=
      onlyRaises_statement henv.granted (onlyRaises_onStore (onlyRaises_getInvestigation _ _))
    -- `get` may find nothing, which is the one exception that is caught here
    refine hget.attemptBind (fun investigation => ?_) fun e he => ?_
    · refine OnlyRaises.ite ?_ ?_
      · exact (onlyRaises_setJobStatus henv.granted _ _ _).bind fun _ => hcommit true
      · refine (onlyRaises_setInvestigationStatus henv.granted _ _ _).bind fun _ => ?_
        refine OnlyRaises.bind ?_ fun _ => hcommit true
        unfold Worker.process
        -- what the pipeline raises goes through the handlers
        refine (onlyRaises_runPipeline henv).attemptBind (fun _ => ?_) fun e he => ?_
        · refine (onlyRaises_setJobStatus henv.granted _ _ _).bind fun _ => ?_
          exact onlyRaises_recordAttempt henv.granted _ _ _ _
        · exact onlyRaises_handle henv.granted _ _ he
    · split
      · exact (onlyRaises_setJobStatus henv.granted _ _ _).bind fun _ => hcommit true
      · next _ _ heq =>
        obtain rfl := Except.error.inj heq
        exact .throw he
      · next heq => cases heq

end worker

/-! ### A call returns -/

section returns
variable {F : Type} [PyFloat F] [FloatHex F] [Sha256] {w : Worker F} {env : Environment F}
  {S : Tracked F} {s : Session F} {drawn : List UUID} {investigation : InvestigationRecord}

/-- No attempt of a job has the number of the one that is under way. -/
def Store.Unnumbered (store : Store) (claimed : ClaimedJob) : Prop :=
  ∀ a ∈ store.attempts.values, a.jobId = claimed.jobId → a.attemptNumber ≠ claimed.attemptCount

omit [FloatHex F] [Sha256] in
theorem Claim.unnumbered (c : Claim w env S.store) (hlife : Lifecycle S.store drawn) :
    S.store.Unnumbered c.claimed := by
  obtain ⟨hjob, -, -⟩ := c.alive hlife
  intro a ha hof hnumber
  obtain ⟨k, hk⟩ := Dict.mem_values.mp ha
  obtain ⟨j, hj, -, hle, -⟩ := hlife.attempt k a hk
  rw [show a.jobId = c.job.jobId from hof, hjob] at hj
  obtain rfl := Option.some.inj hj
  have hcount : (c.claimed.attemptCount : ℕ) = c.job.attemptCount + 1 := Nat.succPNat_coe _
  rw [hnumber] at hle
  omega

/-- What is not `Exception` leaves a call only when it is cancelled. -/
abbrev Cancelled (e : PyException) (_ : Session F) : Prop := e = .cancelled

omit [PyFloat F] [FloatHex F] [Sha256] in
theorem record_returns {env : Surroundings} {record : AttemptRecord}
    (hnew : ∀ a ∈ s.working.store.attempts.values, a.jobId = record.jobId →
      a.attemptNumber ≠ record.attemptNumber) :
    Wp (statement .memory env (onStore (AttemptRepository.record record))) s (fun _ _ => True)
      Cancelled := by
  have hexec := AttemptRepository.record_exec record s.working.store
  have hdup : ¬ AttemptRepository.duplicate s.working.store record = true := by
    intro hdup
    obtain ⟨a, ha, hsame⟩ := List.any_eq_true.mp hdup
    obtain ⟨hjob, hnumber⟩ := Bool.and_eq_true_iff.mp hsame
    exact hnew a ha (of_decide_eq_true hjob) (of_decide_eq_true hnumber)
  rw [if_neg hdup] at hexec
  exact wp_onStore hexec (fun _ _ => rfl) fun _ _ => trivial

omit [FloatHex F] [Sha256] in
theorem recordAttempt_returns {claimed : ClaimedJob} {started : Datetime} {outcome : AttemptOutcome}
    {code : Option Text} (hnew : s.working.store.Unnumbered claimed) :
    Wp (w.recordAttempt .memory env claimed started outcome (code.map Subtype.val)) s
      (fun _ _ => True) Cancelled := by
  unfold Worker.recordAttempt
  simp only [wp_bind, wp_lift]
  refine wp_drawId fun s₁ h₁ => wp_readClock fun s₂ h₂ => wp_readClock fun s₃ h₃ => ?_
  have hworking : s₃.working = s.working := by rw [h₃.working, h₂.working, h₁.working]
  refine ⟨fun errorCode _ => ?_, fun e he => ?_⟩
  · apply record_returns
    rw [hworking]
    exact hnew
  · rw [CreateInvestigation.checkOptionalText_eq_ok.mpr rfl] at he
    cases he

omit [FloatHex F] [Sha256] in
theorem terminalFail_returns {claimed : ClaimedJob} {started : Datetime} {code : Text}
    {current : InvestigationRecord} {job : JobRecord}
    (hinvestigation : InvestigationRepository.find? s.working.store claimed.tenant
      claimed.investigationId = some current)
    (hjob : JobQueue.find? s.working.store claimed.tenant claimed.jobId = some job)
    (hnew : s.working.store.Unnumbered claimed) :
    Wp (w.terminalFail .memory env claimed started code.1) s (fun _ _ => True) Cancelled := by
  unfold Worker.terminalFail
  simp only [wp_bind, wp_lift]
  refine wp_setInvestigationStatus hinvestigation (fun _ _ => rfl) fun t₁ s₁ h₁ => ?_
  have hjob₁ : JobQueue.find? s₁.working.store claimed.tenant claimed.jobId = some job := by
    rw [h₁.working]
    exact hjob
  refine wp_setJobStatus hjob₁ (fun _ _ => rfl) fun t₂ s₂ h₂ => ?_
  have hnew₂ : s₂.working.store.Unnumbered claimed := by
    rw [h₂.working, h₁.working]
    exact hnew
  refine (@recordAttempt_returns _ _ _ _ _ _ _ _ (some code) hnew₂).mono (fun _ s₃ _ => ?_) fun _ _ he => he
  have hchecked : CreateInvestigation.checkOptionalText (some code.1) = .ok (some code) :=
    CreateInvestigation.checkOptionalText_eq_ok.mpr rfl
  refine wp_readClock fun s₄ h₄ => ⟨fun detail _ => ?_, fun e he => ?_⟩
  · exact wp_recordAudit (fun _ _ => rfl) fun _ _ => trivial
  · rw [hchecked] at he
    cases he

/-- The handlers get through when the failure can be recorded. -/
theorem handle_returns {c : Claim w env S.store} {e : PyException}
    (h : c.Ended investigation e s) (hlife : Lifecycle S.store drawn)
    (hcode : Caught e → isBlank e.failureCode = false) :
    Wp (w.handle .memory env c.claimed (env.clock 1) e) s (fun _ _ => True) Cancelled := by
  obtain ⟨n, store, t, hends, -, hworking⟩ := h.working
  obtain ⟨-, htenant⟩ := InvestigationRepository.find?_eq_some.mp h.found
  have hrunning : InvestigationRepository.find? s.working.store c.claimed.tenant
      c.claimed.investigationId = some (investigation.withStatus .running t) := by
    rw [hworking]
    exact InvestigationRepository.find?_eq_some.mpr ⟨Dict.get?_set_self _ _ _, htenant⟩
  have hjob : JobQueue.find? s.working.store c.claimed.tenant c.claimed.jobId = some c.row := by
    rw [hworking]
    exact JobQueue.find?_eq_some.mpr ⟨Dict.get?_set_self _ _ _, rfl⟩
  -- the number of the attempt is free, so recording it is not refused
  have hnew : s.working.store.Unnumbered c.claimed := by
    rw [hworking]
    unfold Store.Unnumbered
    rw [show (S.withStore (c.runningStore store (investigation.withStatus .running t))).store.attempts =
      S.store.attempts from hends.same.2.2.1]
    exact c.unnumbered hlife
  have hfail : ∀ code : Str, isBlank code = false →
      Wp (w.terminalFail .memory env c.claimed (env.clock 1) code) s (fun _ _ => True) Cancelled :=
    fun code hblank => @terminalFail_returns _ _ _ _ _ _ _ ⟨code, hblank⟩ _ _ hrunning hjob hnew
  unfold Worker.handle
  split
  · exact hfail _ (hcode rfl)
  · next code =>
    unfold Worker.retryOrFail
    rw [wp_ite]
    refine ⟨fun _ => hfail _ (hcode rfl), fun _ => ?_⟩
    rw [wp_bind]
    refine wp_setJobStatus hjob (fun _ _ => rfl) fun t' s₁ h₁ => ?_
    have hnew₁ : s₁.working.store.Unnumbered c.claimed := by
      rw [h₁.working]
      exact hnew
    exact @recordAttempt_returns _ _ _ _ _ _ _ _ (some ⟨code, hcode rfl⟩) hnew₁
  · rw [wp_ite, wp_throw]
    refine ⟨fun _ => hfail _ (by decide), fun hexception => ?_⟩
    cases e <;> first | rfl | exact absurd rfl hexception

theorem Claim.Ended.code {c : Claim w env S.store} {e : PyException}
    (h : c.Ended investigation e s) (henv : env.Ordinary) : isBlank e.failureCode = false := by
  obtain ⟨n, store, t, hends, -, -⟩ := h.working
  cases hends with
  | early _ hprepare => exact ((w.prepare_origin hprepare).ordinary henv).2
  | conflict => decide

variable [LawfulPyFloat F]

theorem process_returns {c : Claim w env S.store} {t : Datetime} (henv : env.Ordinary)
    (hlife : Lifecycle S.store drawn)
    (hfound : InvestigationRepository.find? S.store c.job.tenant c.job.investigationId =
      some investigation)
    (hstatus : investigation.status ≠ .cancelled) (hdrawn : s.drawn = []) (hreadings : s.readings = 2)
    (hworking : s.working = S.withStore (c.runningStore S.store (investigation.withStatus .running t))) :
    Wp (w.process .memory env c.claimed (env.clock 1) investigation) s (fun _ _ => True)
      Cancelled := by
  obtain ⟨hget, htenant⟩ := InvestigationRepository.find?_eq_some.mp hfound
  have hid : investigation.investigationId = c.job.investigationId :=
    InvestigationId.ext (hlife.investigationsKeyed _ _ hget).symm
  have hcurrent : InvestigationRepository.find? s.working.store investigation.tenant
      investigation.investigationId = some (investigation.withStatus .running t) := by
    rw [hworking, hid]
    exact InvestigationRepository.find?_eq_some.mpr ⟨Dict.get?_set_self _ _ _, rfl⟩
  unfold Worker.process
  simp only [wp_bind, wp_attempt]
  apply (runPipeline_spec hcurrent).mono
  · intro _ s₁ h₁
    obtain ⟨p, rows, report, t₁, -, -, -, -, h₁⟩ := h₁
    have hjob : JobQueue.find? s₁.working.store c.claimed.tenant c.claimed.jobId = some c.row := by
      rw [h₁.working, hworking]
      exact JobQueue.find?_eq_some.mpr ⟨Dict.get?_set_self _ _ _, rfl⟩
    refine wp_setJobStatus hjob (fun _ _ => rfl) fun t₂ s₂ h₂ => ?_
    have hnew : s₂.working.store.Unnumbered c.claimed := by
      rw [h₂.working, h₁.working, hworking]
      exact c.unnumbered hlife
    exact @recordAttempt_returns _ _ _ _ _ _ _ _ none hnew
  · intro e s₁ h₁
    rcases ended_of_stops hfound hstatus hdrawn hreadings hworking h₁.2 with rfl | hended
    · exact rfl
    · exact handle_returns hended hlife fun _ => hended.code henv

theorem runClaimed_returns (c : Claim w env S.store) (henv : env.Ordinary)
    (hlife : Lifecycle S.store drawn) (hworking : s.working =
      S.withStore { S.store with jobs := S.store.jobs.set c.job.jobId.value c.row })
    (hdrawn : s.drawn = []) (hreadings : s.readings = 1) :
    Wp (w.runClaimed .memory env c.claimed) s (fun _ _ => True) Cancelled := by
  obtain ⟨-, -, investigation, hi, htenant, -, hstatus, -⟩ := c.alive hlife
  have hfound := InvestigationRepository.find?_eq_some.mpr ⟨hi, htenant⟩
  have hcommit : ∀ (s' : Session F) (r : Bool), Wp (do commit .memory env.toSurroundings; return r) s'
      (fun _ _ => True) Cancelled := fun s' r => wp_commitReturn rfl trivial
  unfold Worker.runClaimed
  simp only [wp_bind, wp_attempt]
  refine wp_readClock fun s₁ h₁ => ?_
  rw [hreadings]
  have hrecord : ∀ s' : Session F, s'.working = s₁.working →
      InvestigationRepository.find? s'.working.store c.claimed.tenant c.claimed.investigationId =
        some investigation := by
    intro s' h
    rw [h, h₁.working, hworking]
    exact hfound
  have hexec := InvestigationRepository.get_exec c.claimed.tenant c.claimed.investigationId
    s₁.working.store
  rw [hrecord s₁ rfl] at hexec
  refine wp_onStore hexec (fun _ _ => rfl) fun s₂ h₂ => ?_
  show Wp (if investigation.status = .cancelled then _ else _) s₂ _ _
  rw [if_neg hstatus]
  simp only [wp_bind]
  refine wp_setInvestigationStatus (hrecord s₂ h₂.working) (fun _ _ => rfl) fun t s₃ h₃ => ?_
  have hprocess : Wp (w.process .memory env c.claimed (env.clock 1) investigation) s₃
      (fun _ _ => True) Cancelled := by
    refine process_returns (t := t) henv hlife hfound hstatus ?_ ?_ ?_
    · rw [h₃.drawn, h₂.drawn, h₁.drawn, hdrawn]
      rfl
    · rw [h₃.readings, h₂.readings, h₁.readings, hreadings]
    · rw [h₃.working, h₂.working, h₁.working, hworking]
      rfl
  exact hprocess.mono (fun _ s₄ _ => wp_bind.mp (hcommit s₄ true)) fun _ _ he => he

/-- Only a cancellation leaves a call that claims nothing or whose lease is a datetime. -/
theorem runOnce_returns_or_cancelled (henv : env.Ordinary) (hlife : Lifecycle S.store drawn)
    (hlease : ((env.clock 0).add w.lease).isSome = true) :
    Wp (w.runOnce .memory env) (Session.start S) (fun _ _ => True) Cancelled := by
  unfold Worker.runOnce
  refine wp_scope rfl ?_
  simp only [wp_bind]
  refine wp_readClock fun s₁ h₁ => ?_
  have hexec := JobQueue.claim_exec w.workerId w.lease (env.clock 0) s₁.working.store
  have hstart : s₁.working = S := h₁.working
  rw [hstart] at hexec
  cases hfirst : JobQueue.eligible S.store (env.clock 0) with
  | nil =>
    rw [hfirst, ← hstart] at hexec
    refine wp_onStore hexec (fun _ _ => rfl) fun s₂ h₂ => ?_
    exact wp_commitReturn rfl trivial
  | cons job rest =>
    obtain ⟨expiry, hexpiry⟩ := Option.isSome_iff_exists.mp hlease
    rw [hfirst, hexpiry, ← hstart] at hexec
    let c : Claim w env S.store := ⟨job, rest, expiry, hfirst, hexpiry⟩
    refine wp_onStore hexec (fun _ _ => rfl) fun s₂ h₂ => ?_
    refine runClaimed_returns c henv hlife ?_ ?_ ?_
    · rw [h₂.working, hstart]
      rfl
    · rw [h₂.drawn, h₁.drawn]
      rfl
    · rw [h₂.readings, h₁.readings]
      rfl

/-- **A call returns**, unless it is cancelled, its ports leave the worker without a code or its
    lease ends after the last datetime. -/
theorem runOnce_total (henv : env.Ordinary) (hlife : Lifecycle S.store drawn)
    (hlease : ((env.clock 0).add w.lease).isSome = true) :
    Wp (w.runOnce .memory env) (Session.start S) (fun r s' => w.Effect env S r s'.shared s'.drawn)
      (fun _ _ => False) := by
  have hreturns := (runOnce_returns_or_cancelled henv hlife hlease).and
    (onlyRaises_runOnce henv (Session.start S))
  refine ((runOnce_effect hlife.investigationsKeyed).and hreturns).mono (fun _ _ h => h.1) ?_
  intro e _ h
  obtain ⟨-, rfl, hcaught⟩ := h
  cases hcaught

end returns

/-! ### One call -/

section call
variable {F : Type} [PyFloat F] [FloatHex F] [Sha256] {w : Worker F} {env : Environment F}
  {s : Service F}

/-- What a call returns or raises. -/
def Worker.returned (w : Worker F) (env : Environment F) (S : Tracked F) : Except PyException Bool :=
  ((w.runOnce .memory env).exec (Session.start S)).1

/-- Nothing more happens to a job. -/
def JobStatus.Terminal (status : JobStatus) : Prop :=
  status = .succeeded ∨ status = .failed ∨ status = .cancelled

instance (status : JobStatus) : Decidable status.Terminal := by
  unfold JobStatus.Terminal
  infer_instance

/-- How often a worker may still claim a job. -/
def Worker.attemptsLeft (w : Worker F) (job : JobRecord) : ℕ :=
  if job.status.Terminal then 0 else (max 1 (w.maxAttempts - job.attemptCount)).toNat

/-- How often it may still claim one. -/
def Worker.budget (w : Worker F) (store : Store) : ℕ :=
  (store.jobs.values.map w.attemptsLeft).sum

/-- The job a call claims. -/
def Environment.claims (env : Environment F) (S : Tracked F) : Option JobId :=
  (JobQueue.eligible S.store (env.clock 0)).head?.map (·.jobId)

omit [FloatHex F] [Sha256] in
theorem Claim.claims {S : Tracked F} (c : Claim w env S.store) : env.claims S = some c.job.jobId := by
  unfold Environment.claims
  rw [c.first]
  rfl

omit [FloatHex F] [Sha256] in
/-- Whatever becomes of the job that is claimed, it has an attempt less. -/
theorem Turn.attemptsLeft {S : Tracked F} {c : Claim w env S.store}
    {status : JobStatus} {code : Option Text} {T : Store} (h : Turn c status code T)
    (hqueued : c.job.status = .queued) (t : Datetime) :
    w.attemptsLeft (c.row.withStatus status t) + 1 ≤ w.attemptsLeft c.job := by
  have hbefore : w.attemptsLeft c.job = (max 1 (w.maxAttempts - c.job.attemptCount)).toNat := by
    unfold Worker.attemptsLeft
    rw [if_neg]
    rw [hqueued]
    decide
  have hone : 1 ≤ w.attemptsLeft c.job := by
    rw [hbefore]
    omega
  have hended : status.Terminal → w.attemptsLeft (c.row.withStatus status t) = 0 :=
    fun hterminal => if_pos hterminal
  rcases h.ended with hstatus | hstatus | hstatus
  · rw [hended (Or.inl hstatus)]
    exact hone
  · rw [hended (Or.inr (Or.inl hstatus))]
    exact hone
  · -- a job that is put back has attempts left
    obtain ⟨hleft, -⟩ := h.left hstatus
    have hcount : (c.claimed.attemptCount : ℕ) = c.job.attemptCount + 1 := Nat.succPNat_coe _
    rw [hcount] at hleft
    have hafter : w.attemptsLeft (c.row.withStatus status t) =
        (max 1 (w.maxAttempts - (c.job.attemptCount + 1 : ℕ))).toNat := by
      rw [hstatus]
      rfl
    rw [hbefore, hafter]
    omega

variable [LawfulPyFloat F]

/-- **One call**: nothing can be claimed and nothing changes, or a job has its turn. -/
theorem call_cases (henv : env.Ordinary) (hlife : Lifecycle s.committed.store s.drawn)
    (hlease : ((env.clock 0).add w.lease).isSome = true) :
    (JobQueue.eligible s.committed.store (env.clock 0) = [] ∧
        w.returned env s.committed = .ok false ∧ s.next (.runOnce w env) = s) ∨
      ∃ (c : Claim w env s.committed.store) (status : JobStatus) (code : Option Text),
        w.returned env s.committed = .ok true ∧
        Turn c status code (s.next (.runOnce w env)).committed.store ∧
        (s.next (.runOnce w env)).drawn = s.drawn ++ [env.attemptId] := by
  have htotal := runOnce_total (w := w) henv hlife hlease
  unfold Wp at htotal
  unfold Worker.returned Service.next
  rw [session_runOnce]
  rcases hexec : (w.runOnce .memory env).exec (Session.start s.committed) with ⟨r, s'⟩
  rw [hexec] at htotal
  cases r with
  | error e => exact htotal.elim
  | ok r =>
    have heffect : w.Effect env s.committed r s'.shared s'.drawn := htotal
    cases r with
    | false =>
      left
      generalize s'.shared = T, s'.drawn = ids at heffect
      cases heffect with
      | idle hnone => exact ⟨hnone, rfl, by simp⟩
    | true =>
      right
      obtain ⟨c, status, code, hturn, hids⟩ := turn_of_effect hlife heffect
      exact ⟨c, status, code, rfl, hturn, by rw [hids]⟩

end call

/-! ### Many calls -/

section calls
variable {F : Type} [PyFloat F] [FloatHex F] [Sha256] {w : Worker F} {calls : ℕ → Environment F}
  {s : Service F} {n : ℕ}

/-- The service after the first `n` calls of a worker. -/
def Worker.drained (w : Worker F) (calls : ℕ → Environment F) (s : Service F) : ℕ → Service F
  | 0 => s
  | n + 1 => (w.drained calls s n).next (.runOnce w (calls n))

theorem Worker.drained_zero : w.drained calls s 0 = s := rfl

theorem Worker.drained_succ : w.drained calls s (n + 1) =
    (w.drained calls s n).next (.runOnce w (calls n)) := rfl

/-- The calls of the first `n` that claim a job. -/
def Worker.turns (w : Worker F) (calls : ℕ → Environment F) (s : Service F) (n : ℕ) (job : JobId) : ℕ :=
  ((List.range n).filter fun k => (calls k).claims (w.drained calls s k).committed = some job).length

/-- Calls that find the jobs available and have a lease; the ids they draw are all different. -/
structure Worker.Calls (w : Worker F) (calls : ℕ → Environment F) (s : Service F) : Prop where
  ordinary : ∀ n, (calls n).Ordinary
  lease : ∀ n, (((calls n).clock 0).add w.lease).isSome = true
  available : ∀ n, ∀ j ∈ s.committed.store.jobs.values, j.availableAt ≤ (calls n).clock 0
  fresh : ∀ n, (w.drained calls s n).drawn.Nodup

/-- A call with nothing to claim changes nothing. -/
theorem next_of_idle {env : Environment F} [LawfulPyFloat F] (henv : env.Ordinary)
    (hlife : Lifecycle s.committed.store s.drawn)
    (hlease : ((env.clock 0).add w.lease).isSome = true)
    (hnone : JobQueue.eligible s.committed.store (env.clock 0) = []) :
    s.next (.runOnce w env) = s := by
  rcases call_cases (w := w) henv hlife hlease with ⟨-, -, hsame⟩ | ⟨c, -, -, -, -, -⟩
  · exact hsame
  · have hfirst := c.first
    rw [hnone] at hfirst
    cases hfirst

/-- A call that raises commits nothing. -/
theorem committed_of_raised {env : Environment F} [LawfulPyFloat F]
    (hkeyed : s.committed.store.investigations.Keyed fun r => r.investigationId.value)
    {e : PyException} (hraised : w.returned env s.committed = .error e) :
    (s.next (.runOnce w env)).committed = s.committed := by
  have heffect := @runOnce_effect _ _ _ _ w env _ _ hkeyed
  unfold Worker.returned at hraised
  unfold Service.next
  rw [session_runOnce]
  rcases hexec : (w.runOnce .memory env).exec (Session.start s.committed) with ⟨r, s'⟩
  rw [hexec] at hraised
  obtain rfl : r = .error e := hraised
  exact heffect.of_error hexec

/-- Neither do calls that all raise. -/
theorem Worker.drained_of_raised [LawfulPyFloat F]
    (hkeyed : s.committed.store.investigations.Keyed fun r => r.investigationId.value)
    (hraised : ∀ n, ∃ e, w.returned (calls n) s.committed = .error e) (n : ℕ) :
    (w.drained calls s n).committed = s.committed := by
  induction n with
  | zero => rfl
  | succ n ih =>
    obtain ⟨e, he⟩ := hraised n
    rw [← ih] at he hkeyed
    exact (committed_of_raised hkeyed he).trans ih

/-- What holds between two of them. -/
structure Worker.Serving (calls : ℕ → Environment F) (s : Service F) : Prop where
  lifecycle : Lifecycle s.committed.store s.drawn
  available : ∀ k, ∀ j ∈ s.committed.store.jobs.values, j.availableAt ≤ (calls k).clock 0

omit [FloatHex F] [Sha256] in
/-- When nothing can be claimed, every job has ended. -/
theorem Worker.Serving.idle (h : Worker.Serving calls s)
    (hnone : JobQueue.eligible s.committed.store ((calls n).clock 0) = []) :
    ∀ j ∈ s.committed.store.jobs.values, j.status = .succeeded ∨ j.status = .failed := by
  intro j hj
  obtain ⟨i, -, -, hphase⟩ := h.lifecycle.phase _ j (h.lifecycle.jobsKeyed.get?_of_mem hj)
  rcases hphase.status with hqueued | hended
  · have hclaimable : JobQueue.claimable j ((calls n).clock 0) = true := by
      simp [JobQueue.claimable, hqueued, h.available n j hj]
    have hmem : j ∈ JobQueue.eligible s.committed.store ((calls n).clock 0) := by
      unfold JobQueue.eligible
      rw [mem_sortedOn, List.mem_filter]
      exact ⟨hj, hclaimable⟩
    rw [hnone] at hmem
    cases hmem
  · exact hended

variable [LawfulPyFloat F]

/-- One call keeps it. -/
theorem Worker.Serving.next (h : Worker.Serving calls s) (henv : (calls n).Ordinary)
    (hlease : (((calls n).clock 0).add w.lease).isSome = true)
    (hfresh : (s.next (.runOnce w (calls n))).drawn.Nodup) :
    Worker.Serving calls (s.next (.runOnce w (calls n))) := by
  rcases call_cases (w := w) henv h.lifecycle hlease with ⟨-, -, hsame⟩ |
    ⟨c, status, code, -, hturn, -⟩
  · rw [hsame]
    exact h
  · have hstep : Service.step s (.runOnce w (calls n)) (s.next (.runOnce w (calls n))) :=
      ⟨trivial, hfresh, rfl⟩
    refine ⟨lifecycle_step h.lifecycle hstep, ?_⟩
    -- no call changes when a job is available
    intro k j hj
    obtain ⟨t, hjobs⟩ := hturn.jobs
    rw [hjobs] at hj
    obtain ⟨hclaimed, -, -⟩ := c.alive h.lifecycle
    rcases Dict.mem_values_set.mp hj with rfl | ⟨k', -, hj⟩
    · exact h.available k c.job (Dict.mem_values.mpr ⟨_, hclaimed⟩)
    · exact h.available k j (Dict.mem_values.mpr ⟨k', hj⟩)

/-- And so do all calls. -/
theorem Worker.Calls.serving (h : w.Calls calls s) (hreachable : Reachable (Service.system F) s) (n : ℕ) :
    Worker.Serving calls (w.drained calls s n) := by
  induction n with
  | zero => exact ⟨lifecycle_reachable hreachable, h.available⟩
  | succ n ih => exact ih.next (h.ordinary n) (h.lease n) (h.fresh (n + 1))

/-- The attempts left of a job that may be stored. -/
def Worker.leftOf (w : Worker F) (store : Store) (job : JobId) : ℕ :=
  ((store.jobs.get? job.value).map w.attemptsLeft).getD 0

/-- **What one of the calls does to the attempts that are left.** -/
theorem Worker.Serving.turn (h : Worker.Serving calls s) (henv : (calls n).Ordinary)
    (hlease : (((calls n).clock 0).add w.lease).isSome = true) :
    ((calls n).claims s.committed = none ∧ w.returned (calls n) s.committed = .ok false ∧
        s.next (.runOnce w (calls n)) = s) ∨
      ∃ job, (calls n).claims s.committed = some job ∧
        w.returned (calls n) s.committed = .ok true ∧
        w.leftOf (s.next (.runOnce w (calls n))).committed.store job + 1 ≤
          w.leftOf s.committed.store job ∧
        (∀ other, other ≠ job → w.leftOf (s.next (.runOnce w (calls n))).committed.store other =
          w.leftOf s.committed.store other) ∧
        w.budget (s.next (.runOnce w (calls n))).committed.store + 1 ≤ w.budget s.committed.store := by
  rcases call_cases (w := w) henv h.lifecycle hlease with ⟨hnone, hfalse, hsame⟩ |
    ⟨c, status, code, htrue, hturn, -⟩
  · left
    refine ⟨?_, hfalse, hsame⟩
    unfold Environment.claims
    rw [hnone]
    rfl
  · right
    obtain ⟨hclaimed, hqueued, -⟩ := c.alive h.lifecycle
    obtain ⟨t, hjobs⟩ := hturn.jobs
    have hless := hturn.attemptsLeft hqueued t
    refine ⟨c.job.jobId, c.claims, htrue, ?_, ?_, ?_⟩
    · unfold Worker.leftOf
      rw [hjobs, Dict.get?_set_self, hclaimed]
      exact hless
    · intro other hother
      unfold Worker.leftOf
      rw [hturn.other fun heq => hother (JobId.ext heq)]
    · have hsum := Dict.sum_values_set (c.row.withStatus status t) w.attemptsLeft hclaimed
      unfold Worker.budget
      rw [hjobs]
      omega

omit [LawfulPyFloat F] in
/-- One more call. -/
theorem Worker.turns_succ (job : JobId) : w.turns calls s (n + 1) job = w.turns calls s n job +
    if (calls n).claims (w.drained calls s n).committed = some job then 1 else 0 := by
  unfold Worker.turns
  rw [List.range_succ, List.filter_append, List.length_append]
  by_cases hclaims : (calls n).claims (w.drained calls s n).committed = some job
  · simp [hclaims]
  · simp [hclaims]

/-- No job has more turns than attempts. -/
theorem Worker.Calls.turns_le (h : w.Calls calls s) (hreachable : Reachable (Service.system F) s)
    (n : ℕ) (job : JobId) : w.turns calls s n job + w.leftOf (w.drained calls s n).committed.store job ≤
      w.leftOf s.committed.store job := by
  induction n with
  | zero => exact le_of_eq (Nat.zero_add _)
  | succ n ih =>
    rw [Worker.turns_succ, Worker.drained_succ]
    rcases (h.serving hreachable n).turn (w := w) (h.ordinary n) (h.lease n) with
      ⟨hnone, -, hsame⟩ | ⟨claimed, hclaims, -, hless, hother, -⟩
    · rw [hnone, hsame, if_neg (by simp)]
      exact ih
    · rw [hclaims]
      by_cases hjob : claimed = job
      · rw [if_pos (by rw [hjob])]
        rw [hjob] at hless
        omega
      · rw [if_neg fun heq => hjob (Option.some.inj heq), hother job (Ne.symm hjob)]
        exact ih

/-- As long as the calls return true they use up attempts. -/
theorem Worker.Calls.budget_le (h : w.Calls calls s) (hreachable : Reachable (Service.system F) s)
    (n : ℕ) (htrue : ∀ k < n, w.returned (calls k) (w.drained calls s k).committed = .ok true) :
    w.budget (w.drained calls s n).committed.store + n ≤ w.budget s.committed.store := by
  induction n with
  | zero => exact le_refl _
  | succ n ih =>
    have hbefore := ih fun k hk => htrue k (by omega)
    rw [Worker.drained_succ]
    rcases (h.serving hreachable n).turn (w := w) (h.ordinary n) (h.lease n) with
      ⟨-, hfalse, -⟩ | ⟨claimed, -, -, -, -, hless⟩
    · rw [htrue n (by omega)] at hfalse
      cases hfalse
    · omega

/-- After a call that returns false nothing happens any more. -/
theorem Worker.Calls.idle (h : w.Calls calls s) (hreachable : Reachable (Service.system F) s)
    (hidle : w.returned (calls n) (w.drained calls s n).committed ≠ .ok true) :
    (∀ j ∈ (w.drained calls s n).committed.store.jobs.values,
      j.status = .succeeded ∨ j.status = .failed) ∧
      ∀ k, n ≤ k → w.drained calls s k = w.drained calls s n ∧
        w.returned (calls k) (w.drained calls s k).committed = .ok false := by
  have hended : ∀ j ∈ (w.drained calls s n).committed.store.jobs.values,
      j.status = .succeeded ∨ j.status = .failed := by
    rcases call_cases (w := w) (h.ordinary n) (h.serving hreachable n).lifecycle (h.lease n) with
      ⟨hnone, -, -⟩ | ⟨c, status, code, htrue, -, -⟩
    · exact (h.serving hreachable n).idle hnone
    · exact absurd htrue hidle
  -- a call that finds all jobs ended changes nothing
  have hstays : ∀ k, w.drained calls s k = w.drained calls s n →
      w.returned (calls k) (w.drained calls s k).committed = .ok false ∧
        w.drained calls s (k + 1) = w.drained calls s n := by
    intro k hk
    rcases call_cases (w := w) (h.ordinary k) (h.serving hreachable k).lifecycle (h.lease k) with
      ⟨-, hfalse, hsame⟩ | ⟨c, status, code, -, -, -⟩
    · exact ⟨hfalse, hsame.trans hk⟩
    · obtain ⟨hclaimed, hqueued, -⟩ := c.alive (h.serving hreachable k).lifecycle
      generalize c.job = job at hclaimed hqueued
      rw [hk] at hclaimed
      rcases hended job (Dict.mem_values.mpr ⟨_, hclaimed⟩) with hstatus | hstatus
      · rw [hqueued] at hstatus
        cases hstatus
      · rw [hqueued] at hstatus
        cases hstatus
  refine ⟨hended, fun k hk => ?_⟩
  have hsame : w.drained calls s k = w.drained calls s n := by
    induction k, hk using Nat.le_induction with
    | base => rfl
    | succ k _ ih => exact (hstays k ih).2
  exact ⟨hsame, (hstays k hsame).1⟩

end calls

/-! ### Failures without a code -/

/-- A telemetry source that raises the worker's own exception with a blank code ends the call:
    the attempt cannot be recorded. -/
theorem returned_of_blank {F : Type} [PyFloat F] [LawfulPyFloat F] [FloatHex F] [Sha256]
    {w : Worker F} {env : Environment F} {S : Tracked F} {drawn : List UUID}
    (hlife : Lifecycle S.store drawn) (c : Claim w env S.store) {code : Str}
    (hload : env.load = .raises (.terminalFailure code)) (hblank : isBlank code = true) :
    ∃ e, w.returned env S = .error e := by
  have hprepare : ∀ investigation, w.prepare env investigation = .error (.terminalFailure code) := by
    intro investigation
    simp [Worker.prepare, awaited, Outcome.reply, hload, telemetryFailure]
  -- the source raises, so the pipeline prepares nothing
  have hunmade : ∀ {investigation} {p : Prepared F}, ¬ p.Made w env investigation := by
    intro investigation p hmade
    obtain ⟨inputs, hreturns, -⟩ := hmade.ranked
    rw [hload] at hreturns
    cases hreturns
  have heffect := @runOnce_effect _ _ _ _ w env _ _ hlife.investigationsKeyed
  unfold Worker.returned
  unfold Wp at heffect
  rcases hexec : (w.runOnce .memory env).exec (Session.start S) with ⟨r, s'⟩
  rw [hexec] at heffect
  cases r with
  | error e => exact ⟨e, rfl⟩
  | ok r =>
    exfalso
    have heffect : w.Effect env S r s'.shared s'.drawn := heffect
    generalize s'.shared = T, s'.drawn = ids at heffect
    cases heffect with
    | idle hnone =>
      have hfirst := c.first
      rw [hnone] at hfirst
      cases hfirst
    | orphaned c t hnone =>
      obtain ⟨-, -, i, hi, htenant, -⟩ := c.alive hlife
      rw [InvestigationRepository.find?_eq_some.mpr ⟨hi, htenant⟩] at hnone
      cases hnone
    | cancelled c i t hfind hstatus =>
      obtain ⟨-, -, i', hi, htenant, -, hne, -⟩ := c.alive hlife
      rw [InvestigationRepository.find?_eq_some.mpr ⟨hi, htenant⟩] at hfind
      obtain rfl := Option.some.inj hfind
      exact hne hstatus
    | succeeded c i p rows report t t' hfind hstatus hmade => exact hunmade hmade
    | failed c i e n store text t t' hfind hstatus hends hexception hterminal hcode hdup =>
      cases hends with
      | early _ hearly =>
        rw [hprepare] at hearly
        obtain rfl := Except.error.inj hearly
        -- the code would have to be a text that is not blank
        have htext : text.1 = code := hcode
        rw [← htext, text.2] at hblank
        cases hblank
      | conflict p rows hmade => exact hunmade hmade
    | retried c i text t t' hfind hstatus hearly =>
      rw [hprepare] at hearly
      cases hearly

/-! ### The queue drains -/

/-- Every job and its investigation has succeeded or failed. -/
def Store.Drained (store : Store) : Prop :=
  ∀ j ∈ store.jobs.values, (j.status = .succeeded ∨ j.status = .failed) ∧
    ∃ i ∈ store.investigations.values, i.investigationId = j.investigationId ∧
      i.tenant = j.tenant ∧ i.status.Over

/-- **The queue drains.** From every committed store of a run, a worker that keeps calling
    `run_once` while nothing is created is done after at most as many calls as attempts are
    left: these calls return true, and all later ones return false and change nothing. No
    job is claimed more often than it has attempts left, and in the end each job and its
    investigation have succeeded or failed. -/
theorem queue_drains {F : Type} [PyFloat F] [LawfulPyFloat F] [FloatHex F] [Sha256] {s : Service F}
    (hreachable : Reachable (Service.system F) s) {w : Worker F} {calls : ℕ → Environment F}
    (h : w.Calls calls s) :
    ∃ n ≤ w.budget s.committed.store,
      (∀ k < n, w.returned (calls k) (w.drained calls s k).committed = .ok true) ∧
      (∀ k, n ≤ k → w.drained calls s k = w.drained calls s n ∧
        w.returned (calls k) (w.drained calls s k).committed = .ok false) ∧
      (∀ j ∈ s.committed.store.jobs.values, ∀ m, w.turns calls s m j.jobId ≤ w.attemptsLeft j) ∧
      (w.drained calls s n).committed.store.Drained := by
  have hends : ∃ n, w.returned (calls n) (w.drained calls s n).committed ≠ .ok true := by
    by_contra hnever
    have htrue : ∀ k, w.returned (calls k) (w.drained calls s k).committed = .ok true :=
      fun k => by_contra fun hk => hnever ⟨k, hk⟩
    have hbudget := h.budget_le hreachable (w.budget s.committed.store + 1) fun k _ => htrue k
    omega
  classical
  -- the first call that does not return true
  obtain ⟨n, hidle, hbefore⟩ : ∃ n,
      w.returned (calls n) (w.drained calls s n).committed ≠ .ok true ∧
      ∀ k < n, w.returned (calls k) (w.drained calls s k).committed = .ok true :=
    ⟨Nat.find hends, Nat.find_spec hends, fun k hk => not_not.mp (Nat.find_min hends hk)⟩
  obtain ⟨hended, hafter⟩ := h.idle hreachable hidle
  have hlife := lifecycle_reachable hreachable
  refine ⟨n, ?_, hbefore, hafter, ?_, ?_⟩
  · have hbudget := h.budget_le hreachable n hbefore
    omega
  · intro j hj m
    have hturns := h.turns_le hreachable m j.jobId
    have hleft : w.leftOf s.committed.store j.jobId = w.attemptsLeft j := by
      unfold Worker.leftOf
      rw [hlife.jobsKeyed.get?_of_mem hj]
      rfl
    omega
  · intro j hj
    have hserving := (h.serving hreachable n).lifecycle
    obtain ⟨i, hi, htenant, hphase⟩ := hserving.phase _ j (hserving.jobsKeyed.get?_of_mem hj)
    refine ⟨hended j hj, i, Dict.mem_values.mpr ⟨_, hi⟩, ?_, htenant, ?_⟩
    · exact InvestigationId.ext (hserving.investigationsKeyed _ _ hi).symm
    · exact hphase.over (hended j hj)

namespace Demo

theorem noTelemetry_ordinary : noTelemetry.Ordinary where
  granted _ := rfl
  load e h := by
    obtain rfl := Outcome.raises.inj h
    exact ⟨rfl, by decide⟩
  proposal e h := by
    obtain rfl := Outcome.raises.inj h
    exact ⟨rfl, by decide⟩
  value e h := by
    rcases h with h | h | ⟨proposal, h, -⟩ <;> cases h

theorem after_eq_next (w : Worker ExactFloat) (env : Environment ExactFloat) :
    after w env = createdService.next (.runOnce w env) := rfl

/-- One call fails the job of the demonstration, and the others find nothing. -/
theorem drained_failed (n : ℕ) :
    worker.drained (fun _ => noTelemetry) createdService (n + 1) = failedService := by
  induction n with
  | zero =>
    rw [Worker.drained_succ, Worker.drained_zero]
    exact (after_eq_next worker noTelemetry).symm
  | succ n ih =>
    have hlife := lifecycle_reachable (s := failedService) ⟨_, _, rfl, failingRun_run⟩
    rw [Worker.drained_succ, ih]
    exact next_of_idle noTelemetry_ordinary hlife (by decide +kernel) (by decide +kernel)

theorem noTelemetry_calls : worker.Calls (fun _ => noTelemetry) createdService where
  ordinary _ := noTelemetry_ordinary
  lease _ := by decide +kernel
  available _ := by decide +kernel
  fresh n := by
    cases n with
    | zero => exact nodup_drawn createdService_reachable
    | succ n =>
      rw [drained_failed]
      exact nodup_drawn (s := failedService) ⟨_, _, rfl, failingRun_run⟩

/-- The clock shows the last datetime there is. -/
def lastInstant : Environment ExactFloat :=
  { noTelemetry with clock := fun _ => ⟨maxMicros - 1, by decide⟩ }

/-- The telemetry source raises the worker's own exception with a blank code. -/
def blankCode (id : UUID) : Environment ExactFloat :=
  { noTelemetry with
    load := .raises (.terminalFailure (str " "))
    attemptId := id }

end Demo

open Demo in
theorem queue_drains_demo : ∃ n ≤ worker.budget createdService.committed.store,
    (worker.drained (fun _ => noTelemetry) createdService n).committed.store.Drained := by
  obtain ⟨n, hn, -, -, -, hdrained⟩ := queue_drains createdService_reachable noTelemetry_calls
  exact ⟨n, hn, hdrained⟩

open Demo in
/-- A worker whose lease would end after the last datetime raises in every call, and so does one
    whose telemetry source raises a blank code of the worker's, whatever ids are drawn. Nothing
    is ever committed, and the job waits. -/
theorem queue_may_never_drain :
    Reachable (Service.system ExactFloat) createdService ∧ 1 ≤ worker.maxAttempts ∧
      (∃ j ∈ createdService.committed.store.jobs.values, j.status = .queued) ∧
      (∀ j ∈ createdService.committed.store.jobs.values, j.availableAt ≤ lastInstant.clock 0) ∧
      (∀ n, (∃ e, worker.returned lastInstant
          (worker.drained (fun _ => lastInstant) createdService n).committed = .error e) ∧
        (worker.drained (fun _ => lastInstant) createdService n).committed =
          createdService.committed) ∧
      ∀ (ids : ℕ → UUID) (n : ℕ), (∃ e, worker.returned (blankCode (ids n))
          (worker.drained (fun k => blankCode (ids k)) createdService n).committed = .error e) ∧
        (worker.drained (fun k => blankCode (ids k)) createdService n).committed =
          createdService.committed := by
  have hlife := lifecycle_reachable createdService_reachable
  have hlast : worker.returned lastInstant createdService.committed = .error .overflowError := by
    decide +kernel
  have hblank : ∀ id, ∃ e, worker.returned (blankCode id) createdService.committed = .error e :=
    fun id => returned_of_blank hlife (firstClaim (blankCode id) rfl) rfl (by decide)
  refine ⟨createdService_reachable, by decide, by decide +kernel, by decide +kernel, ?_, ?_⟩
  · intro n
    have hsame := @Worker.drained_of_raised _ _ _ _ worker (fun _ => lastInstant) _ _
      hlife.investigationsKeyed (fun _ => ⟨_, hlast⟩) n
    rw [hsame]
    exact ⟨⟨_, hlast⟩, rfl⟩
  · intro ids n
    have hsame := @Worker.drained_of_raised _ _ _ _ worker (fun k => blankCode (ids k)) _ _
      hlife.investigationsKeyed (fun k => hblank (ids k)) n
    rw [hsame]
    exact ⟨hblank (ids n), rfl⟩

end IncidentEvidence
