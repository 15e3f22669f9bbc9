import IncidentEvidence.Application.FailedRuns

/-! # The attempts of a job and their limit

    A job has a limit of attempts of its own, `max_attempts` of its row; what
    `_retry_or_fail` compares the attempts with is the limit of the worker.
    `turn_of_effect` says what a call makes of the job it claims, and
    `prepare_origin` where the failure comes from that decides it.

    When the two limits come to the same wherever a provider failure is handled,
    the limit of the job is kept in every run (`attempt_cap_honoured`).
-/

namespace IncidentEvidence

open Py Py.Action Runs

/-! ### Where a failure of the pipeline comes from -/

/-- The parser raises exceptions. -/
theorem parse_isException {limits : RecursionLimits} {raw : Str} {allowed : Finset SignalKey}
    {e : PyException} (h : parseMetricHypothesis limits raw allowed = .error e) :
    e.isException = true := by
  by_cases htyped : TypedOutcome allowed (parseMetricHypothesis limits raw allowed)
  · rw [h] at htyped
    cases e <;> first | rfl | exact absurd htyped (by simp [TypedOutcome, PyException.isLLMValidationError])
  · obtain ⟨hlength, hblank, hdefect⟩ := parseMetricHypothesis_untyped htyped
    rcases parseMetricHypothesis_defect allowed hlength hblank hdefect with hparse | hparse
    · rw [hparse] at h
      obtain rfl := Except.error.inj h
      rfl
    · rw [hparse] at h
      obtain rfl := Except.error.inj h
      rfl

/-- What an awaited port raises is mapped. -/
theorem awaited_eq_error {α : Type} {failure : PyException → PyException} {outcome : Outcome α}
    {e : PyException} (h : awaited failure outcome = .error e) :
    ∃ e₀, outcome = .raises e₀ ∧ e = failure e₀ := by
  unfold awaited at h
  cases outcome with
  | returns value => simp [Outcome.reply] at h
  | illTyped e₀ => simp [Outcome.reply] at h
  | raises e₀ => exact ⟨e₀, rfl, (Except.error.inj h).symm⟩

theorem reply_eq_error {α : Type} {outcome : Outcome α} {e : PyException}
    (h : outcome.reply = .ok (.error e)) : outcome = .illTyped e := by
  cases outcome with
  | returns value => simp [Outcome.reply] at h
  | illTyped e₀ =>
    obtain rfl := Except.error.inj (Except.ok.inj h)
    rfl
  | raises e₀ => simp [Outcome.reply] at h

section origin
variable {F : Type} [PyFloat F] [FloatHex F] [Sha256] {w : Worker F} {env : Environment F}
  {investigation : InvestigationRecord}

/-- The first use of a value a port returned raises `e`. -/
def Environment.IllTyped (env : Environment F) (e : PyException) : Prop :=
  env.load = .illTyped e ∨ env.proposal = .illTyped e ∨
    ∃ proposal, env.proposal = .returns proposal ∧ proposal.rawJson = .error e

/-- Where an exception that leaves the stages comes from. -/
inductive Environment.Origin (env : Environment F) : PyException → Prop where
  | load (e : PyException) (h : env.load = .raises e) : Origin env (telemetryFailure e)
  | provider (e : PyException) (h : env.proposal = .raises e) : Origin env (providerFailure e)
  | value (e : PyException) (h : env.IllTyped e) : Origin env e
  | domain (e : DomainError) : Origin env (.terminalFailure e.code)
  | validation (e : LLMError) (h : e.isValidation = true) : Origin env (.terminalFailure e.code)
  /-- A stage raises something the worker has no clause for. -/
  | untyped (e : PyException) (hprivate : e.isPrivate = false) (hexception : e.isException = true) :
      Origin env e

omit [FloatHex F] [Sha256] in
/-- A stage whose domain errors are terminal raises one, or what it raises is not one. -/
theorem origin_terminalOnDomain {α : Type} {x : Except PyException α} {e : PyException}
    (h : terminalOnDomain x = .error e) (hx : ∀ e, x = .error e → env.Origin e) : env.Origin e := by
  unfold terminalOnDomain at h
  split at h
  · next d =>
    obtain rfl := Except.error.inj h
    exact .domain d
  · exact hx e h

omit [FloatHex F] [Sha256] in
theorem origin_terminalOnValidation {α : Type} {x : Except PyException α} {e : PyException}
    (h : terminalOnValidation x = .error e) (hx : ∀ e, x = .error e → env.Origin e) :
    env.Origin e := by
  unfold terminalOnValidation at h
  split at h
  · next l =>
    by_cases hl : l.isValidation = true
    · rw [if_pos hl] at h
      obtain rfl := Except.error.inj h
      exact .validation l hl
    · rw [if_neg hl] at h
      obtain rfl := Except.error.inj h
      exact .untyped _ rfl rfl
  · exact hx e h

omit [FloatHex F] [Sha256] in
theorem origin_load {e : PyException} (h : awaited telemetryFailure env.load = .error e) :
    env.Origin e := by
  obtain ⟨e₀, hraises, rfl⟩ := awaited_eq_error h
  exact .load e₀ hraises

theorem origin_baselineStage {policy : BaselinePolicy F}
    {telemetry : Except PyException (List (SignalBaselineInput F))} {e : PyException}
    (hload : env.load.reply = .ok telemetry)
    (h : baselineStage policy investigation telemetry = .error e) : env.Origin e := by
  apply origin_terminalOnDomain h
  intro e he
  simp only [bind_eq_error, liftDomain_eq_error, pure_ne_error, and_false, exists_false,
    or_false] at he
  rcases he with he | ⟨_, -, ⟨d, -, rfl⟩ | ⟨_, -, d, -, rfl⟩⟩
  · rw [he] at hload
    exact .value e (Or.inl (reply_eq_error hload))
  · exact .untyped _ rfl rfl
  · exact .untyped _ rfl rfl

omit [FloatHex F] [Sha256] in
theorem origin_proposal {e : PyException} (h : awaited providerFailure env.proposal = .error e) :
    env.Origin e := by
  obtain ⟨e₀, hraises, rfl⟩ := awaited_eq_error h
  exact .provider e₀ hraises

omit [FloatHex F] [Sha256] in
theorem origin_reply {e : PyException} (h : env.proposal.reply = .ok (.error e)) : env.Origin e :=
  .value e (Or.inr (Or.inl (reply_eq_error h)))

omit [FloatHex F] [Sha256] in
theorem origin_countTokens {proposal : LLMProposal} {e : PyException}
    (h : countTokens F proposal = .error e) : env.Origin e := by
  rw [countTokens_error h]
  exact .untyped _ rfl rfl

omit [FloatHex F] [Sha256] in
theorem origin_parseStage {proposal : LLMProposal} {allowed : Finset SignalKey} {e : PyException}
    (hreply : env.proposal.reply = .ok (.ok proposal))
    (h : parseStage env.limits proposal allowed = .error e) : env.Origin e := by
  apply origin_terminalOnValidation h
  intro e he
  rcases bind_eq_error.mp he with he | ⟨raw, -, he⟩
  · exact .value e (Or.inr (Or.inr ⟨proposal, reply_eq_ok hreply, he⟩))
  · exact .untyped e (parse_isPrivate he) (parse_isException he)

theorem origin_verifyStage {baseline : BaselineResult F} {ledger : MetricEvidenceLedger F}
    {document : HypothesisDocument} {e : PyException}
    (h : verifyStage baseline ledger document = .error e) : env.Origin e := by
  apply origin_terminalOnDomain h
  intro e he
  obtain ⟨d, -, rfl⟩ := liftDomain_eq_error.mp he
  exact .untyped _ rfl rfl

/-- **Where a failure of the pipeline comes from.** -/
theorem Worker.prepare_origin {e : PyException} (h : w.prepare env investigation = .error e) :
    env.Origin e := by
  simp only [Worker.prepare, bind_eq_error, awaited_eq_ok] at h
  rcases h with h | ⟨telemetry, hload, h | ⟨⟨baseline, ledger⟩, -, h | ⟨reply, hreply, h |
    ⟨proposal, hproposal, h | ⟨_, -, h | ⟨document, -, h⟩⟩⟩⟩⟩⟩
  · exact origin_load h
  · exact origin_baselineStage hload h
  · exact origin_proposal h
  · rw [h] at hreply
    exact origin_reply hreply
  · exact origin_countTokens h
  · rw [hproposal] at hreply
    exact origin_parseStage hreply h
  · exact origin_verifyStage h

omit [FloatHex F] [Sha256] in
theorem Environment.External.illTyped {e : PyException} (hexternal : env.External)
    (h : env.IllTyped e) : e.isPrivate = false := by
  rcases h with h | h | ⟨proposal, h, hraw⟩
  · have hload := hexternal.load
    rw [h] at hload
    exact hload
  · have hproposal := hexternal.proposal
    rw [h] at hproposal
    exact hproposal
  · exact hexternal.rawJson proposal e h hraw

/-- The model's port raises a failure that may pass. -/
def Environment.ProviderFails (env : Environment F) : Prop :=
  ∃ e code, env.proposal = .raises e ∧ providerFailure e = .retryableFailure code

omit [FloatHex F] [Sha256] in
/-- Only a provider failure is retried, when the ports do not raise the worker's exceptions. -/
theorem Environment.Origin.providerFails {code : Str} (hexternal : env.External)
    (h : env.Origin (.retryableFailure code)) : env.ProviderFails := by
  generalize he : PyException.retryableFailure code = e at h
  have hpublic : e.isPrivate ≠ false := by
    rw [← he]
    simp [PyException.isPrivate]
  cases h with
  | load e₀ h =>
    have hload := hexternal.load
    rw [h] at hload
    refine absurd ?_ hpublic
    unfold telemetryFailure at he ⊢
    split at he
    · cases he
    · rw [← he] at hload
      cases hload
  | provider e₀ h => exact ⟨e₀, code, h, he.symm⟩
  | value _ h =>
    exact absurd (hexternal.illTyped h) hpublic
  | domain => cases he
  | validation => cases he
  | untyped _ hprivate => exact absurd hprivate hpublic

omit [FloatHex F] [Sha256] in
theorem Environment.Origin.classified {e : PyException} (hexternal : env.External)
    (h : env.Origin e) : e.Classified := by
  cases h with
  | load e₀ h =>
    have hload := hexternal.load
    rw [h] at hload
    exact classified_telemetryFailure hload
  | provider e₀ h =>
    have hproposal := hexternal.proposal
    rw [h] at hproposal
    exact classified_providerFailure hproposal
  | value _ h =>
    exact classified_of_external (hexternal.illTyped h)
  | domain d => exact classified_domain d
  | validation l hl => exact classified_validation hl
  | untyped _ hprivate => exact classified_of_external hprivate

end origin

/-! ### What a call makes of the job it claims -/

/-- The service after a call. -/
def Service.next {F : Type} [PyFloat F] [FloatHex F] [Sha256] (s : Service F) (c : Call F) :
    Service F :=
  ⟨(c.session s.committed).shared, s.drawn ++ (c.session s.committed).drawn⟩

section turn
variable {F : Type} [PyFloat F] [FloatHex F] [Sha256] {w : Worker F} {env : Environment F}
  {S T : Tracked F} {drawn ids : List UUID}

/-- A call has claimed a job and left it in `status`; its attempt is recorded under `code`. -/
structure Turn (c : Claim w env S.store) (status : JobStatus) (code : Option Text) (T : Store) :
    Prop where
  jobs : ∃ t, T.jobs = S.store.jobs.set c.job.jobId.value (c.row.withStatus status t)
  attempts : ∃ n outcome, T.attempts = S.store.attempts.set env.attemptId
    (w.attemptRow env c.claimed (env.clock 1) n outcome code)
  ended : status = .succeeded ∨ status = .failed ∨ status = .queued
  /-- A job that is put back has failed with attempts left. -/
  left : status = .queued → ¬ w.maxAttempts ≤ (c.claimed.attemptCount : ℕ) ∧
    ∃ code, env.Origin (.retryableFailure code)
  /-- A job that is given up for a failure that may pass has no attempts left. -/
  spent : status = .failed → ∃ e text, code = some text ∧ env.Origin e ∧ text.1 = e.failureCode ∧
    ∀ code, e = .retryableFailure code → w.maxAttempts ≤ (c.claimed.attemptCount : ℕ)

theorem turn_of_effect (hlife : Lifecycle S.store drawn) (h : w.Effect env S true T ids) :
    ∃ (c : Claim w env S.store) (status : JobStatus) (code : Option Text),
      Turn c status code T.store ∧
      ids = [env.attemptId] := by
  cases h with
  | orphaned c t hnone =>
    obtain ⟨-, -, i, hi, htenant, -⟩ := c.alive hlife
    rw [InvestigationRepository.find?_eq_some.mpr ⟨hi, htenant⟩] at hnone
    cases hnone
  | cancelled c i t hfind hstatus =>
    obtain ⟨-, -, i', hi, htenant, -, hne, -⟩ := c.alive hlife
    rw [InvestigationRepository.find?_eq_some.mpr ⟨hi, htenant⟩] at hfind
    obtain rfl := Option.some.inj hfind
    exact absurd hstatus hne
  | succeeded c i p rows report t t' =>
    refine ⟨c, .succeeded, none, ⟨⟨t', rfl⟩, ⟨3, .succeeded, rfl⟩, Or.inl rfl, ?_, ?_⟩, rfl⟩
    · intro hqueued
      cases hqueued
    · intro hfailed
      cases hfailed
  | failed c i e n store code t t' hfind hstatus hends hexception hterminal hcode hdup =>
    obtain ⟨-, hjobs, hattempts, -, -⟩ := hends.same
    refine ⟨c, .failed, some code, ⟨⟨t', ?_⟩, ⟨n, .failed, ?_⟩, Or.inr (Or.inl rfl), ?_, ?_⟩, rfl⟩
    · rw [← hjobs]
      rfl
    · rw [← hattempts]
      rfl
    · intro hqueued
      cases hqueued
    · intro _
      refine ⟨e, code, rfl, ?_, hcode, hterminal⟩
      cases hends with
      | early _ hprepare => exact w.prepare_origin hprepare
      -- a conflict is no failure of the pipeline's own: it is recorded as an internal error
      | conflict => exact .untyped _ rfl rfl
  | retried c i code t t' hfind hstatus hprepare hleft hdup =>
    refine ⟨c, .queued, some code, ⟨⟨t', rfl⟩, ⟨2, .failed, rfl⟩, Or.inr (Or.inr rfl), ?_, ?_⟩, rfl⟩
    · intro _
      exact ⟨hleft, code.1, w.prepare_origin hprepare⟩
    · intro hfailed
      cases hfailed

omit [FloatHex F] [Sha256] in
/-- The row of the job then. -/
theorem Turn.row {c : Claim w env S.store} {status : JobStatus} {code : Option Text} {T : Store}
    (h : Turn c status code T) : ∃ t, T.jobs.get? c.job.jobId.value =
      some (c.row.withStatus status t) := by
  obtain ⟨t, hjobs⟩ := h.jobs
  exact ⟨t, by rw [hjobs, Dict.get?_set_self]⟩

omit [FloatHex F] [Sha256] in
/-- The other jobs are as they were. -/
theorem Turn.other {c : Claim w env S.store} {status : JobStatus} {code : Option Text} {T : Store}
    (h : Turn c status code T) {k : UUID} (hk : k ≠ c.job.jobId.value) :
    T.jobs.get? k = S.store.jobs.get? k := by
  obtain ⟨t, hjobs⟩ := h.jobs
  rw [hjobs, Dict.get?_set_ne _ _ hk]

end turn

/-! ### The limit of the job -/

/-- The limit of attempts on the row of a job is kept: no job has more, and one that ended with
    a provider failure has as many. -/
structure CapHonoured (S : Store) : Prop where
  most : ∀ j ∈ S.jobs.values, j.attemptCount ≤ j.maxAttempts
  spent : ∀ j ∈ S.jobs.values, j.status = .failed → ∀ a ∈ S.attempts.values, a.jobId = j.jobId →
    (a.attemptNumber : ℕ) = j.attemptCount →
    (∃ code, a.errorCode = some code ∧ code.1 ∈ retryCodes) → j.attemptCount = j.maxAttempts

/-- What the calls keep of it. -/
structure Capped (S : Store) : Prop where
  most : ∀ k j, S.jobs.get? k = some j → j.attemptCount ≤ j.maxAttempts
  /-- A job that waits has attempts left. -/
  left : ∀ k j, S.jobs.get? k = some j → j.status = .queued → j.attemptCount < j.maxAttempts
  spent : ∀ k j, S.jobs.get? k = some j → j.status = .failed → ∀ k' a, S.attempts.get? k' = some a →
    a.jobId = j.jobId → (a.attemptNumber : ℕ) = j.attemptCount →
    (∃ code, a.errorCode = some code ∧ code.1 ∈ retryCodes) → j.attemptCount = j.maxAttempts

theorem capped_empty : Capped Store.empty := by
  constructor <;> intros <;> simp_all [Store.empty]

theorem Capped.honoured {S : Store} (h : Capped S) : CapHonoured S where
  most j hj := by
    obtain ⟨k, hk⟩ := Dict.mem_values.mp hj
    exact h.most k j hk
  spent j hj hfailed a ha := by
    obtain ⟨k, hk⟩ := Dict.mem_values.mp hj
    obtain ⟨k', hk'⟩ := Dict.mem_values.mp ha
    exact h.spent k j hk hfailed k' a hk'

section capped
variable {F : Type} [PyFloat F] [FloatHex F] [Sha256] {w : Worker F} {env : Environment F}
  {S T : Tracked F} {drawn ids : List UUID}

/-- Where a provider failure is handled, the limits of the worker and of the job it claims agree
    on whether attempts are left. -/
def Call.KeepsCap (S : Store) : Call F → Prop
  | .create _ _ => True
  | .runOnce w env => env.External ∧ (env.ProviderFails → ∀ c : Claim w env S,
      (w.maxAttempts ≤ (c.claimed.attemptCount : ℕ) ↔
        (c.job.maxAttempts : ℕ) ≤ (c.claimed.attemptCount : ℕ)))

omit [PyFloat F] [FloatHex F] [Sha256] in
/-- A creation enqueues a job that has all its attempts. -/
theorem Capped.created {call : CreateCall} {id : InvestigationId} (hcapped : Capped S.store)
    (h : CreateInvestigation.Effect call S id T ids) : Capped T.store := by
  cases h with
  | replayed => exact hcapped
  | created record job hrecord hjob hkey hnew hnewJob =>
    obtain ⟨-, hrow⟩ := CreateInvestigation.jobRecord_eq_ok.mp hjob
    have hcount : job.attemptCount = 0 := by rw [hrow]
    have hqueued : job.status = .queued := by rw [hrow]
    have hpos := job.maxAttempts.pos
    have hcases : ∀ {k j}, (S.store.jobs.set job.jobId.value job).get? k = some j →
        j = job ∨ S.store.jobs.get? k = some j := by
      intro k j hj
      by_cases hk : k = job.jobId.value
      · rw [hk, Dict.get?_set_self] at hj
        exact Or.inl (Option.some.inj hj).symm
      · rw [Dict.get?_set_ne _ _ hk] at hj
        exact Or.inr hj
    constructor
    · intro k j hj
      rcases hcases hj with rfl | hj
      · omega
      · exact hcapped.most k j hj
    · intro k j hj hwaits
      rcases hcases hj with rfl | hj
      · omega
      · exact hcapped.left k j hj hwaits
    · intro k j hj hfailed
      rcases hcases hj with rfl | hj
      · rw [hqueued] at hfailed
        cases hfailed
      · exact hcapped.spent k j hj hfailed

omit [FloatHex F] [Sha256] in
/-- A call that claims a job keeps the limit of the job. -/
theorem Capped.turn {c : Claim w env S.store} {status : JobStatus} {code : Option Text} {T : Store}
    (hcapped : Capped S.store) (hlife : Lifecycle S.store drawn) (h : Turn c status code T)
    (hkeeps : Call.KeepsCap S.store (.runOnce w env)) : Capped T := by
  obtain ⟨hclaimed, hqueued, -⟩ := c.alive hlife
  obtain ⟨hexternal, hagree⟩ := hkeeps
  obtain ⟨t, hrow⟩ := h.row
  have hleft := hcapped.left _ _ hclaimed hqueued
  have hnumber : (c.claimed.attemptCount : ℕ) = c.job.attemptCount + 1 := Nat.succPNat_coe _
  have hcases : ∀ {k j}, T.jobs.get? k = some j →
      k = c.job.jobId.value ∧ j = c.row.withStatus status t ∨
        k ≠ c.job.jobId.value ∧ S.store.jobs.get? k = some j := by
    intro k j hj
    by_cases hk : k = c.job.jobId.value
    · rw [hk, hrow] at hj
      exact Or.inl ⟨hk, (Option.some.inj hj).symm⟩
    · rw [h.other hk] at hj
      exact Or.inr ⟨hk, hj⟩
  constructor
  · intro k j hj
    rcases hcases hj with ⟨-, rfl⟩ | ⟨-, hj⟩
    · exact hleft
    · exact hcapped.most k j hj
  · intro k j hj hwaits
    rcases hcases hj with ⟨-, rfl⟩ | ⟨-, hj⟩
    · obtain ⟨hmore, e, horigin⟩ := h.left hwaits
      have hless := mt (hagree (horigin.providerFails hexternal) c).mpr hmore
      show c.job.attemptCount + 1 < (c.job.maxAttempts : ℕ)
      omega
    · exact hcapped.left k j hj hwaits
  · intro k j hj hfailed k' a ha hjob hlast hretry
    obtain ⟨n, outcome, hattempts⟩ := h.attempts
    rw [hattempts] at ha
    by_cases hk' : k' = env.attemptId
    · rw [hk', Dict.get?_set_self] at ha
      obtain rfl := Option.some.inj ha
      rcases hcases hj with ⟨-, rfl⟩ | ⟨hk, hj⟩
      · -- the attempt of this call ended the job
        obtain ⟨e, text, rfl, horigin, htext, hspent⟩ := h.spent hfailed
        obtain ⟨text', heq, hretry⟩ := hretry
        obtain rfl : text = text' := Option.some.inj heq
        rw [htext] at hretry
        have he := PyException.Classified.retryable (horigin.classified hexternal) hretry
        rw [he] at horigin
        have hfull := (hagree (horigin.providerFails hexternal) c).mp (hspent _ he)
        show c.job.attemptCount + 1 = (c.job.maxAttempts : ℕ)
        omega
      · have hid : c.job.jobId = j.jobId := hjob
        have hkey : k = j.jobId.value := hlife.jobsKeyed k j hj
        rw [hkey, ← hid] at hk
        exact absurd rfl hk
    · rw [Dict.get?_set_ne _ _ hk'] at ha
      rcases hcases hj with ⟨-, rfl⟩ | ⟨-, hj⟩
      · -- the attempts before have smaller numbers
        obtain ⟨j', hj', -, hle, -⟩ := hlife.attempt k' a ha
        rw [show a.jobId = c.job.jobId from hjob, hclaimed] at hj'
        obtain rfl := Option.some.inj hj'
        have hcount : (a.attemptNumber : ℕ) = c.job.attemptCount + 1 := hlast
        omega
      · exact hcapped.spent k j hj hfailed k' a ha hjob hlast hretry

variable [LawfulPyFloat F]

/-- One call keeps the limits. -/
theorem capped_step {s s' : Service F} {c : Call F} (hcapped : Capped s.committed.store)
    (hlife : Lifecycle s.committed.store s.drawn) (hstep : Service.step s c s')
    (hkeeps : c.KeepsCap s.committed.store) : Capped s'.committed.store := by
  obtain ⟨ids, -, -, hcommits⟩ :=
    commits_of_step hlife.investigationsKeyed hlife.investigationsDrawn hstep
  generalize s'.committed = T at hcommits
  cases hcommits with
  | nothing => exact hcapped
  | created call env id _ _ heffect => exact hcapped.created heffect
  | ran w env r _ _ heffect =>
    cases r with
    | false =>
      obtain rfl := eq_of_effect_false heffect
      exact hcapped
    | true =>
      obtain ⟨c, status, code, hturn, -⟩ := turn_of_effect hlife heffect
      exact hcapped.turn hlife hturn hkeeps

variable (F) in
/-- The service when the limits agree. -/
def Service.cappedSystem : System (Service F) (Call F) where
  init := (Service.system F).init
  step s c s' := Service.step s c s' ∧ c.KeepsCap s.committed.store

end capped

/-- **The limit of attempts on a job is kept where the workers have the same.** In every run of
    creations and of calls of workers, whatever their limits, in which each call keeps the cap,
    no job has more attempts than its own limit, and a job that ended with a provider
    failure has used them up. -/
theorem attempt_cap_honoured {F : Type} [PyFloat F] [LawfulPyFloat F] [FloatHex F] [Sha256]
    {s : Service F} (h : Reachable (Service.cappedSystem F) s) : CapHonoured s.committed.store := by
  have hinvariant : Lifecycle s.committed.store s.drawn ∧ Capped s.committed.store := by
    refine h.invariant (P := fun s => Lifecycle s.committed.store s.drawn ∧ Capped s.committed.store)
      ?_ ?_
    · intro s hinit
      obtain rfl : s = ⟨Tracked.empty, []⟩ := hinit
      exact ⟨lifecycle_empty, capped_empty⟩
    · intro s c s' hs hstep
      obtain ⟨hservice, hkeeps⟩ := hstep
      exact ⟨lifecycle_step hs.1 hservice, capped_step hs.2 hs.1 hservice hkeeps⟩
  exact hinvariant.2.honoured

namespace Demo

/-- The telemetry source has no series, and the model does not answer in time. -/
def timingOut : Environment ExactFloat := { noTelemetry with load := .returns [] }

theorem timingOut_external : timingOut.External :=
  ⟨trivial, rfl, by intro _ _ h; cases h⟩

/-- A worker that tries a job once. -/
def impatient : Worker ExactFloat := { worker with maxAttempts := 1 }

/-- A job with three attempts, tried once. -/
def givenUp : Service ExactFloat := after impatient timingOut

theorem givenUp_reachable : Reachable (Service.system ExactFloat) givenUp :=
  createdService_reachable.step (after_step impatient timingOut (by decide +kernel))

/-- An investigation that is to be tried once. -/
def createOnce : Call ExactFloat := .create { createCall true with maxAttempts := 1 } calm

/-- The next call of the worker draws another id. -/
def timingOutAgain : Environment ExactFloat := { timingOut with attemptId := ⟨6, by decide⟩ }

/-- A job with one attempt, tried twice. -/
def triedAgain : Service ExactFloat :=
  [createOnce, .runOnce worker timingOut, .runOnce worker timingOutAgain].foldl Service.next
    ⟨Tracked.empty, []⟩

theorem triedAgain_reachable : Reachable (Service.system ExactFloat) triedAgain :=
  ⟨_, [createOnce, .runOnce worker timingOut, .runOnce worker timingOutAgain], rfl,
    .cons ⟨by simp [createOnce, Call.Fresh], by decide +kernel, rfl⟩ <|
      .cons ⟨trivial, by decide +kernel, rfl⟩ <|
        .cons ⟨trivial, by decide +kernel, rfl⟩ (.nil _)⟩

end Demo

open Demo in
/-- A worker with the limit of the job. -/
theorem attempt_cap_honoured_demo : CapHonoured (after worker timingOut).committed.store := by
  have hcreate : (Service.cappedSystem ExactFloat).step ⟨Tracked.empty, []⟩
      (.create (createCall true) calm) createdService := ⟨createdService_step, trivial⟩
  have hrun : (Service.cappedSystem ExactFloat).step createdService (.runOnce worker timingOut)
      (after worker timingOut) := by
    refine ⟨after_step worker timingOut (by decide +kernel), timingOut_external, fun _ c => ?_⟩
    obtain ⟨hjob, -, -⟩ := c.same (firstClaim timingOut rfl) ⟨rfl, rfl, rfl⟩ rfl
    have hnumber : (c.claimed.attemptCount : ℕ) = c.job.attemptCount + 1 := Nat.succPNat_coe _
    rw [hnumber, hjob]
    decide +kernel
  exact attempt_cap_honoured ⟨_, _, rfl, .cons hcreate (.cons hrun (.nil _))⟩

open Demo in
/-- A worker with a smaller limit fails a job that has attempts left, and one with a larger limit
    tries a job more often than the job allows. -/
theorem attempt_cap_not_honoured :
    (Reachable (Service.system ExactFloat) givenUp ∧ ∃ j ∈ givenUp.committed.store.jobs.values,
      ∃ a ∈ givenUp.committed.store.attempts.values, j.status = .failed ∧ a.jobId = j.jobId ∧
        (a.attemptNumber : ℕ) = j.attemptCount ∧
        a.errorCode.map Subtype.val = some (str "provider_timeout") ∧
        j.attemptCount < j.maxAttempts) ∧
      Reachable (Service.system ExactFloat) triedAgain ∧
        ∃ j ∈ triedAgain.committed.store.jobs.values, j.maxAttempts < j.attemptCount := by
  refine ⟨⟨givenUp_reachable, ?_⟩, triedAgain_reachable, ?_⟩
  · decide +kernel
  · decide +kernel

end IncidentEvidence
