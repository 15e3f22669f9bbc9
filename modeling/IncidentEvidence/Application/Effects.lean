import IncidentEvidence.Application.WorkerSpecs

/-! # What one call commits

    Over the in-memory store a call of `run_once` that raises leaves the committed
    tables as they were, and one that returns has made one of six changes
    (`Worker.Effect`, `runOnce_effect`). What is proved about runs is proved from
    this list and not from the code.
-/

namespace IncidentEvidence

open Py Py.Action

section effect
variable {F : Type} [PyFloat F] [FloatHex F] [Sha256]

/-! ### The changes -/

/-- The job a call claims. -/
structure Claim (w : Worker F) (env : Environment F) (store : Store) where
  job : JobRecord
  rest : List JobRecord
  expiry : Datetime
  first : JobQueue.eligible store (env.clock 0) = job :: rest
  lease : (env.clock 0).add w.lease = some expiry

/-- Its row then. -/
def Claim.row {w : Worker F} {env : Environment F} {store : Store} (c : Claim w env store) :
    JobRecord :=
  JobQueue.claimedRow c.job w.workerId (env.clock 0) c.expiry

/-- What the worker has of it. -/
def Claim.claimed {w : Worker F} {env : Environment F} {store : Store} (c : Claim w env store) :
    ClaimedJob :=
  JobQueue.claimedJob c.job w.workerId c.expiry

/-- Workers with the same settings, up to the policy. -/
structure SameSettings (w w' : Worker F) : Prop where
  workerId : w.workerId = w'.workerId
  lease : w.lease = w'.lease
  maxAttempts : w.maxAttempts = w'.maxAttempts

omit [FloatHex F] [Sha256] in
/-- Two calls at the same time claim the same job. -/
theorem Claim.same {w w' : Worker F} {env env' : Environment F} {store : Store}
    (claim : Claim w env store) (claim' : Claim w' env' store) (hw : SameSettings w w')
    (hclock : env.clock = env'.clock) :
    claim.job = claim'.job ∧ claim.row = claim'.row ∧ claim.claimed = claim'.claimed := by
  obtain ⟨job, rest, expiry, first, lease⟩ := claim
  obtain ⟨job', rest', expiry', first', lease'⟩ := claim'
  rw [hclock, first'] at first
  obtain ⟨rfl, rfl⟩ := List.cons_eq_cons.mp first
  rw [hclock, hw.lease, lease'] at lease
  obtain rfl := Option.some.inj lease
  refine ⟨rfl, ?_, ?_⟩
  · simp only [Claim.row, hw.workerId, hclock]
  · simp only [Claim.claimed, hw.workerId]

/-- The code a failure is recorded under. -/
def PyException.failureCode : PyException → Str
  | .terminalFailure code | .retryableFailure code => code
  | _ => str "internal_error"

namespace Worker

variable (w : Worker F) (env : Environment F)

/-- An exception that leaves the pipeline of an investigation, how often the clock was read by
    then, and the tables. -/
inductive Ends (store : Store) (investigation : InvestigationRecord) :
    PyException → ℕ → Store → Prop where
  /-- A stage before `persist` raises. -/
  | early (e : PyException) (hprepare : w.prepare env investigation = .error e) :
      Ends store investigation e 2 store
  /-- The rows are appended, and the investigation has a report already. -/
  | conflict (p : Prepared F) (rows : List EvidenceRecord) (hmade : p.Made w env investigation)
      (hrows : List.Forall₂ (RowOf investigation (env.clock 2)) p.ledger.entries rows)
      (hreport : (store.reports.get? investigation.investigationId.value).isSome = true) :
      Ends store investigation idempotencyConflict 3 (store.withRows rows)

/-- The tables after a failure that is retried. -/
def retriedStore (store : Store) (claimed : ClaimedJob) (started : Datetime) (n : ℕ) (code : Text)
    (investigation : InvestigationRecord) (job : JobRecord) : Store :=
  { w.attemptedStore env store claimed started n .failed (some code) job with
    investigations := store.investigations.set claimed.investigationId.value investigation }

/-- The tables after a success. -/
def succeededStore (store : Store) (claimed : ClaimedJob) (started : Datetime)
    (investigation : InvestigationRecord) (job : JobRecord) (rows : List EvidenceRecord)
    (report : ReportRecord) (now : Datetime) (n : ℕ) : Store :=
  w.attemptedStore env (w.persistedStore store investigation investigation rows report now) claimed
    started n .succeeded none job

/-- What a call that returns has committed, and the ids it drew. -/
inductive Effect (S : Tracked F) : Bool → Tracked F → List UUID → Prop where
  /-- No job can be claimed. -/
  | idle (hnone : JobQueue.eligible S.store (env.clock 0) = []) : Effect S false S []
  /-- The tenant of the job has no such investigation. -/
  | orphaned (c : Claim w env S.store) (t : Datetime)
      (hnone : InvestigationRepository.find? S.store c.job.tenant c.job.investigationId = none) :
      Effect S true (S.withStore { S.store with
        jobs := S.store.jobs.set c.job.jobId.value (c.row.withStatus .failed t) }) []
  | cancelled (c : Claim w env S.store) (investigation : InvestigationRecord) (t : Datetime)
      (hfind : InvestigationRepository.find? S.store c.job.tenant c.job.investigationId =
        some investigation)
      (hstatus : investigation.status = .cancelled) :
      Effect S true (S.withStore { S.store with
        jobs := S.store.jobs.set c.job.jobId.value (c.row.withStatus .cancelled t) }) []
  | succeeded (c : Claim w env S.store) (investigation : InvestigationRecord) (p : Prepared F)
      (rows : List EvidenceRecord) (report : ReportRecord) (t t' : Datetime)
      (hfind : InvestigationRepository.find? S.store c.job.tenant c.job.investigationId =
        some investigation)
      (hstatus : investigation.status ≠ .cancelled)
      (hmade : p.Made w env investigation)
      (hrows : List.Forall₂ (RowOf investigation (env.clock 2)) p.ledger.entries rows)
      (hreport : ReportOf investigation (env.clock 2) p report)
      (hnone : S.store.reports.get? investigation.investigationId.value = none)
      (hdup : AttemptRepository.duplicate S.store
        (w.attemptRow env c.claimed (env.clock 1) 3 .succeeded none) = false) :
      Effect S true ⟨w.succeededStore env S.store c.claimed (env.clock 1)
        (investigation.withStatus .succeeded t) (c.row.withStatus .succeeded t') rows report
        (env.clock 2) 3,
        S.provenance.set investigation.investigationId.value p.toProvenance⟩ [env.attemptId]
  | failed (c : Claim w env S.store) (investigation : InvestigationRecord) (e : PyException)
      (n : ℕ) (store : Store) (code : Text) (t t' : Datetime)
      (hfind : InvestigationRepository.find? S.store c.job.tenant c.job.investigationId =
        some investigation)
      (hstatus : investigation.status ≠ .cancelled)
      (hends : w.Ends env S.store investigation e n store)
      (hexception : e.isException = true)
      (hterminal : ∀ code, e = .retryableFailure code → w.maxAttempts ≤ (c.claimed.attemptCount : ℕ))
      (hcode : code.1 = e.failureCode)
      (hdup : AttemptRepository.duplicate S.store
        (w.attemptRow env c.claimed (env.clock 1) n .failed (some code)) = false) :
      Effect S true (S.withStore (w.failedStore env store c.claimed (env.clock 1) n code
        (investigation.withStatus .failed t) (c.row.withStatus .failed t'))) [env.attemptId]
  | retried (c : Claim w env S.store) (investigation : InvestigationRecord) (code : Text)
      (t t' : Datetime)
      (hfind : InvestigationRepository.find? S.store c.job.tenant c.job.investigationId =
        some investigation)
      (hstatus : investigation.status ≠ .cancelled)
      (hprepare : w.prepare env investigation = .error (.retryableFailure code.1))
      (hleft : ¬ w.maxAttempts ≤ (c.claimed.attemptCount : ℕ))
      (hdup : AttemptRepository.duplicate S.store
        (w.attemptRow env c.claimed (env.clock 1) 2 .failed (some code)) = false) :
      Effect S true (S.withStore (w.retriedStore env S.store c.claimed (env.clock 1) 2 code
        (investigation.withStatus .running t) (c.row.withStatus .queued t'))) [env.attemptId]

end Worker

/-! ### The handlers -/

section handlers
variable {w : Worker F} {env : Environment F} {S : Tracked F} {s : Session F}
  {investigation : InvestigationRecord} {t : Datetime}

/-- The tables while the pipeline of a claimed job runs. -/
def Claim.runningStore {base : Store} (c : Claim w env base) (store : Store)
    (investigation : InvestigationRecord) : Store :=
  { store with
    investigations := store.investigations.set c.job.investigationId.value investigation
    jobs := store.jobs.set c.job.jobId.value c.row }

omit [FloatHex F] [Sha256] in
/-- The rows of the investigation and the job are written over. -/
theorem Claim.overwrite {base : Store} (c : Claim w env base) (store : Store)
    (i i' : InvestigationRecord) (j : JobRecord) :
    (c.runningStore store i).investigations.set c.claimed.investigationId.value i' =
        store.investigations.set c.claimed.investigationId.value i' ∧
      (c.runningStore store i).jobs.set c.claimed.jobId.value j =
        store.jobs.set c.claimed.jobId.value j :=
  ⟨Dict.set_set _ _ _ _, Dict.set_set _ _ _ _⟩

/-- A pipeline that ends has changed the evidence at most. -/
theorem Worker.Ends.same {base store : Store} {e : PyException} {n : ℕ}
    (h : w.Ends env base investigation e n store) :
    store.investigations = base.investigations ∧ store.jobs = base.jobs ∧
      store.attempts = base.attempts ∧ store.reports = base.reports ∧ store.audit = base.audit := by
  cases h with
  | early => exact ⟨rfl, rfl, rfl, rfl, rfl⟩
  | conflict => exact ⟨rfl, rfl, rfl, rfl, rfl⟩

/-- What is known of the session in which the pipeline of a claimed job has ended. -/
structure Claim.Ended (c : Claim w env S.store) (investigation : InvestigationRecord)
    (e : PyException) (s : Session F) : Prop where
  found : InvestigationRepository.find? S.store c.job.tenant c.job.investigationId =
    some investigation
  status : investigation.status ≠ .cancelled
  drawn : s.drawn = []
  working : ∃ n store t, w.Ends env S.store investigation e n store ∧ s.readings = n ∧
    s.working = S.withStore (c.runningStore store (investigation.withStatus .running t))

/-- The transaction of a call that is about to commit. -/
def Worker.Ready (w : Worker F) (env : Environment F) (S : Tracked F) (s s' : Session F) : Prop :=
  s'.shared = s.shared ∧ w.Effect env S true s'.working s'.drawn

theorem terminal_ready {c : Claim w env S.store} {e : PyException}
    (h : c.Ended investigation e s) (hexception : e.isException = true)
    (hterminal : ∀ code, e = .retryableFailure code → w.maxAttempts ≤ (c.claimed.attemptCount : ℕ)) :
    Wp (w.terminalFail .memory env c.claimed (env.clock 1) e.failureCode) s
      (fun _ s' => w.Ready env S s s') (Undone s) := by
  obtain ⟨n, store, t, hends, rfl, hworking⟩ := h.working
  obtain ⟨-, htenant⟩ := InvestigationRepository.find?_eq_some.mp h.found
  have hrunning : InvestigationRepository.find? s.working.store c.claimed.tenant
      c.claimed.investigationId = some (investigation.withStatus .running t) := by
    rw [hworking]
    exact InvestigationRepository.find?_eq_some.mpr ⟨Dict.get?_set_self _ _ _, htenant⟩
  have hjob : JobQueue.find? s.working.store c.claimed.tenant c.claimed.jobId = some c.row := by
    rw [hworking]
    exact JobQueue.find?_eq_some.mpr ⟨Dict.get?_set_self _ _ _, rfl⟩
  apply (terminalFail_spec hrunning hjob).mono
  · intro _ s' hdone
    obtain ⟨detail, t₁, t₂, hcode, hdup, hafter⟩ := hdone
    refine ⟨hafter.shared, ?_⟩
    -- the failed rows overwrite the running ones, so the tables are as if they had never been
    have hstore : s'.working = S.withStore (w.failedStore env store c.claimed (env.clock 1) s.readings
        detail (investigation.withStatus .failed t₁) (c.row.withStatus .failed t₂)) := by
      obtain ⟨hinvestigations, hjobs⟩ := c.overwrite store (investigation.withStatus .running t)
        (investigation.withStatus .failed t₁) (c.row.withStatus .failed t₂)
      rw [hafter.working, hworking]
      unfold Worker.failedStore Worker.attemptedStore
      simp only [Tracked.withStore, hjobs]
      rw [← hinvestigations]
      rfl
    rw [hstore, hafter.drawn, h.drawn]
    refine .failed c investigation e s.readings store detail t₁ t₂ h.found h.status hends
      hexception hterminal hcode ?_
    -- the failing pipeline has recorded no attempt
    rw [hworking] at hdup
    rw [← hdup]
    show _ = (c.runningStore store _).attempts.values.any _
    rw [show (c.runningStore store (investigation.withStatus .running t)).attempts =
      S.store.attempts from hends.same.2.2.1]
    rfl
  · intro _ _ hundone
    exact hundone

/-- A job that is put back has read nothing more and written nothing. -/
theorem retry_ready {c : Claim w env S.store} {code : Str}
    (h : c.Ended investigation (.retryableFailure code) s) :
    Wp (w.retryOrFail .memory env c.claimed (env.clock 1) code) s
      (fun _ s' => w.Ready env S s s') (Undone s) := by
  unfold Worker.retryOrFail
  rw [wp_ite]
  refine ⟨fun hlimit => ?_, fun hleft => ?_⟩
  · have hterminal := terminal_ready h rfl fun _ _ => hlimit
    exact hterminal
  · obtain ⟨n, store, t, hends, hreadings, hworking⟩ := h.working
    obtain ⟨-, htenant⟩ := InvestigationRepository.find?_eq_some.mp h.found
    -- a retryable failure is raised before `persist`, never by a conflict
    cases hends with
    | early _ hprepare =>
      have hjob : JobQueue.find? s.working.store c.claimed.tenant c.claimed.jobId = some c.row := by
        rw [hworking]
        exact JobQueue.find?_eq_some.mpr ⟨Dict.get?_set_self _ _ _, rfl⟩
      simp only [wp_bind]
      refine wp_setJobStatus hjob (fun _ hs => hs) fun t' s₁ h₁ => ?_
      apply (recordAttempt_spec .failed (some code)).mono
      · intro _ s₂ h₂
        obtain ⟨errorCode, hcode, hdup, h₂⟩ := h₂
        obtain ⟨text, rfl, rfl⟩ := Option.map_eq_some_iff.mp hcode
        have hclock : s₁.readings = 2 := h₁.readings.trans hreadings
        rw [hclock] at hdup h₂
        refine ⟨h₂.shared.trans h₁.shared, ?_⟩
        have hstore : s₂.working = S.withStore (w.retriedStore env S.store c.claimed (env.clock 1) 2
            text (investigation.withStatus .running t) (c.row.withStatus .queued t')) := by
          obtain ⟨-, hjobs⟩ := c.overwrite S.store (investigation.withStatus .running t)
            (investigation.withStatus .running t) (c.row.withStatus .queued t')
          rw [h₂.working, h₁.working, hworking]
          unfold Worker.retriedStore Worker.attemptedStore
          simp only [Tracked.withStore]
          rw [← hjobs]
          rfl
        rw [hstore, h₂.drawn, h₁.drawn, h.drawn]
        refine .retried c investigation text t t' h.found h.status hprepare hleft ?_
        rw [h₁.working, hworking] at hdup
        exact hdup
      · intro _ _ hundone
        exact hundone.trans h₁.shared

/-- The `except` clauses commit a failure or a retry. -/
theorem handle_ready {c : Claim w env S.store} {e : PyException} (h : c.Ended investigation e s) :
    Wp (w.handle .memory env c.claimed (env.clock 1) e) s
      (fun _ s' => w.Ready env S s s') (Undone s) := by
  unfold Worker.handle
  split
  · next code =>
    have hterminal := terminal_ready h rfl fun _ heq => absurd heq (by simp)
    exact hterminal
  · next code => exact retry_ready h
  · next hterminal hretryable =>
    have hcode : e.failureCode = str "internal_error" := by
      unfold PyException.failureCode
      split
      · next code => exact absurd rfl (hterminal code)
      · next code => exact absurd rfl (hretryable code)
      · rfl
    rw [wp_ite, wp_throw]
    refine ⟨fun hexception => ?_, fun _ => rfl⟩
    rw [← hcode]
    exact terminal_ready h hexception fun code heq => absurd heq (hretryable code)

variable [LawfulPyFloat F]

omit [LawfulPyFloat F] in
/-- A pipeline that stops was cancelled or has ended. -/
theorem ended_of_stops {c : Claim w env S.store} {e : PyException} {s' : Session F}
    (hfound : InvestigationRepository.find? S.store c.job.tenant c.job.investigationId =
      some investigation)
    (hstatus : investigation.status ≠ .cancelled) (hdrawn : s.drawn = []) (hreadings : s.readings = 2)
    (hworking : s.working = S.withStore (c.runningStore S.store (investigation.withStatus .running t)))
    (h : w.Stops env investigation s e s') : e = .cancelled ∨ c.Ended investigation e s' := by
  cases h with
  | cancelled => exact Or.inl rfl
  | early _ _ hprepare h₁ =>
    exact Or.inr ⟨hfound, hstatus, by rw [h₁.drawn, hdrawn]; rfl, 2, S.store, t,
      .early e hprepare, h₁.readings.trans hreadings, h₁.working.trans hworking⟩
  | conflict _ p rows hmade hrows hreport h₁ =>
    -- `persist` has read the clock once more
    rw [hreadings] at hrows
    refine Or.inr ⟨hfound, hstatus, by rw [h₁.drawn, hdrawn]; rfl, 3, S.store.withRows rows, t,
      .conflict p rows hmade hrows ?_, by rw [h₁.readings, hreadings], ?_⟩
    · rw [hworking] at hreport
      exact hreport
    · rw [h₁.working, hworking]
      rfl

/-- The pipeline of a claimed job, and what the worker makes of its end. -/
theorem process_ready {c : Claim w env S.store} (hkeyed : S.store.investigations.Keyed fun r => r.investigationId.value)
    (hfound : InvestigationRepository.find? S.store c.job.tenant c.job.investigationId =
      some investigation)
    (hstatus : investigation.status ≠ .cancelled) (hdrawn : s.drawn = []) (hreadings : s.readings = 2)
    (hworking : s.working = S.withStore (c.runningStore S.store (investigation.withStatus .running t))) :
    Wp (w.process .memory env c.claimed (env.clock 1) investigation) s
      (fun _ s' => w.Ready env S s s') (Undone s) := by
  obtain ⟨hget, htenant⟩ := InvestigationRepository.find?_eq_some.mp hfound
  have hid : investigation.investigationId = c.job.investigationId :=
    InvestigationId.ext (hkeyed _ _ hget).symm
  have hcurrent : InvestigationRepository.find? s.working.store investigation.tenant
      investigation.investigationId = some (investigation.withStatus .running t) := by
    rw [hworking, hid]
    exact InvestigationRepository.find?_eq_some.mpr ⟨Dict.get?_set_self _ _ _, rfl⟩
  unfold Worker.process
  simp only [wp_bind, wp_attempt]
  apply (runPipeline_spec hcurrent).mono
  · intro _ s₁ h₁
    -- the `else` branch: the job has succeeded
    obtain ⟨p, rows, report, t₁, hmade, hrows, hreport, hnone, h₁⟩ := h₁
    have hjob : JobQueue.find? s₁.working.store c.claimed.tenant c.claimed.jobId = some c.row := by
      rw [h₁.working, hworking]
      exact JobQueue.find?_eq_some.mpr ⟨Dict.get?_set_self _ _ _, rfl⟩
    refine wp_setJobStatus hjob (fun _ h => h.trans h₁.shared) fun t₂ s₂ h₂ => ?_
    apply (recordAttempt_spec .succeeded none).mono
    · intro _ s₃ h₃
      obtain ⟨errorCode, hcode, hdup, h₃⟩ := h₃
      obtain rfl := Option.map_eq_none_iff.mp hcode
      have hclock : s₂.readings = 3 := by rw [h₂.readings, h₁.readings, hreadings]
      rw [hclock] at hdup h₃
      rw [hreadings] at hrows hreport
      have hstore : s₃.working = ⟨w.succeededStore env S.store c.claimed (env.clock 1)
          (investigation.withStatus .succeeded t₁) (c.row.withStatus .succeeded t₂) rows report
          (env.clock 2) 3, S.provenance.set investigation.investigationId.value p.toProvenance⟩ := by
        obtain ⟨hinvestigations, hjobs⟩ := c.overwrite S.store (investigation.withStatus .running t)
          ((investigation.withStatus .running t).withStatus .succeeded t₁)
          (c.row.withStatus .succeeded t₂)
        rw [show c.claimed.investigationId = investigation.investigationId from hid.symm]
          at hinvestigations
        rw [h₃.working, h₂.working, h₁.working, hworking, hreadings]
        unfold Worker.succeededStore Worker.attemptedStore Worker.persistedStore
        simp only [Tracked.withStore]
        rw [hinvestigations, hjobs]
        rfl
      refine ⟨(h₃.shared.trans h₂.shared).trans h₁.shared, ?_⟩
      rw [hstore, h₃.drawn, h₂.drawn, h₁.drawn, hdrawn]
      refine .succeeded c investigation p rows report t₁ t₂ hfound hstatus hmade hrows hreport ?_ ?_
      · rw [hworking] at hnone
        exact hnone
      · rw [h₂.working, h₁.working, hworking] at hdup
        exact hdup
    · intro _ _ hundone
      exact (hundone.trans h₂.shared).trans h₁.shared
  · intro e s₁ h₁
    -- an exception of the pipeline goes to the handlers
    obtain ⟨hshared, hstops⟩ := h₁
    rcases ended_of_stops hfound hstatus hdrawn hreadings hworking hstops with rfl | hended
    · exact hshared
    · exact (handle_ready hended).mono (fun _ _ h => ⟨h.1.trans hshared, h.2⟩)
        fun _ _ h => h.trans hshared

/-! ### A whole call -/

omit [LawfulPyFloat F] in
/-- The commit of what a call is ready with. -/
theorem commit_ready {r : Bool} {ids : List UUID} {T : Tracked F} (hshared : s.shared = S)
    (hworking : s.working = T) (hdrawn : s.drawn = ids) (heffect : w.Effect env S r T ids) :
    Wp (do commit .memory env.toSurroundings; return r) s
      (fun a s' => w.Effect env S a s'.shared s'.drawn) (fun _ s' => s'.shared = S) := by
  refine wp_commitReturn hshared ?_
  show w.Effect env S r s.working s.drawn
  rw [hworking, hdrawn]
  exact heffect

/-- What follows the claim of a job. -/
theorem runClaimed_effect (c : Claim w env S.store)
    (hkeyed : S.store.investigations.Keyed fun r => r.investigationId.value)
    (hshared : s.shared = S) (hworking : s.working =
      S.withStore { S.store with jobs := S.store.jobs.set c.job.jobId.value c.row })
    (hdrawn : s.drawn = []) (hreadings : s.readings = 1) :
    Wp (w.runClaimed .memory env c.claimed) s (fun a s' => w.Effect env S a s'.shared s'.drawn)
      (fun _ s' => s'.shared = S) := by
  unfold Worker.runClaimed
  simp only [wp_bind, wp_attempt]
  refine wp_readClock fun s₁ h₁ => ?_
  rw [hreadings]
  have hrunning := h₁.working.trans hworking
  have hcancelled : ∀ s' : Session F, s'.shared = s₁.shared → s'.shared = S :=
    fun s' h => (h.trans h₁.shared).trans hshared
  have hfind : InvestigationRepository.find? s₁.working.store c.claimed.tenant
      c.claimed.investigationId =
        InvestigationRepository.find? S.store c.job.tenant c.job.investigationId := by
    rw [hrunning]
    rfl
  -- until it is written again, the row of the job is the claimed one
  have hjob : ∀ s' : Session F, s'.working = s₁.working →
      JobQueue.find? s'.working.store c.claimed.tenant c.claimed.jobId = some c.row := by
    intro s' h
    rw [h, hrunning]
    exact JobQueue.find?_eq_some.mpr ⟨Dict.get?_set_self _ _ _, rfl⟩
  have jobWritten : ∀ s' : Session F, s'.working = S.withStore { S.store with
        jobs := S.store.jobs.set c.job.jobId.value c.row } → ∀ t status,
      s'.working.withStore { s'.working.store with
        jobs := s'.working.store.jobs.set c.claimed.jobId.value (c.row.withStatus status t) } =
      S.withStore { S.store with
        jobs := S.store.jobs.set c.job.jobId.value (c.row.withStatus status t) } := by
    intro s' h t status
    rw [h]
    simp only [Tracked.withStore]
    rw [show c.claimed.jobId = c.job.jobId from rfl, Dict.set_set]
  have hnone : s₁.drawn = [] := by
    rw [h₁.drawn, hdrawn]
    rfl
  have hexec := InvestigationRepository.get_exec c.claimed.tenant c.claimed.investigationId
    s₁.working.store
  rw [hfind] at hexec
  unfold getInvestigation
  cases hfound : InvestigationRepository.find? S.store c.job.tenant c.job.investigationId with
  | none =>
    rw [hfound] at hexec
    -- `get` raises and the handler fails the job
    refine wp_statement_error (onStore_ok hexec) (hcancelled _ rfl) ?_
    show Wp (setJobStatus .memory env.toSurroundings c.claimed.tenant c.claimed.jobId .failed >>=
      fun _ => do commit .memory env.toSurroundings; return true) _ _ _
    rw [wp_bind]
    refine wp_setJobStatus (hjob _ rfl) (fun s' h => hcancelled s' h) fun t s₃ h₃ => ?_
    refine commit_ready (hcancelled _ h₃.shared) ?_ ?_ (.orphaned c t hfound)
    · rw [h₃.working]
      exact jobWritten s₁ hrunning t .failed
    · rw [h₃.drawn, List.append_nil]
      exact hnone
  | some investigation =>
    rw [hfound] at hexec
    refine wp_onStore hexec hcancelled fun s₂ h₂ => ?_
    have hworking₂ : s₂.working = s₁.working := h₂.working
    have hdrawn₂ : s₂.drawn = [] := by
      rw [h₂.drawn, hnone]
      rfl
    have hcancelled₂ : ∀ s' : Session F, s'.shared = s₂.shared → s'.shared = S :=
      fun s' h => hcancelled s' (h.trans h₂.shared)
    show Wp (if investigation.status = .cancelled then _ else _) s₂ _ _
    rw [wp_ite]
    refine ⟨fun hstatus => ?_, fun hstatus => ?_⟩
    -- a cancelled investigation: the job is cancelled as well
    · rw [wp_bind]
      refine wp_setJobStatus (hjob _ hworking₂) (fun s' h => hcancelled₂ s' h) fun t s₃ h₃ => ?_
      refine commit_ready (hcancelled₂ _ h₃.shared) ?_ ?_ (.cancelled c investigation t hfound hstatus)
      · rw [h₃.working]
        exact jobWritten s₂ (hworking₂.trans hrunning) t .cancelled
      · rw [h₃.drawn, hdrawn₂]
        rfl
    -- an open one is set running, and the pipeline begins
    · simp only [wp_bind]
      have hrecord : InvestigationRepository.find? s₂.working.store c.claimed.tenant
          c.claimed.investigationId = some investigation := by
        rw [hworking₂, hfind, hfound]
      refine wp_setInvestigationStatus hrecord (fun s' h => hcancelled₂ s' h) fun t s₃ h₃ => ?_
      have hready := @process_ready F _ _ _ w env S s₃ investigation t _ c hkeyed hfound hstatus
        (by rw [h₃.drawn, hdrawn₂]; rfl) (by rw [h₃.readings, h₂.readings, h₁.readings, hreadings])
        (by rw [h₃.working, hworking₂, hrunning]; rfl)
      apply hready.mono
      · intro _ s₄ h₄
        obtain ⟨hshared₄, heffect⟩ := h₄
        exact wp_bind.mp (commit_ready (hcancelled₂ _ (hshared₄.trans h₃.shared)) rfl rfl heffect)
      · intro _ s₄ h₄
        exact hcancelled₂ _ (h₄.trans h₃.shared)

/-- **What a call of `run_once` commits.** -/
theorem runOnce_effect (hkeyed : S.store.investigations.Keyed fun r => r.investigationId.value) :
    Wp (w.runOnce .memory env) (Session.start S) (fun a s' => w.Effect env S a s'.shared s'.drawn)
      (fun _ s' => s'.shared = S) := by
  unfold Worker.runOnce
  refine wp_scope rfl ?_
  simp only [wp_bind]
  refine wp_readClock fun s₁ h₁ => ?_
  have hexec := JobQueue.claim_exec w.workerId w.lease (env.clock 0) s₁.working.store
  have hstart : s₁.working = S := h₁.working
  have hcancelled : ∀ s' : Session F, s'.shared = s₁.shared → s'.shared = S :=
    fun s' h => h.trans h₁.shared
  have hdrawn : s₁.drawn = [] := h₁.drawn
  rw [hstart] at hexec
  cases hfirst : JobQueue.eligible S.store (env.clock 0) with
  | nil =>
    rw [hfirst, ← hstart] at hexec
    refine wp_onStore hexec hcancelled fun s₂ h₂ => ?_
    -- no job to claim: an empty transaction is committed
    refine commit_ready (hcancelled _ h₂.shared) ?_ ?_ (.idle hfirst)
    · rw [h₂.working, hstart]
      rfl
    · rw [h₂.drawn, hdrawn]
      rfl
  | cons job rest =>
    rw [hfirst] at hexec
    cases hlease : (env.clock 0).add w.lease with
    | none =>
      rw [hlease, ← hstart] at hexec
      -- the expiry is no datetime: `claim` raises, and nothing is committed
      exact wp_statement_error (onStore_ok hexec) (hcancelled _ rfl) (hcancelled _ rfl)
    | some expiry =>
      rw [hlease, ← hstart] at hexec
      let c : Claim w env S.store := ⟨job, rest, expiry, hfirst, hlease⟩
      refine wp_onStore hexec hcancelled fun s₂ h₂ => ?_
      refine runClaimed_effect c hkeyed (hcancelled _ h₂.shared) ?_ ?_ ?_
      · rw [h₂.working, hstart]
        rfl
      · rw [h₂.drawn, hdrawn]
        rfl
      · rw [h₂.readings, h₁.readings]
        rfl

end handlers

end effect

end IncidentEvidence
