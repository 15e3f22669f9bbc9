import IncidentEvidence.Application.Isolation

/-! # Poison jobs over PostgreSQL

    The handlers of `run_once` record a failure on the unit of work the pipeline has
    used. Over PostgreSQL a statement that failed has ended its transaction: the
    first statement of the handler is refused, the exception leaves the unit of
    work, and the claim is rolled back with everything else (`poison_job`). The job
    is as claimable as it was.
-/

namespace IncidentEvidence

open Py Py.Action

/-! ### A transaction that is over -/

section aborted
variable {F α : Type} {env : Surroundings} {s : Session F}

/-- No statement of it returns. -/
theorem wp_statement_aborted (haborted : s.aborted = true) (x : Action PyException (Tracked F) α) :
    Wp (statement .postgres env x) s (fun _ _ => False) (fun _ _ => True) := by
  unfold statement
  simp only [wp_bind, wp_get]
  apply wp_awaiting trivial
  unfold Postgres.statement
  simp only [wp_bind, wp_get]
  rw [if_pos (by exact haborted), wp_bind, wp_throw]
  trivial

theorem wp_setInvestigationStatus_aborted (haborted : s.aborted = true) (tenant : TenantId)
    (id : InvestigationId) (status : InvestigationStatus) :
    Wp (setInvestigationStatus .postgres env tenant id status) s (fun _ _ => False)
      (fun _ _ => True) := by
  unfold setInvestigationStatus systemNow
  simp only [wp_bind, wp_get, wp_set, wp_pure]
  apply wp_statement_aborted
  exact haborted

theorem wp_setJobStatus_aborted (haborted : s.aborted = true) (tenant : TenantId) (id : JobId)
    (status : JobStatus) :
    Wp (setJobStatus .postgres env tenant id status) s (fun _ _ => False) (fun _ _ => True) := by
  unfold setJobStatus systemNow
  simp only [wp_bind, wp_get, wp_set, wp_pure]
  apply wp_statement_aborted
  exact haborted

/-- A statement that is refused ends it. -/
theorem wp_statement_refused {x : Action PyException (Tracked F) α} {ok : α → Session F → Prop}
    {err : PyException → Session F → Prop} (hcancelled : env.cancelled s.awaits = false)
    (hfails : env.fails s.awaits = true) (haborted : s.aborted = false)
    (herr : err .database { s.awaited with aborted := true }) :
    Wp (statement .postgres env x) s ok err := by
  unfold statement
  simp only [wp_bind, wp_get]
  apply wp_awaiting_granted hcancelled
  unfold Postgres.statement
  simp only [wp_bind, wp_get]
  have hopen : ¬ s.awaited.aborted = true := by
    show ¬ s.aborted = true
    rw [haborted]
    decide
  rw [if_neg hopen, if_pos hfails, wp_bind]
  unfold abort
  rw [wp_modify, wp_bind, wp_throw]
  exact herr

/-- What starts with a computation that does not return does not return. -/
theorem wp_bind_false {β : Type} {x : Action PyException (Session F) β}
    {f : β → Action PyException (Session F) α}
    (h : Wp x s (fun _ _ => False) (fun _ _ => True)) :
    Wp (x >>= f) s (fun _ _ => False) (fun _ _ => True) := by
  rw [wp_bind]
  exact h.mono (fun _ _ hfalse => hfalse.elim) fun _ _ _ => trivial

end aborted

/-! ### The handlers -/

section handlers
variable {F : Type} [PyFloat F] [FloatHex F] [Sha256] {w : Worker F} {env : Environment F}
  {s : Session F} {claimed : ClaimedJob} {started : Datetime}

omit [FloatHex F] [Sha256] in
theorem terminalFail_aborted (haborted : s.aborted = true) (code : Str) :
    Wp (w.terminalFail .postgres env claimed started code) s (fun _ _ => False) (fun _ _ => True) :=
  wp_bind_false (wp_setInvestigationStatus_aborted haborted _ _ _)

omit [FloatHex F] [Sha256] in
theorem retryOrFail_aborted (haborted : s.aborted = true) (code : Str) :
    Wp (w.retryOrFail .postgres env claimed started code) s (fun _ _ => False) (fun _ _ => True) := by
  unfold Worker.retryOrFail
  rw [wp_ite]
  constructor
  · intro _
    exact terminalFail_aborted haborted code
  · intro _
    exact wp_bind_false (wp_setJobStatus_aborted haborted _ _ _)

omit [FloatHex F] [Sha256] in
/-- No handler gets through. -/
theorem handle_aborted (haborted : s.aborted = true) (e : PyException) :
    Wp (w.handle .postgres env claimed started e) s (fun _ _ => False) (fun _ _ => True) := by
  unfold Worker.handle
  split
  · exact terminalFail_aborted haborted _
  · exact retryOrFail_aborted haborted _
  · rw [wp_ite]
    exact ⟨fun _ => terminalFail_aborted haborted _, fun _ => trivial⟩

/-- A repository call of the pipeline fails with a database error. -/
def Worker.DatabaseFailure (w : Worker F) (env : Environment F) (investigation : InvestigationRecord)
    (s : Session F) : Prop :=
  ((w.runPipeline .postgres env investigation).exec s).2.aborted = true

/-- The bookkeeping of a call does not get through after such a failure. -/
theorem process_aborted {investigation : InvestigationRecord}
    (hfailure : w.DatabaseFailure env investigation s) :
    Wp (w.process .postgres env claimed started investigation) s (fun _ _ => False)
      (fun _ _ => True) := by
  unfold Worker.process
  rw [wp_bind, wp_attempt]
  refine wp_of_final (P := fun s' => s'.aborted = true) hfailure ?_ ?_
  · intro _ s' haborted
    exact wp_bind_false (wp_setJobStatus_aborted haborted _ _ _)
  · intro e s' haborted
    exact handle_aborted haborted e

/-- The committed tables are those before. -/
theorem keeps_runPipeline (backend : Backend) (investigation : InvestigationRecord) :
    Keeps Session.shared (w.runPipeline backend env investigation) := by
  have hawaiting : Keeps (Session.shared (F := F)) (awaiting env.toSurroundings) :=
    keeps_awaiting.comp Prod.fst
  unfold Worker.runPipeline
  refine hawaiting.bind fun _ => ?_
  refine (Keeps.lift _).bind fun telemetry => ?_
  refine (Keeps.lift _).bind fun stage => ?_
  refine hawaiting.bind fun _ => ?_
  refine Keeps.bind (fun _ => rfl) fun _ => ?_
  refine (Keeps.lift _).bind fun reply => ?_
  refine (Keeps.lift _).bind fun proposal => ?_
  refine (Keeps.lift _).bind fun _ => ?_
  refine (Keeps.lift _).bind fun document => ?_
  refine (Keeps.lift _).bind fun prepared => ?_
  exact (Worker.keeps_persist investigation prepared).comp Prod.fst

theorem keeps_process (backend : Backend) (claimed : ClaimedJob) (started : Datetime)
    (investigation : InvestigationRecord) :
    Keeps Session.shared (w.process backend env claimed started investigation) := by
  unfold Worker.process
  refine (keeps_runPipeline backend investigation).attempt.bind fun r => ?_
  cases r with
  | error e => exact (Worker.keeps_handle claimed started e).comp Prod.fst
  | ok _ =>
    refine ((keeps_setJobStatus _ _ _).comp Prod.fst).bind fun _ => ?_
    exact (Worker.keeps_recordAttempt _ _ _ _).comp Prod.fst

end handlers

/-! ### The claim is rolled back -/

/-- The job has failed, or another attempt is counted. -/
def Store.Advanced (store : Store) (job : JobRecord) : Prop :=
  ∃ row, store.jobs.get? job.jobId.value = some row ∧
    (row.status = .failed ∨ job.attemptCount < row.attemptCount)

section poison
variable {F : Type} [PyFloat F] [FloatHex F] [Sha256] {w : Worker F} {env : Environment F}
  {S : Tracked F} {investigation : InvestigationRecord}

/-- The committed tables after a call over PostgreSQL. -/
def Worker.afterRun (w : Worker F) (env : Environment F) (S : Tracked F) : Tracked F :=
  ((w.runOnce .postgres env).exec (Session.start S)).2.shared

omit [FloatHex F] [Sha256] in
/-- A job that can be claimed has not advanced. -/
theorem not_advanced (hfiled : S.store.Filed) (claim : Claim w env S.store) :
    ¬ S.store.Advanced claim.job := by
  have hmem : claim.job ∈ JobQueue.eligible S.store (env.clock 0) := by
    rw [claim.first]
    exact List.mem_cons_self
  unfold JobQueue.eligible at hmem
  rw [mem_sortedOn, List.mem_filter] at hmem
  obtain ⟨hmem, hclaimable⟩ := hmem
  have hget := hfiled.jobs.get?_of_mem hmem
  intro hadvanced
  obtain ⟨row, hrow, hmore⟩ := hadvanced
  obtain rfl := Option.some.inj (hget.symm.trans hrow)
  rcases hmore with hfailed | hmore
  · simp [JobQueue.claimable, hfailed] at hclaimable
  · exact absurd hmore (Nat.lt_irrefl _)

/-- The call raises and what it has done is rolled back. -/
theorem runOnce_rolled_back (claim : Claim w env S.store)
    (hfound : InvestigationRepository.find? S.store claim.job.tenant claim.job.investigationId =
      some investigation)
    (hstatus : investigation.status ≠ .cancelled) (hcancelled : ∀ n < 4, env.cancelled n = false)
    (hfails : ∀ n < 4, 0 < n → env.fails n = false)
    (hfailure : w.DatabaseFailure env investigation (claim.entry investigation)) :
    Wp (w.runOnce .postgres env) (Session.start S) (fun _ _ => False) (fun _ s' => s'.shared = S) := by
  refine wp_runOnce_entry hfound hstatus hcancelled hfails ?_
  rw [wp_bind]
  have hkeeps : Keeps Session.shared (w.process .postgres env claim.claimed (env.clock 1)
    investigation) := keeps_process _ _ _ _
  refine ((process_aborted hfailure).and (hkeeps.wp rfl)).mono ?_ ?_
  · intro _ _ h
    exact h.1.elim
  · intro _ _ h
    exact h.2

theorem afterRun_eq (h : Wp (w.runOnce .postgres env) (Session.start S) (fun _ _ => False)
    (fun _ s' => s'.shared = S)) : w.afterRun env S = S :=
  h.final (P := fun s' => s'.shared = S) (fun _ _ hfalse => hfalse.elim) fun _ _ h => h

/-- **A job whose pipeline meets a database failure is poison over PostgreSQL.** The call raises
    and commits nothing, so the job has neither failed nor another attempt, however often it is
    claimed. -/
theorem poison_job (hmade : S.store.Made) (claim : Claim w env S.store)
    (hfound : InvestigationRepository.find? S.store claim.job.tenant claim.job.investigationId =
      some investigation)
    (hstatus : investigation.status ≠ .cancelled) (hcancelled : ∀ n < 4, env.cancelled n = false)
    (hfails : ∀ n < 4, 0 < n → env.fails n = false)
    (hfailure : w.DatabaseFailure env investigation (claim.entry investigation)) :
    (∃ e, ((w.runOnce .postgres env).exec (Session.start S)).1 = .error e) ∧
      w.afterRun env S = S ∧ ¬ (w.afterRun env S).store.Advanced claim.job ∧
      ∀ n, (w.afterRun env)^[n] S = S := by
  have hrun := runOnce_rolled_back claim hfound hstatus hcancelled hfails hfailure
  have hsame := afterRun_eq hrun
  refine ⟨?_, hsame, ?_, ?_⟩
  · unfold Wp at hrun
    rcases hexec : (w.runOnce .postgres env).exec (Session.start S) with ⟨r, s'⟩
    rw [hexec] at hrun
    cases r with
    | ok a => exact hrun.elim
    | error e => exact ⟨e, rfl⟩
  · rw [hsame]
    exact not_advanced hmade.filed claim
  · intro n
    exact Function.iterate_fixed hsame n

/-- A pipeline whose first statement is refused. -/
theorem databaseFailure_of_refused [LawfulPyFloat F] {s : Session F} {p : Prepared F}
    (hprepare : w.prepare env investigation = .ok p)
    (hcancelled : ∀ n < 3, env.cancelled (s.awaits + n) = false)
    (hfails : env.fails (s.awaits + 2) = true) (haborted : s.aborted = false) :
    w.DatabaseFailure env investigation s := by
  obtain ⟨rows, hrows, -⟩ := exists_rows (Worker.prepare_eq_ok hprepare).entries investigation
    (env.clock s.readings)
  have hpipeline : Wp (w.runPipeline .postgres env investigation) s (fun _ _ => False)
      (fun _ s' => s'.aborted = true) := by
    apply wp_runPipeline_granted hprepare (hcancelled 0 (by omega)) (hcancelled 1 (by omega))
    unfold Worker.persist
    rw [wp_bind]
    apply wp_readClock_granted
    rw [wp_bind]
    apply wp_lift_ok hrows
    rw [wp_bind]
    exact wp_statement_refused (hcancelled 2 (by omega)) hfails haborted rfl
  exact hpipeline.final (P := fun s' => s'.aborted = true) (fun _ _ hfalse => hfalse.elim)
    fun _ _ h => h

end poison

namespace Demo

/-- The database refuses to append the evidence. -/
def refusedAppend : Environment ExactFloat := { healthy with fails := fun n => n = 6 }

/-- The tables with one investigation that waits. -/
def pendingTables : Tracked ExactFloat := ⟨pendingStore, .empty⟩

def claimOfPending : Claim worker refusedAppend pendingTables.store where
  job := firstJob
  rest := []
  expiry := ⟨30000000, Datetime.halfMinute_lt⟩
  first := by decide +kernel
  lease := by decide +kernel

theorem prepared_refused : ∃ p, worker.prepare refusedAppend pending = .ok p := prepared

theorem refusedAppend_fails :
    worker.DatabaseFailure refusedAppend pending (claimOfPending.entry pending) := by
  obtain ⟨p, hp⟩ := prepared_refused
  exact databaseFailure_of_refused hp (fun _ _ => rfl) rfl rfl

theorem refusedAppend_reached : ∀ n < 4, 0 < n → refusedAppend.fails n = false := by
  decide

end Demo

open Demo in
theorem poison_job_demo : (worker.afterRun refusedAppend)^[3] pendingTables = pendingTables := by
  have hpoison := poison_job ⟨_, rfl⟩ claimOfPending (by decide +kernel) (by decide)
    (fun _ _ => rfl) refusedAppend_reached refusedAppend_fails
  exact hpoison.2.2.2 3

open Demo in
/-- A job whose evidence the database refuses once is neither failed nor counted: it is queued as
    it was. -/
theorem poison_job_reclaimed : ∃ claim : Claim worker refusedAppend pendingTables.store,
    worker.DatabaseFailure refusedAppend pending (claim.entry pending) ∧
      ¬ (worker.afterRun refusedAppend pendingTables).store.Advanced claim.job ∧
      JobQueue.eligible (worker.afterRun refusedAppend pendingTables).store (refusedAppend.clock 0) =
        [claim.job] := by
  have hmade : pendingTables.store.Made := ⟨_, rfl⟩
  have hsame := afterRun_eq (runOnce_rolled_back claimOfPending (by decide +kernel) (by decide)
    (fun _ _ => rfl) refusedAppend_reached refusedAppend_fails)
  refine ⟨claimOfPending, refusedAppend_fails, ?_, ?_⟩
  · rw [hsame]
    exact not_advanced hmade.filed claimOfPending
  · rw [hsame]
    exact claimOfPending.first

end IncidentEvidence
