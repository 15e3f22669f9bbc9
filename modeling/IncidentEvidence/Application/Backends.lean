import IncidentEvidence.Application.Service

/-! # The two units of work

    Over PostgreSQL a statement may be refused, and one that fails ends the
    transaction. Beside that, a call does what it does over the in-memory store:
    it ends as it ends there, or it commits nothing (`runOnce_refines`,
    `execute_refines`). Hence whatever the database refuses, a run of the service over
    PostgreSQL is a run over the in-memory store with some calls left out
    (`postgres_refines_memory`), and what holds of the store in every run of the one
    holds in every run of the other.
-/

namespace IncidentEvidence

open Py Py.Action Runs

/-! ### Computations of one transaction -/

section relation
variable {F α β : Type} {r : Prop}

/-- Before its commit, the computation `y` over PostgreSQL does what `x` does over the
    in-memory store, or its transaction is over. With `r`, it has raised then. -/
structure Refines (r : Prop) (x y : Action PyException (Session F) α) : Prop where
  follows : ∀ s, s.aborted = false → y.exec s = x.exec s ∨
    (y.exec s).2.aborted = true ∧ (r → ∃ e, (y.exec s).1 = .error e)
  stuck : ∀ s, s.aborted = true → (y.exec s).2.aborted = true
  kept : Keeps Session.shared y
  intact : Keeps Session.aborted x

/-- A whole transaction: `y` does what `x` does, or it commits nothing. -/
structure Settles (r : Prop) (x y : Action PyException (Session F) α) : Prop where
  follows : ∀ s, s.aborted = false → y.exec s = x.exec s ∨
    (y.exec s).2.shared = s.shared ∧ (r → ∃ e, (y.exec s).1 = .error e)
  stuck : ∀ s, s.aborted = true → (y.exec s).2.shared = s.shared

/-- A computation that has nothing to do with the transaction. -/
theorem Refines.same {x : Action PyException (Session F) α} (hkept : Keeps Session.shared x)
    (hintact : Keeps Session.aborted x) : Refines r x x where
  follows _ _ := Or.inl rfl
  stuck s hs := (hintact s).trans hs
  kept := hkept
  intact := hintact

theorem Refines.pure (a : α) : Refines (F := F) r (pure a) (pure a) := .same (.pure a) (.pure a)

theorem Refines.throw (e : PyException) : Refines (F := F) (α := α) r (throw e) (throw e) :=
  .same (.throw e) (.throw e)

theorem Refines.lift (x : Except PyException α) : Refines (F := F) r (lift x) (lift x) :=
  .same (.lift x) (.lift x)

theorem Refines.bind {x y : Action PyException (Session F) α}
    {f g : α → Action PyException (Session F) β} (h : Refines r x y)
    (hf : ∀ a, Refines r (f a) (g a)) : Refines r (x >>= f) (y >>= g) where
  follows s hs := by
    have hopen := h.intact s
    rw [exec_bind, exec_bind]
    rcases h.follows s hs with heq | ⟨haborted, hraised⟩
    · rw [heq]
      rcases hx : x.exec s with ⟨v, t⟩
      rw [hx] at hopen
      cases v with
      | ok a => exact (hf a).follows t (hopen.trans hs)
      | error e => exact Or.inl rfl
    · right
      rcases hy : y.exec s with ⟨v, t⟩
      rw [hy] at haborted hraised
      cases v with
      | ok a =>
        -- nothing was raised, and the transaction stays over
        refine ⟨(hf a).stuck t haborted, fun hr => ?_⟩
        obtain ⟨e, he⟩ := hraised hr
        cases he
      | error e => exact ⟨haborted, fun _ => ⟨e, rfl⟩⟩
  stuck s hs := by
    have haborted := h.stuck s hs
    rw [exec_bind]
    rcases hy : y.exec s with ⟨v, t⟩
    rw [hy] at haborted
    cases v with
    | ok a => exact (hf a).stuck t haborted
    | error e => exact haborted
  kept := h.kept.bind fun a => (hf a).kept
  intact := h.intact.bind fun a => (hf a).intact

/-- Whoever watches a computation does not raise with it. -/
theorem Refines.attempt {x y : Action PyException (Session F) α} (h : Refines r x y) :
    Refines (F := F) False x.attempt y.attempt where
  follows s hs := by
    rw [exec_attempt, exec_attempt]
    rcases h.follows s hs with heq | ⟨haborted, -⟩
    · rw [heq]
      exact Or.inl rfl
    · exact Or.inr ⟨haborted, False.elim⟩
  stuck s hs := h.stuck s hs
  kept := h.kept.attempt
  intact := h.intact.attempt

theorem Refines.weaken {x y : Action PyException (Session F) α} (h : Refines r x y) :
    Refines False x y where
  follows s hs := (h.follows s hs).imp_right fun hover => ⟨hover.1, False.elim⟩
  stuck := h.stuck
  kept := h.kept
  intact := h.intact

theorem Refines.ite {p : Prop} [Decidable p] {x x' y y' : Action PyException (Session F) α}
    (h : Refines r x y) (h' : Refines r x' y') :
    Refines r (if p then x else x') (if p then y else y') := by
  by_cases hp : p
  · rw [if_pos hp, if_pos hp]
    exact h
  · rw [if_neg hp, if_neg hp]
    exact h'

theorem Settles.bind {x y : Action PyException (Session F) α}
    {f g : α → Action PyException (Session F) β} (h : Refines r x y)
    (hf : ∀ a, Settles r (f a) (g a)) : Settles r (x >>= f) (y >>= g) where
  follows s hs := by
    have hopen := h.intact s
    have hkept := h.kept s
    rw [exec_bind, exec_bind]
    rcases h.follows s hs with heq | ⟨haborted, hraised⟩
    · rw [heq] at hkept ⊢
      rcases hx : x.exec s with ⟨v, t⟩
      rw [hx] at hopen hkept
      have hshared : t.shared = s.shared := hkept
      cases v with
      | ok a =>
        have hnext := (hf a).follows t (hopen.trans hs)
        rw [hshared] at hnext
        exact hnext
      | error e => exact Or.inl rfl
    · right
      rcases hy : y.exec s with ⟨v, t⟩
      rw [hy] at haborted hraised hkept
      have hshared : t.shared = s.shared := hkept
      cases v with
      | ok a =>
        refine ⟨((hf a).stuck t haborted).trans hshared, fun hr => ?_⟩
        obtain ⟨e, he⟩ := hraised hr
        cases he
      | error e => exact ⟨hshared, fun _ => ⟨e, rfl⟩⟩
  stuck s hs := by
    have haborted := h.stuck s hs
    have hkept := h.kept s
    rw [exec_bind]
    rcases hy : y.exec s with ⟨v, t⟩
    rw [hy] at haborted hkept
    have hshared : t.shared = s.shared := hkept
    cases v with
    | ok a => exact ((hf a).stuck t haborted).trans hshared
    | error e => exact hshared

theorem Settles.of_refines {x y : Action PyException (Session F) α} (h : Refines r x y) :
    Settles r x y where
  follows s hs := (h.follows s hs).imp_right fun hover => ⟨h.kept s, hover.2⟩
  stuck s _ := h.kept s

theorem Settles.ite {p : Prop} [Decidable p] {x x' y y' : Action PyException (Session F) α}
    (h : Settles r x y) (h' : Settles r x' y') :
    Settles r (if p then x else x') (if p then y else y') := by
  by_cases hp : p
  · rw [if_pos hp, if_pos hp]
    exact h
  · rw [if_neg hp, if_neg hp]
    exact h'

end relation

/-! ### Statements -/

section statements
variable {F α : Type} {r : Prop} {env : Surroundings}

theorem exec_awaiting (s : Session F) : (awaiting env).exec s =
    (if env.cancelled s.awaits = true then .error .cancelled else .ok (), s.awaited) := by
  unfold awaiting Session.awaited
  by_cases h : env.cancelled s.awaits = true
  · simp [h]
  · simp [h]

theorem intact_awaiting : Keeps Session.aborted (awaiting (F := F) env) := by
  intro s
  unfold awaiting
  by_cases h : env.cancelled s.awaits = true
  · simp [h]
  · simp [h]

theorem refines_awaiting : Refines (F := F) r (awaiting env) (awaiting env) :=
  .same (keeps_awaiting.comp Prod.fst) intact_awaiting

theorem refines_readClock : Refines (F := F) r (readClock env) (readClock env) :=
  .same (keeps_readClock.comp Prod.fst) fun _ => rfl

theorem refines_systemNow : Refines (F := F) r (systemNow env) (systemNow env) :=
  .same (keeps_systemNow.comp Prod.fst) fun _ => rfl

theorem refines_drawId (id : UUID) : Refines (F := F) r (drawId id) (drawId id) :=
  .same (keeps_drawId id |>.comp Prod.fst) fun _ => rfl

/-- A statement is executed as over the in-memory store, or the transaction is over and the
    statement raises. -/
theorem statement_cases (x : Action PyException (Tracked F) α) (s : Session F) :
    (statement .postgres env x).exec s = (statement .memory env x).exec s ∨
      ((statement .postgres env x).exec s).2.aborted = true ∧
        ∃ e, ((statement .postgres env x).exec s).1 = .error e := by
  unfold statement
  simp only [exec_bind, exec_get, exec_awaiting]
  by_cases hcancelled : env.cancelled s.awaits = true
  · simp [hcancelled]
  · simp only [if_neg hcancelled]
    unfold Postgres.statement
    simp only [exec_bind, exec_get]
    by_cases haborted : s.awaited.aborted = true
    · rw [if_pos haborted]
      exact Or.inr ⟨haborted, _, rfl⟩
    · rw [if_neg haborted]
      by_cases hfails : env.fails s.awaits = true
      · rw [if_pos hfails]
        exact Or.inr ⟨rfl, _, rfl⟩
      · rw [if_neg hfails]
        simp only [exec_bind, exec_attempt]
        rcases hexec : (onWorking x).exec s.awaited with ⟨v, t⟩
        cases v with
        | ok a => exact Or.inl rfl
        | error e =>
          by_cases hconflict : e = idempotencyConflict
          · right
            simp only [if_pos hconflict, exec_bind]
            exact ⟨rfl, _, rfl⟩
          · left
            simp only [if_neg hconflict]
            rfl

theorem intact_statement (x : Action PyException (Tracked F) α) :
    Keeps Session.aborted (statement .memory env x) := by
  unfold statement
  exact Keeps.get.bind fun _ => intact_awaiting.bind fun _ => fun _ => rfl

theorem refines_statement (x : Action PyException (Tracked F) α) :
    Refines r (statement .memory env x) (statement .postgres env x) where
  follows s _ := (statement_cases x s).imp_right fun h => ⟨h.1, fun _ => h.2⟩
  stuck s hs := by
    rcases statement_cases x s with heq | ⟨haborted, -⟩
    · rw [heq]
      exact (intact_statement x s).trans hs
    · exact haborted
  kept := (keeps_statement x).comp Prod.fst
  intact := intact_statement x

theorem refines_getInvestigation (tenant : TenantId) (id : InvestigationId) :
    Refines (F := F) r (getInvestigation .memory env tenant id)
      (getInvestigation .postgres env tenant id) := refines_statement _

theorem refines_setInvestigationStatus (tenant : TenantId) (id : InvestigationId)
    (status : InvestigationStatus) :
    Refines (F := F) r (setInvestigationStatus .memory env tenant id status)
      (setInvestigationStatus .postgres env tenant id status) :=
  refines_systemNow.bind fun _ => refines_statement _

theorem refines_setJobStatus (tenant : TenantId) (id : JobId) (status : JobStatus) :
    Refines (F := F) r (setJobStatus .memory env tenant id status)
      (setJobStatus .postgres env tenant id status) :=
  refines_systemNow.bind fun _ => refines_statement _

theorem refines_recordAudit (record : AuditRecord) :
    Refines (F := F) r (recordAudit .memory env record) (recordAudit .postgres env record) :=
  refines_statement _

/-- A commit succeeds, or nothing is committed. -/
theorem settles_commit : Settles (F := F) r (commit .memory env) (commit .postgres env) where
  follows s hs := by
    unfold commit awaiting
    simp only [exec_bind, exec_get, exec_set]
    by_cases hcancelled : env.cancelled s.awaits = true
    · simp [hcancelled]
    · by_cases hfails : env.fails s.awaits = true
      · right
        simp [hcancelled, hs, hfails, abort]
      · left
        simp [hcancelled, hs, hfails]
  stuck s hs := by
    unfold commit awaiting
    simp only [exec_bind, exec_get, exec_set]
    by_cases hcancelled : env.cancelled s.awaits = true
    · simp [hcancelled]
    · simp [hcancelled, hs]

/-- What is returned after the commit. -/
theorem settles_commitReturn (a : α) :
    Settles (F := F) r (do commit .memory env; return a) (do commit .postgres env; return a) where
  follows s hs := by
    have hcommit : Settles r (commit .memory env) (commit .postgres env) := settles_commit (F := F)
    rw [exec_bind, exec_bind]
    rcases hcommit.follows s hs with heq | ⟨hshared, hraised⟩
    · rw [heq]
      exact Or.inl rfl
    · right
      rcases hy : (commit .postgres env).exec s with ⟨v, t⟩
      rw [hy] at hshared hraised
      cases v with
      | ok u =>
        refine ⟨hshared, fun hr => ?_⟩
        obtain ⟨e, he⟩ := hraised hr
        cases he
      | error e => exact ⟨hshared, fun _ => ⟨e, rfl⟩⟩
  stuck s hs := by
    have hcommit : Settles r (commit .memory env) (commit .postgres env) := settles_commit (F := F)
    have hshared := hcommit.stuck s hs
    rw [exec_bind]
    rcases hy : (commit .postgres env).exec s with ⟨v, t⟩
    rw [hy] at hshared
    cases v with
    | ok u => exact hshared
    | error e => exact hshared

/-- A unit of work that is left. -/
theorem scope_cases {x y : Action PyException (Session F) α} (h : Settles r x y) (s : Session F) :
    (scope env y).exec s = (scope env x).exec s ∨
      ((scope env y).exec s).2.shared = s.shared ∧ (r → ∃ e, ((scope env y).exec s).1 = .error e) := by
  unfold scope
  simp only [exec_bind, exec_awaiting]
  by_cases hcancelled : env.cancelled s.awaits = true
  · simp [hcancelled]
  · simp only [if_neg hcancelled, exec_modify, exec_attempt, exec_lift]
    rcases h.follows { s.awaited with working := s.awaited.shared, aborted := false } rfl with
      heq | ⟨hshared, hraised⟩
    · rw [heq]
      exact Or.inl rfl
    · exact Or.inr ⟨hshared, hraised⟩

end statements

/-! ### Calls -/

section execute
variable {F : Type} {env : Surroundings}

/-- **A creation over PostgreSQL** ends as over the in-memory store, or it raises and commits
    nothing. -/
theorem execute_refines (call : CreateCall) (S : Tracked F) :
    (CreateInvestigation.execute .postgres env call).exec (Session.start S) =
        (CreateInvestigation.execute .memory env call).exec (Session.start S) ∨
      ((CreateInvestigation.execute .postgres env call).exec (Session.start S)).2.shared = S ∧
        ∃ e, ((CreateInvestigation.execute .postgres env call).exec (Session.start S)).1 =
          .error e := by
  unfold CreateInvestigation.execute
  simp only [exec_bind]
  have hdraw : (drawId (F := F) call.investigationId.value).exec (Session.start S) =
      (.ok call.investigationId.value, { Session.start S with
        drawn := [] ++ [call.investigationId.value] }) := rfl
  rw [hdraw]
  refine (scope_cases (r := True) ?_ _).imp_right fun h => ⟨h.1, h.2 trivial⟩
  refine Settles.bind (.lift _) fun record => ?_
  refine Settles.bind (refines_statement _) fun stored => ?_
  by_cases hnew : stored.investigationId = call.investigationId
  · simp only [if_pos hnew]
    refine Settles.bind (refines_drawId _) fun _ => ?_
    refine Settles.bind (.lift _) fun job => ?_
    refine Settles.bind (refines_statement _) fun _ => ?_
    exact Settles.bind (refines_recordAudit _) fun _ => settles_commitReturn _
  · simp only [if_neg hnew]
    exact settles_commitReturn _

end execute

section worker
variable {F : Type} [PyFloat F] [FloatHex F] [Sha256] {r : Prop} {w : Worker F} {env : Environment F}

omit [FloatHex F] [Sha256] in
theorem refines_persist (investigation : InvestigationRecord) (p : Prepared F) :
    Refines r (w.persist .memory env investigation p) (w.persist .postgres env investigation p) := by
  unfold Worker.persist
  refine refines_readClock.bind fun now => ?_
  refine (Refines.lift _).bind fun rows => ?_
  refine (refines_statement _).bind fun _ => ?_
  refine (Refines.lift _).bind fun report => ?_
  refine (refines_statement _).bind fun _ => ?_
  exact (refines_setInvestigationStatus _ _ _).bind fun _ => refines_recordAudit _

theorem refines_runPipeline (investigation : InvestigationRecord) :
    Refines r (w.runPipeline .memory env investigation) (w.runPipeline .postgres env investigation) := by
  unfold Worker.runPipeline
  refine refines_awaiting.bind fun _ => ?_
  refine (Refines.lift _).bind fun telemetry => ?_
  refine (Refines.lift _).bind fun stage => ?_
  refine refines_awaiting.bind fun _ => ?_
  refine (Refines.same (fun _ => rfl) fun _ => rfl).bind fun _ => ?_
  refine (Refines.lift _).bind fun reply => ?_
  refine (Refines.lift _).bind fun proposal => ?_
  refine (Refines.lift _).bind fun _ => ?_
  refine (Refines.lift _).bind fun document => ?_
  exact (Refines.lift _).bind fun prepared => refines_persist investigation prepared

omit [FloatHex F] [Sha256] in
theorem refines_recordAttempt (claimed : ClaimedJob) (started : Datetime) (outcome : AttemptOutcome)
    (errorCode : Option Str) :
    Refines r (w.recordAttempt .memory env claimed started outcome errorCode)
      (w.recordAttempt .postgres env claimed started outcome errorCode) := by
  unfold Worker.recordAttempt
  refine (refines_drawId _).bind fun attemptId => ?_
  refine refines_readClock.bind fun finishedAt => ?_
  refine refines_readClock.bind fun createdAt => ?_
  refine (Refines.lift _).bind fun errorCode => ?_
  exact (refines_statement _).bind fun _ => .pure _

omit [FloatHex F] [Sha256] in
theorem refines_terminalFail (claimed : ClaimedJob) (started : Datetime) (code : Str) :
    Refines r (w.terminalFail .memory env claimed started code)
      (w.terminalFail .postgres env claimed started code) := by
  unfold Worker.terminalFail
  refine (refines_setInvestigationStatus _ _ _).bind fun _ => ?_
  refine (refines_setJobStatus _ _ _).bind fun _ => ?_
  refine (refines_recordAttempt _ _ _ _).bind fun _ => ?_
  refine refines_readClock.bind fun occurredAt => ?_
  exact (Refines.lift _).bind fun detail => refines_recordAudit _

omit [FloatHex F] [Sha256] in
theorem refines_retryOrFail (claimed : ClaimedJob) (started : Datetime) (code : Str) :
    Refines r (w.retryOrFail .memory env claimed started code)
      (w.retryOrFail .postgres env claimed started code) := by
  unfold Worker.retryOrFail
  apply Refines.ite
  · exact refines_terminalFail _ _ _
  · exact (refines_setJobStatus _ _ _).bind fun _ => refines_recordAttempt _ _ _ _

omit [FloatHex F] [Sha256] in
theorem refines_handle (claimed : ClaimedJob) (started : Datetime) (e : PyException) :
    Refines r (w.handle .memory env claimed started e) (w.handle .postgres env claimed started e) := by
  unfold Worker.handle
  split
  · exact refines_terminalFail _ _ _
  · exact refines_retryOrFail _ _ _
  · exact .ite (refines_terminalFail _ _ _) (.throw _)

theorem refines_process (claimed : ClaimedJob) (started : Datetime)
    (investigation : InvestigationRecord) :
    Refines False (w.process .memory env claimed started investigation)
      (w.process .postgres env claimed started investigation) := by
  unfold Worker.process
  refine (refines_runPipeline (r := False) investigation).attempt.bind fun v => ?_
  cases v with
  | error e => exact refines_handle _ _ e
  | ok _ => exact (refines_setJobStatus _ _ _).bind fun _ => refines_recordAttempt _ _ _ _

/-- From the claimed job on. -/
theorem settles_runClaimed (claimed : ClaimedJob) :
    Settles False (w.runClaimed .memory env claimed) (w.runClaimed .postgres env claimed) := by
  unfold Worker.runClaimed
  refine Settles.bind refines_readClock fun started => ?_
  refine Settles.bind (refines_getInvestigation (r := False) _ _).attempt fun v => ?_
  split
  · exact Settles.bind (refines_setJobStatus _ _ _) fun _ => settles_commitReturn _
  · exact .of_refines (.throw _)
  · refine Settles.ite ?_ ?_
    · exact Settles.bind (refines_setJobStatus _ _ _) fun _ => settles_commitReturn _
    · refine Settles.bind (refines_setInvestigationStatus _ _ _) fun _ => ?_
      exact Settles.bind (refines_process _ _ _) fun _ => settles_commitReturn _

/-- **A call of the worker over PostgreSQL** ends as over the in-memory store, or it commits
    nothing. -/
theorem runOnce_refines (S : Tracked F) :
    (w.runOnce .postgres env).exec (Session.start S) =
        (w.runOnce .memory env).exec (Session.start S) ∨
      ((w.runOnce .postgres env).exec (Session.start S)).2.shared = S := by
  unfold Worker.runOnce
  refine (scope_cases (r := False) ?_ _).imp_right And.left
  refine Settles.bind refines_readClock fun now => ?_
  refine Settles.bind (refines_statement _) fun claimed => ?_
  cases claimed with
  | none => exact settles_commitReturn _
  | some claimed => exact settles_runClaimed claimed

end worker

/-! ### Runs -/

section runs
variable {F : Type} [PyFloat F] [FloatHex F] [Sha256]

/-- The session in which a call over PostgreSQL ends. -/
def Call.postgresSession (S : Tracked F) : Call F → Session F
  | .create call env => ((CreateInvestigation.execute .postgres env call).exec (Session.start S)).2
  | .runOnce worker env => ((worker.runOnce .postgres env).exec (Session.start S)).2

/-- A call that ends as over the in-memory store, or commits nothing. -/
theorem postgresSession_cases (S : Tracked F) (c : Call F) :
    c.postgresSession S = c.session S ∨ (c.postgresSession S).shared = S := by
  cases c with
  | create call env =>
    exact (execute_refines call S).imp (fun h => congrArg Prod.snd h) And.left
  | runOnce worker env => exact (runOnce_refines S).imp_left fun h => congrArg Prod.snd h

namespace Service

def postgresStep (s : Service F) (c : Call F) (s' : Service F) : Prop :=
  c.Fresh s.drawn ∧ (s.drawn ++ (c.postgresSession s.committed).drawn).Nodup ∧
    s' = ⟨(c.postgresSession s.committed).shared, s.drawn ++ (c.postgresSession s.committed).drawn⟩

variable (F) in
/-- The service over an empty database; its calls run one after another. -/
def postgres : System (Service F) (Call F) where
  init s := s = ⟨Tracked.empty, []⟩
  step := postgresStep

end Service

omit [FloatHex F] [Sha256] in
theorem Call.Fresh.of_subset {c : Call F} {drawn drawn' : List UUID} (h : c.Fresh drawn)
    (hsub : drawn' ⊆ drawn) : c.Fresh drawn' := by
  cases c with
  | create call env => exact fun hmem => h (hsub hmem)
  | runOnce worker env => trivial

/-- The in-memory service beside one over PostgreSQL: the same tables, and ids of its. -/
structure Mirrors (m s : Service F) : Prop where
  committed : m.committed = s.committed
  drawn : m.drawn.Sublist s.drawn

/-- A call over PostgreSQL is mirrored by the same call, or by none. -/
theorem Mirrors.step {m s s' : Service F} {c : Call F} (h : Mirrors m s)
    (hstep : Service.postgresStep s c s') :
    Mirrors m s' ∨ ∃ m', Service.step m c m' ∧ Mirrors m' s' := by
  obtain ⟨hfresh, hnodup, rfl⟩ := hstep
  rcases postgresSession_cases s.committed c with heq | hshared
  · right
    refine ⟨_, ⟨hfresh.of_subset h.drawn.subset, ?_, rfl⟩, ?_⟩
    · rw [h.committed, ← heq]
      exact hnodup.sublist (h.drawn.append_right _)
    · constructor
      · rw [h.committed, ← heq]
      · rw [h.committed, ← heq]
        exact h.drawn.append_right _
  · left
    constructor
    · rw [h.committed]
      exact hshared.symm
    · exact h.drawn.trans (List.sublist_append_left _ _)

/-- A run over PostgreSQL is mirrored by some of its calls. -/
theorem Mirrors.run {m s s' : Service F} {cs : List (Call F)} (h : Mirrors m s)
    (hrun : Run (Service.postgres F) s cs s') :
    ∃ cs' m', cs'.Sublist cs ∧ Run (Service.system F) m cs' m' ∧ Mirrors m' s' := by
  induction hrun generalizing m with
  | nil => exact ⟨[], m, .slnil, .nil m, h⟩
  | cons hstep _ ih =>
    rcases h.step hstep with hskip | ⟨m₁, hone, hmirrors⟩
    · obtain ⟨cs', m', hsub, hrun', hm'⟩ := ih hskip
      exact ⟨cs', m', hsub.cons _, hrun', hm'⟩
    · obtain ⟨cs', m', hsub, hrun', hm'⟩ := ih hmirrors
      exact ⟨_ :: cs', m', hsub.cons_cons _, .cons hone hrun', hm'⟩

/-- **PostgreSQL refines the in-memory store.** Whatever statements the database refuses and
    wherever calls are cancelled, the tables that a run of the service over PostgreSQL has
    committed are those that the in-memory service commits in a run of some of its calls. So
    every invariant of the committed in-memory tables holds of the committed rows of the
    database. -/
theorem postgres_refines_memory :
    (∀ (s : Service F) (cs : List (Call F)),
      Run (Service.postgres F) ⟨Tracked.empty, []⟩ cs s →
      ∃ cs' m, cs'.Sublist cs ∧ Run (Service.system F) ⟨Tracked.empty, []⟩ cs' m ∧
        m.committed = s.committed) ∧
    ∀ P : Tracked F → Prop, (∀ m, Reachable (Service.system F) m → P m.committed) →
      ∀ s, Reachable (Service.postgres F) s → P s.committed := by
  have hmirror : ∀ (s : Service F) (cs : List (Call F)),
      Run (Service.postgres F) ⟨Tracked.empty, []⟩ cs s →
      ∃ cs' m, cs'.Sublist cs ∧ Run (Service.system F) ⟨Tracked.empty, []⟩ cs' m ∧
        m.committed = s.committed := by
    intro s cs hrun
    obtain ⟨cs', m, hsub, hrun', hm⟩ := Mirrors.run ⟨rfl, .refl _⟩ hrun
    exact ⟨cs', m, hsub, hrun', hm.committed⟩
  refine ⟨hmirror, ?_⟩
  rintro P hP s ⟨s₀, cs, rfl, hrun⟩
  obtain ⟨cs', m, -, hrun', hm⟩ := hmirror s cs hrun
  rw [← hm]
  exact hP m ⟨_, cs', rfl, hrun'⟩

end runs

end IncidentEvidence
