import IncidentEvidence.Application.Backends
import IncidentEvidence.Application.Draining

/-! # Calls over PostgreSQL that the database does not refuse

    A statement that is granted still ends its transaction when it violates a unique
    constraint. From the tables of a run no call comes to that: no job has a report
    while it can be claimed, and the number of an attempt is new. So a call no statement
    of which is refused ends exactly as over the in-memory store (`runOnce_agrees`,
    `execute_agrees`), and runs of such calls are the same (`granted_runs_agree`).
-/

namespace IncidentEvidence

open Py Py.Action Runs

/-- No statement is refused. -/
def Surroundings.Granted (env : Surroundings) : Prop := ∀ n, env.fails n = false

/-! ### Computations that agree -/

section relation
variable {F α β : Type} {p q r : Store → Prop}

/-- The transaction is open and what it sees satisfies `p`. -/
def Session.Open (p : Store → Prop) (s : Session F) : Prop :=
  s.aborted = false ∧ p s.working.store

/-- From an open transaction over `p`, the computation `y` over PostgreSQL does exactly what
    `x` does over the in-memory store, and leaves `q`. -/
def ActsAlike (p q : Store → Prop) (x y : Action PyException (Session F) α) : Prop :=
  ∀ s, s.Open p → y.exec s = x.exec s ∧ (x.exec s).2.Open q

/-- A computation that does not touch the transaction. -/
theorem ActsAlike.same {x : Action PyException (Session F) α}
    (h : Keeps (fun s : Session F => (s.aborted, s.working)) x) : ActsAlike p p x x := by
  intro s hs
  obtain ⟨haborted, hworking⟩ := Prod.mk.inj (h s)
  refine ⟨rfl, haborted.trans hs.1, ?_⟩
  rw [hworking]
  exact hs.2

theorem ActsAlike.lift (x : Except PyException α) : ActsAlike (F := F) p p (lift x) (lift x) :=
  .same fun _ => rfl

theorem ActsAlike.throw (e : PyException) : ActsAlike (F := F) (α := α) p p (throw e) (throw e) :=
  .same fun _ => rfl

/-- What follows may rely on where the value comes from. -/
theorem ActsAlike.bindOf {x y : Action PyException (Session F) α}
    {f g : α → Action PyException (Session F) β} (h : ActsAlike p q x y) (hqr : ∀ S, q S → r S)
    (hf : ∀ a, (∃ s, s.Open p ∧ (x.exec s).1 = .ok a) → ActsAlike q r (f a) (g a)) :
    ActsAlike p r (x >>= f) (y >>= g) := by
  intro s hs
  obtain ⟨heq, hopen⟩ := h s hs
  rw [exec_bind, exec_bind, heq]
  rcases hx : x.exec s with ⟨v, t⟩
  rw [hx] at hopen
  cases v with
  | ok a => exact hf a ⟨s, hs, by rw [hx]⟩ t hopen
  | error e => exact ⟨rfl, hopen.1, hqr _ hopen.2⟩

theorem ActsAlike.bind {x y : Action PyException (Session F) α}
    {f g : α → Action PyException (Session F) β} (h : ActsAlike p q x y) (hqr : ∀ S, q S → r S)
    (hf : ∀ a, ActsAlike q r (f a) (g a)) : ActsAlike p r (x >>= f) (y >>= g) :=
  h.bindOf hqr fun a _ => hf a

theorem ActsAlike.attempt {x y : Action PyException (Session F) α} (h : ActsAlike p q x y) :
    ActsAlike (F := F) p q x.attempt y.attempt := by
  intro s hs
  obtain ⟨heq, hopen⟩ := h s hs
  rw [exec_attempt, exec_attempt, heq]
  exact ⟨rfl, hopen⟩

theorem ActsAlike.ite {c : Prop} [Decidable c] {x x' y y' : Action PyException (Session F) α}
    (h : ActsAlike p q x y) (h' : ActsAlike p q x' y') :
    ActsAlike p q (if c then x else x') (if c then y else y') := by
  by_cases hc : c
  · rw [if_pos hc, if_pos hc]
    exact h
  · rw [if_neg hc, if_neg hc]
    exact h'

theorem ActsAlike.mono {p' q' : Store → Prop} {x y : Action PyException (Session F) α}
    (h : ActsAlike p q x y) (hp : ∀ S, p' S → p S) (hq : ∀ S, q S → q' S) : ActsAlike p' q' x y := by
  intro s hs
  obtain ⟨heq, hopen⟩ := h s ⟨hs.1, hp _ hs.2⟩
  exact ⟨heq, hopen.1, hq _ hopen.2⟩

end relation

/-! ### Statements that are granted -/

section statements
variable {F α : Type} {p q : Store → Prop} {env : Surroundings}

theorem agrees_awaiting : ActsAlike (F := F) p p (awaiting env) (awaiting env) := by
  apply ActsAlike.same
  intro s
  unfold awaiting
  by_cases h : env.cancelled s.awaits = true
  · simp [h]
  · simp [h]

theorem agrees_readClock : ActsAlike (F := F) p p (readClock env) (readClock env) :=
  .same fun _ => rfl

theorem agrees_systemNow : ActsAlike (F := F) p p (systemNow env) (systemNow env) :=
  .same fun _ => rfl

theorem agrees_drawId (id : UUID) : ActsAlike (F := F) p p (drawId id) (drawId id) :=
  .same fun _ => rfl

/-- A statement that violates no unique constraint. -/
theorem statement_same (hgranted : env.Granted) {x : Action PyException (Tracked F) α}
    {s : Session F} (hopen : s.aborted = false)
    (hx : (x.exec s.working).1 ≠ .error idempotencyConflict) :
    (statement .postgres env x).exec s = (statement .memory env x).exec s := by
  unfold statement
  simp only [exec_bind, exec_get, exec_awaiting]
  by_cases hcancelled : env.cancelled s.awaits = true
  · simp only [if_pos hcancelled]
  · simp only [if_neg hcancelled]
    have hexec : (onWorking x).exec s.awaited =
        ((x.exec s.working).1, { s.awaited with working := (x.exec s.working).2 }) := rfl
    unfold Postgres.statement
    simp only [exec_bind, exec_get]
    rw [if_neg (by rw [show s.awaited.aborted = false from hopen]; decide), hgranted,
      if_neg Bool.false_ne_true]
    simp only [exec_bind, exec_attempt, hexec]
    cases hv : (x.exec s.working).1 with
    | ok a => rfl
    | error e =>
      rw [hv] at hx
      have he : e ≠ idempotencyConflict := fun heq => hx (by rw [heq])
      simp only [if_neg he]
      rfl

theorem agrees_statement (hgranted : env.Granted) {x : Action PyException (Tracked F) α}
    (hpq : ∀ S, p S → q S)
    (hx : ∀ t, p t.store → (x.exec t).1 ≠ .error idempotencyConflict ∧ q (x.exec t).2.store) :
    ActsAlike p q (statement .memory env x) (statement .postgres env x) := by
  intro s hs
  obtain ⟨hopen, hp⟩ := hs
  obtain ⟨hconflict, hq⟩ := hx s.working hp
  refine ⟨statement_same hgranted hopen hconflict, (intact_statement x s).trans hopen, ?_⟩
  unfold statement
  simp only [exec_bind, exec_get, exec_awaiting]
  by_cases hcancelled : env.cancelled s.awaits = true
  · simp only [if_pos hcancelled]
    exact hpq _ hp
  · simp only [if_neg hcancelled]
    exact hq

theorem agrees_onStore (hgranted : env.Granted) {x : Repository α} (hpq : ∀ S, p S → q S)
    (hx : ∀ S, p S → (x.exec S).1 ≠ .error idempotencyConflict ∧ q (x.exec S).2) :
    ActsAlike (F := F) p q (statement .memory env (onStore x)) (statement .postgres env (onStore x)) := by
  apply agrees_statement hgranted hpq
  intro t ht
  exact hx t.store ht

theorem notFound_ne_conflict : recordNotFound ≠ idempotencyConflict := by decide

theorem agrees_getInvestigation (hgranted : env.Granted) (tenant : TenantId) (id : InvestigationId) :
    ActsAlike (F := F) p p (getInvestigation .memory env tenant id)
      (getInvestigation .postgres env tenant id) := by
  apply agrees_onStore hgranted (fun _ h => h)
  intro S hS
  rw [InvestigationRepository.get_exec]
  refine ⟨?_, hS⟩
  cases InvestigationRepository.find? S tenant id with
  | some record => simp [orRaise]
  | none =>
    intro h
    exact notFound_ne_conflict (Except.error.inj h)

theorem agrees_setInvestigationStatus (hgranted : env.Granted) (hpq : ∀ S, p S → q S)
    (hset : ∀ S table, p S → q { S with investigations := table }) (tenant : TenantId)
    (id : InvestigationId) (status : InvestigationStatus) :
    ActsAlike (F := F) p q (setInvestigationStatus .memory env tenant id status)
      (setInvestigationStatus .postgres env tenant id status) := by
  refine agrees_systemNow.bind hpq fun now => agrees_onStore hgranted hpq fun S hS => ?_
  rw [InvestigationRepository.setStatus_exec]
  cases InvestigationRepository.find? S tenant id with
  | some record => exact ⟨by simp, hset S _ hS⟩
  | none =>
    refine ⟨?_, hpq S hS⟩
    intro h
    exact notFound_ne_conflict (Except.error.inj h)

theorem agrees_setJobStatus (hgranted : env.Granted) (hpq : ∀ S, p S → q S)
    (hset : ∀ S table, p S → q { S with jobs := table }) (tenant : TenantId) (id : JobId)
    (status : JobStatus) :
    ActsAlike (F := F) p q (setJobStatus .memory env tenant id status)
      (setJobStatus .postgres env tenant id status) := by
  refine agrees_systemNow.bind hpq fun now => agrees_onStore hgranted hpq fun S hS => ?_
  rw [JobQueue.setStatus_exec]
  cases JobQueue.find? S tenant id with
  | some record => exact ⟨by simp, hset S _ hS⟩
  | none =>
    refine ⟨?_, hpq S hS⟩
    intro h
    exact notFound_ne_conflict (Except.error.inj h)

theorem agrees_recordAudit (hgranted : env.Granted) (hpq : ∀ S, p S → q S)
    (hset : ∀ S log, p S → q { S with audit := log }) (record : AuditRecord) :
    ActsAlike (F := F) p q (recordAudit .memory env record) (recordAudit .postgres env record) := by
  apply agrees_onStore hgranted hpq
  intro S hS
  rw [AuditLog.record_exec]
  exact ⟨by simp, hset S _ hS⟩

omit p q in
/-- What a statement returns, the method returns on the open transaction. -/
theorem returned_of_statement {x : Action PyException (Tracked F) α} {s : Session F} {a : α}
    (h : ((statement .memory env x).exec s).1 = .ok a) : (x.exec s.working).1 = .ok a := by
  have hcases : Wp (statement .memory env x) s (fun b _ => (x.exec s.working).1 = .ok b)
      (fun _ _ => True) := by
    apply wp_statement trivial
    unfold Wp
    rcases x.exec s.working with ⟨v, t⟩
    cases v with
    | ok b => rfl
    | error e => trivial
  unfold Wp at hcases
  rcases hexec : (statement .memory env x).exec s with ⟨v, t⟩
  rw [hexec] at h hcases
  obtain rfl : v = .ok a := h
  exact hcases

/-- Nothing is known of the tables after a commit. -/
theorem agrees_commit (hgranted : env.Granted) :
    ActsAlike (F := F) p (fun _ => True) (commit .memory env) (commit .postgres env) := by
  intro s hs
  have hfails := hgranted s.awaits
  unfold commit awaiting
  simp only [exec_bind, exec_get, exec_set]
  by_cases hcancelled : env.cancelled s.awaits = true
  · simp [hcancelled, hs.1, Session.Open]
  · simp [hcancelled, hs.1, hfails, Session.Open]

theorem agrees_commitReturn (hgranted : env.Granted) (a : α) :
    ActsAlike (F := F) p (fun _ => True) (do commit .memory env; return a)
      (do commit .postgres env; return a) :=
  (agrees_commit hgranted).bind (fun _ h => h) fun _ => .same fun _ => rfl

/-! ### What a unit of work leaves -/

/-- The session when its unit of work is left. -/
def Session.closed (s : Session F) : Session F := { s with working := s.shared, aborted := false }

/-- From an open transaction both computations end alike, and leave the same when the unit of
    work is left. -/
def EndAlike (p : Store → Prop) (x y : Action PyException (Session F) α) : Prop :=
  ∀ s, s.Open p → (y.exec s).1 = (x.exec s).1 ∧ (y.exec s).2.closed = (x.exec s).2.closed

theorem ActsAlike.endAlike {x y : Action PyException (Session F) α} (h : ActsAlike p q x y) :
    EndAlike p x y := by
  intro s hs
  rw [(h s hs).1]
  exact ⟨rfl, rfl⟩

theorem ActsAlike.bindEnd {β : Type} {x y : Action PyException (Session F) α}
    {f g : α → Action PyException (Session F) β} (h : ActsAlike p q x y)
    (hf : ∀ a, EndAlike q (f a) (g a)) : EndAlike p (x >>= f) (y >>= g) := by
  intro s hs
  obtain ⟨heq, hopen⟩ := h s hs
  rw [exec_bind, exec_bind, heq]
  rcases hx : x.exec s with ⟨v, t⟩
  rw [hx] at hopen
  cases v with
  | ok a => exact hf a t hopen
  | error e => exact ⟨rfl, rfl⟩

/-- A statement may violate a unique constraint where nothing watches it: the transaction is
    over then, and so is the unit of work. -/
theorem endAlike_statement (hgranted : env.Granted) {β : Type} {x : Action PyException (Tracked F) α}
    {f g : α → Action PyException (Session F) β} (hf : ∀ a, EndAlike (fun _ => True) (f a) (g a)) :
    EndAlike p (statement .memory env x >>= f) (statement .postgres env x >>= g) := by
  intro s hs
  rw [exec_bind, exec_bind]
  by_cases hx : (x.exec s.working).1 = .error idempotencyConflict
  · have hexec : (onWorking x).exec s.awaited =
        (.error idempotencyConflict, { s.awaited with working := (x.exec s.working).2 }) := by
      rw [← hx]
      rfl
    unfold statement Postgres.statement
    simp only [exec_bind, exec_get, exec_awaiting]
    by_cases hcancelled : env.cancelled s.awaits = true
    · simp only [if_pos hcancelled]
      exact ⟨trivial, trivial⟩
    · simp only [if_neg hcancelled, hexec]
      rw [if_neg (by rw [show s.awaited.aborted = false from hs.1]; decide), hgranted,
        if_neg Bool.false_ne_true]
      simp only [exec_bind, exec_attempt, hexec, if_pos]
      exact ⟨rfl, rfl⟩
  · rw [statement_same hgranted hs.1 hx]
    have hopen : ((statement .memory env x).exec s).2.aborted = false :=
      (intact_statement x s).trans hs.1
    rcases hexec : (statement .memory env x).exec s with ⟨v, t⟩
    rw [hexec] at hopen
    cases v with
    | ok a => exact hf a t ⟨hopen, trivial⟩
    | error e => exact ⟨rfl, rfl⟩

/-- A unit of work over the committed tables. -/
theorem scope_endAlike {x y : Action PyException (Session F) α} {s : Session F}
    (h : EndAlike (fun S => S = s.shared.store) x y) :
    (scope env y).exec s = (scope env x).exec s := by
  unfold scope
  simp only [exec_bind, exec_awaiting]
  by_cases hcancelled : env.cancelled s.awaits = true
  · simp only [if_pos hcancelled]
  · simp only [if_neg hcancelled, exec_modify, exec_attempt]
    obtain ⟨hvalue, hclosed⟩ :=
      h { s.awaited with working := s.awaited.shared, aborted := false } ⟨rfl, rfl⟩
    show (lift _).exec (Session.closed _) = (lift _).exec (Session.closed _)
    rw [hvalue, hclosed]

end statements

/-! ### The worker -/

section worker
variable {F : Type} [PyFloat F] {w : Worker F} {env : Environment F} {base : Store}

/-- The attempts are still those of the committed tables. -/
abbrev SameAttempts (base S : Store) : Prop := S.attempts = base.attempts

/-- And so are the reports. -/
abbrev SameReports (base S : Store) : Prop := S.attempts = base.attempts ∧ S.reports = base.reports

theorem agrees_recordAttempt (hgranted : env.Granted) {claimed : ClaimedJob}
    (hnew : base.Unnumbered claimed) (started : Datetime) (outcome : AttemptOutcome)
    (errorCode : Option Str) :
    ActsAlike (SameAttempts base) (fun _ => True) (w.recordAttempt .memory env claimed started outcome errorCode)
      (w.recordAttempt .postgres env claimed started outcome errorCode) := by
  unfold Worker.recordAttempt
  refine (agrees_drawId _).bind (fun _ _ => trivial) fun attemptId => ?_
  refine agrees_readClock.bind (fun _ _ => trivial) fun finishedAt => ?_
  refine agrees_readClock.bind (fun _ _ => trivial) fun createdAt => ?_
  refine (ActsAlike.lift _).bind (fun _ _ => trivial) fun errorCode => ?_
  refine ActsAlike.bind (q := fun _ => True) ?_ (fun _ h => h) fun _ => .same fun _ => rfl
  apply agrees_onStore hgranted (fun _ _ => trivial)
  intro S hS
  rw [AttemptRepository.record_exec, if_neg]
  · exact ⟨by simp, trivial⟩
  · intro hdup
    obtain ⟨a, ha, hsame⟩ := List.any_eq_true.mp hdup
    rw [show S.attempts = base.attempts from hS] at ha
    obtain ⟨hjob, hnumber⟩ := Bool.and_eq_true_iff.mp hsame
    exact hnew a ha (of_decide_eq_true hjob) (of_decide_eq_true hnumber)

theorem agrees_terminalFail (hgranted : env.Granted) {claimed : ClaimedJob}
    (hnew : base.Unnumbered claimed) (started : Datetime) (code : Str) :
    ActsAlike (SameAttempts base) (fun _ => True) (w.terminalFail .memory env claimed started code)
      (w.terminalFail .postgres env claimed started code) := by
  unfold Worker.terminalFail
  refine (agrees_setInvestigationStatus hgranted (fun _ h => h) (fun _ _ h => h) _ _ _).bind
    (fun _ _ => trivial) fun _ => ?_
  refine (agrees_setJobStatus hgranted (fun _ h => h) (fun _ _ h => h) _ _ _).bind
    (fun _ _ => trivial) fun _ => ?_
  refine (agrees_recordAttempt hgranted hnew _ _ _).bind (fun _ h => h) fun _ => ?_
  refine agrees_readClock.bind (fun _ h => h) fun occurredAt => ?_
  refine (ActsAlike.lift _).bind (fun _ h => h) fun detail => ?_
  exact agrees_recordAudit hgranted (fun _ h => h) (fun _ _ h => h) _

theorem agrees_handle (hgranted : env.Granted) {claimed : ClaimedJob}
    (hnew : base.Unnumbered claimed) (started : Datetime) (e : PyException) :
    ActsAlike (SameAttempts base) (fun _ => True) (w.handle .memory env claimed started e)
      (w.handle .postgres env claimed started e) := by
  unfold Worker.handle
  split
  · exact agrees_terminalFail hgranted hnew _ _
  · unfold Worker.retryOrFail
    apply ActsAlike.ite
    · exact agrees_terminalFail hgranted hnew _ _
    · exact (agrees_setJobStatus hgranted (fun _ h => h) (fun _ _ h => h) _ _ _).bind
        (fun _ _ => trivial) fun _ => agrees_recordAttempt hgranted hnew _ _ _
  · apply ActsAlike.ite
    · exact agrees_terminalFail hgranted hnew _ _
    · exact (ActsAlike.throw _).mono (fun _ h => h) fun _ _ => trivial

variable [FloatHex F] [Sha256]

omit [FloatHex F] [Sha256] in
theorem agrees_persist (hgranted : env.Granted) {investigation : InvestigationRecord}
    (hnone : base.reports.get? investigation.investigationId.value = none) (p : Prepared F) :
    ActsAlike (SameReports base) (SameAttempts base) (w.persist .memory env investigation p)
      (w.persist .postgres env investigation p) := by
  have hweak : ∀ S, SameReports base S → SameAttempts base S := fun _ h => h.1
  unfold Worker.persist
  refine agrees_readClock.bind hweak fun now => ?_
  refine (ActsAlike.lift _).bind hweak fun rows => ?_
  -- the rows are appended on either side: no report is touched
  refine ActsAlike.bind (q := SameReports base) ?_ hweak fun _ => ?_
  · apply agrees_onStore hgranted (fun _ h => h)
    intro S hS
    obtain ⟨stored, hstored⟩ := EvidenceRepository.append_exec rows S
    rw [hstored]
    exact ⟨by simp, hS⟩
  refine ActsAlike.bindOf (q := SameReports base) (.lift _) hweak fun report hreport => ?_
  obtain ⟨s, -, hreport⟩ := hreport
  have hid : report.investigationId = investigation.investigationId := by
    have hreport : reportRecord investigation now p = .ok report := hreport
    simp only [reportRecord, bind_eq_ok, pure_eq_ok] at hreport
    obtain ⟨_, -, _, -, rfl⟩ := hreport
    rfl
  refine ActsAlike.bind (q := SameAttempts base) ?_ (fun _ h => h) fun _ => ?_
  · unfold Worker.putReport
    apply agrees_statement hgranted hweak
    intro t ht
    rw [putReport_exec]
    -- there is no report, so neither side refuses this one
    have hfree : t.store.reports.get? report.investigationId.value = none := by
      rw [ht.2, hid]
      exact hnone
    rw [hfree]
    exact ⟨by simp, ht.1⟩
  refine (agrees_setInvestigationStatus hgranted (fun _ h => h) (fun _ _ h => h) _ _ _).bind
    (fun _ h => h) fun _ => ?_
  exact agrees_recordAudit hgranted (fun _ h => h) (fun _ _ h => h) _

theorem agrees_runPipeline (hgranted : env.Granted) {investigation : InvestigationRecord}
    (hnone : base.reports.get? investigation.investigationId.value = none) :
    ActsAlike (SameReports base) (SameAttempts base) (w.runPipeline .memory env investigation)
      (w.runPipeline .postgres env investigation) := by
  have hweak : ∀ S, SameReports base S → SameAttempts base S := fun _ h => h.1
  unfold Worker.runPipeline
  refine agrees_awaiting.bind hweak fun _ => ?_
  refine (ActsAlike.lift _).bind hweak fun telemetry => ?_
  refine (ActsAlike.lift _).bind hweak fun stage => ?_
  refine agrees_awaiting.bind hweak fun _ => ?_
  refine ActsAlike.bind (q := SameReports base) (.same fun _ => rfl) hweak fun _ => ?_
  refine (ActsAlike.lift _).bind hweak fun reply => ?_
  refine (ActsAlike.lift _).bind hweak fun proposal => ?_
  refine (ActsAlike.lift _).bind hweak fun _ => ?_
  refine (ActsAlike.lift _).bind hweak fun document => ?_
  exact (ActsAlike.lift _).bind hweak fun prepared => agrees_persist hgranted hnone prepared

theorem agrees_process (hgranted : env.Granted) {claimed : ClaimedJob}
    (hnew : base.Unnumbered claimed) {investigation : InvestigationRecord}
    (hnone : base.reports.get? investigation.investigationId.value = none) (started : Datetime) :
    ActsAlike (SameReports base) (fun _ => True)
      (w.process .memory env claimed started investigation)
      (w.process .postgres env claimed started investigation) := by
  unfold Worker.process
  refine (agrees_runPipeline hgranted hnone).attempt.bind (fun _ _ => trivial) fun v => ?_
  cases v with
  | error e => exact agrees_handle hgranted hnew started e
  | ok _ =>
    exact (agrees_setJobStatus hgranted (fun _ h => h) (fun _ _ h => h) _ _ _).bind
      (fun _ _ => trivial) fun _ => agrees_recordAttempt hgranted hnew _ _ _

variable {S : Tracked F} {drawn : List UUID}

omit [FloatHex F] [Sha256] in
/-- The job that a call has claimed from the tables of a run: its attempt is new, and the
    tenant's investigation has no report. -/
theorem claimed_alive (env : Environment F) (hlife : Lifecycle S.store drawn) {now : Datetime} {claimed : ClaimedJob}
    (h : ((JobQueue.claim w.workerId.1 w.lease now).exec S.store).1 = .ok (some claimed)) :
    S.store.Unnumbered claimed ∧ ∃ i,
      InvestigationRepository.find? S.store claimed.tenant claimed.investigationId = some i ∧
      S.store.reports.get? i.investigationId.value = none := by
  rw [JobQueue.claim_exec] at h
  -- a claim at this moment is one of a call whose clock stands there
  let moment : Environment F :=
    { env with toSurroundings := { env.toSurroundings with clock := fun _ => now } }
  split at h
  · cases h
  · rename_i job rest hfirst
    split at h
    · cases h
    · rename_i expiry hlease
      obtain rfl := Option.some.inj (Except.ok.inj h)
      let c : Claim w moment S.store := ⟨job, rest, expiry, hfirst, hlease⟩
      obtain ⟨-, -, i, hi, htenant, -, -, hnone⟩ := c.alive hlife
      refine ⟨c.unnumbered hlife, i, InvestigationRepository.find?_eq_some.mpr ⟨hi, htenant⟩, ?_⟩
      have hid : c.job.investigationId.value = i.investigationId.value :=
        hlife.investigationsKeyed _ _ hi
      rw [← hid]
      exact hnone

/-- From the claimed job on. -/
theorem agrees_runClaimed (hgranted : env.Granted) {claimed : ClaimedJob}
    (hnew : base.Unnumbered claimed) {i : InvestigationRecord}
    (hfind : InvestigationRepository.find? base claimed.tenant claimed.investigationId = some i)
    (hnone : base.reports.get? i.investigationId.value = none) :
    ActsAlike (fun T => SameReports base T ∧ T.investigations = base.investigations) (fun _ => True)
      (w.runClaimed .memory env claimed) (w.runClaimed .postgres env claimed) := by
  unfold Worker.runClaimed
  refine agrees_readClock.bind (fun _ _ => trivial) fun started => ?_
  refine (agrees_getInvestigation hgranted _ _).attempt.bindOf (fun _ _ => trivial) fun v hv => ?_
  split
  · exact (agrees_setJobStatus hgranted (fun _ _ => trivial) (fun _ _ _ => trivial) _ _ _).bind
      (fun _ h => h) fun _ => agrees_commitReturn hgranted _
  · exact (ActsAlike.throw _).mono (fun _ h => h) fun _ _ => trivial
  · rename_i record
    apply ActsAlike.ite
    · exact (agrees_setJobStatus hgranted (fun _ _ => trivial) (fun _ _ _ => trivial) _ _ _).bind
        (fun _ h => h) fun _ => agrees_commitReturn hgranted _
    -- the investigation that was read is the one in the tables
    · obtain rfl : record = i := by
        obtain ⟨s, hopen, hv⟩ := hv
        rw [exec_attempt] at hv
        have hread := returned_of_statement (Except.ok.inj hv)
        rw [exec_onStore, InvestigationRepository.get_exec] at hread
        unfold InvestigationRepository.find? at hread hfind
        rw [hopen.2.2, hfind] at hread
        exact (Except.ok.inj hread).symm
      refine (agrees_setInvestigationStatus (q := SameReports base) hgranted (fun _ h => h.1)
        (fun _ _ h => h.1) _ _ _).bind (fun _ _ => trivial) fun _ => ?_
      exact (agrees_process hgranted hnew hnone started).bind (fun _ h => h) fun _ =>
        agrees_commitReturn hgranted _

/-- **A call of the worker** from the tables of a run, when nothing is refused. -/
theorem runOnce_agrees (hlife : Lifecycle S.store drawn) (hgranted : env.Granted) :
    (w.runOnce .postgres env).exec (Session.start S) =
      (w.runOnce .memory env).exec (Session.start S) := by
  unfold Worker.runOnce
  refine scope_endAlike (ActsAlike.endAlike (q := fun _ => True) ?_)
  show ActsAlike (fun T => T = S.store) _ _ _
  refine agrees_readClock.bind (fun _ _ => trivial) fun now => ?_
  have hclaim : ActsAlike (F := F) (fun T => T = S.store)
      (fun T => SameReports S.store T ∧ T.investigations = S.store.investigations)
      (statement .memory env.toSurroundings (onStore (JobQueue.claim w.workerId.1 w.lease now)))
      (statement .postgres env.toSurroundings (onStore (JobQueue.claim w.workerId.1 w.lease now))) := by
    apply agrees_onStore hgranted (by rintro T rfl; exact ⟨⟨rfl, rfl⟩, rfl⟩)
    rintro T rfl
    rw [JobQueue.claim_exec]
    split
    · exact ⟨by simp, ⟨rfl, rfl⟩, rfl⟩
    · split
      · exact ⟨nofun, ⟨rfl, rfl⟩, rfl⟩
      · exact ⟨by simp, ⟨rfl, rfl⟩, rfl⟩
  refine hclaim.bindOf (fun _ _ => trivial) fun claimed hclaimed => ?_
  cases claimed with
  | none => exact agrees_commitReturn hgranted _
  | some claimed =>
    obtain ⟨s, hopen, hclaimed⟩ := hclaimed
    have hread := returned_of_statement hclaimed
    rw [exec_onStore, hopen.2] at hread
    obtain ⟨hnew, i, hfind, hnone⟩ := claimed_alive env hlife hread
    exact agrees_runClaimed hgranted hnew hfind hnone

end worker

/-! ### Creations -/

section execute
variable {F : Type} {env : Surroundings}

/-- **A creation**, when nothing is refused. Whichever rows are there, it ends alike. -/
theorem execute_agrees (hgranted : env.Granted) (call : CreateCall) (S : Tracked F) :
    (CreateInvestigation.execute .postgres env call).exec (Session.start S) =
      (CreateInvestigation.execute .memory env call).exec (Session.start S) := by
  have hcommit : ∀ id : InvestigationId, EndAlike (F := F) (fun _ => True)
      (do commit .memory env; return id) (do commit .postgres env; return id) :=
    fun id => (agrees_commitReturn hgranted id).endAlike
  unfold CreateInvestigation.execute
  simp only [exec_bind]
  have hdraw : (drawId (F := F) call.investigationId.value).exec (Session.start S) =
      (.ok call.investigationId.value, { Session.start S with
        drawn := [] ++ [call.investigationId.value] }) := rfl
  rw [hdraw]
  refine scope_endAlike ?_
  refine (ActsAlike.lift _).bindEnd fun record => ?_
  refine endAlike_statement hgranted fun stored => ?_
  by_cases hnew : stored.investigationId = call.investigationId
  · simp only [if_pos hnew]
    refine (agrees_drawId _).bindEnd fun _ => ?_
    refine (ActsAlike.lift _).bindEnd fun job => ?_
    refine endAlike_statement hgranted fun _ => ?_
    exact endAlike_statement hgranted fun _ => hcommit _
  · simp only [if_neg hnew]
    exact hcommit _

end execute

/-! ### Runs -/

section runs
variable {F : Type} [PyFloat F] [LawfulPyFloat F] [FloatHex F] [Sha256]

/-- No statement of a call is refused. -/
def Call.Granted : Call F → Prop
  | .create _ env => env.Granted
  | .runOnce _ env => env.Granted

/-- The invariant of the committed tables holds over PostgreSQL as well. -/
theorem postgres_lifecycle {s : Service F} (h : Reachable (Service.postgres F) s) :
    ∃ m, Reachable (Service.system F) m ∧ Mirrors m s ∧ Lifecycle s.committed.store s.drawn := by
  obtain ⟨s₀, cs, rfl, hrun⟩ := h
  obtain ⟨cs', m, -, hrun', hm⟩ := Mirrors.run ⟨rfl, .refl _⟩ hrun
  have hreachable : Reachable (Service.system F) m := ⟨_, cs', rfl, hrun'⟩
  refine ⟨m, hreachable, hm, ?_⟩
  rw [← hm.committed]
  exact (lifecycle_reachable hreachable).mono hm.drawn.subset

omit [LawfulPyFloat F] in
/-- A call that is granted ends as over the in-memory store. -/
theorem granted_session {S : Tracked F} {drawn : List UUID} (hlife : Lifecycle S.store drawn)
    {c : Call F} (h : c.Granted) : c.postgresSession S = c.session S := by
  cases c with
  | create call env => exact congrArg Prod.snd (execute_agrees h call S)
  | runOnce worker env => exact congrArg Prod.snd (runOnce_agrees hlife h)

omit [LawfulPyFloat F] in
theorem granted_step {s s' : Service F} {c : Call F} (hlife : Lifecycle s.committed.store s.drawn)
    (h : c.Granted) : Service.postgresStep s c s' ↔ Service.step s c s' := by
  unfold Service.postgresStep Service.step
  rw [granted_session hlife h]

/-- **Runs of calls that are granted** are the same over both units of work, whatever was
    refused before them. -/
theorem granted_runs_agree {s : Service F} (hreachable : Reachable (Service.postgres F) s)
    {cs : List (Call F)} (hgranted : ∀ c ∈ cs, c.Granted) (s' : Service F) :
    Run (Service.postgres F) s cs s' ↔ Run (Service.system F) s cs s' := by
  obtain ⟨-, -, -, hlife⟩ := postgres_lifecycle hreachable
  clear hreachable
  induction cs generalizing s with
  | nil =>
    constructor
    · rintro ⟨⟩
      exact .nil _
    · rintro ⟨⟩
      exact .nil _
  | cons c cs ih =>
    have hc : c.Granted := hgranted c List.mem_cons_self
    have hcs : ∀ c ∈ cs, c.Granted := fun c hmem => hgranted c (List.mem_cons_of_mem _ hmem)
    constructor
    · intro h
      cases h with
      | cons hstep hrest =>
        have hstep := (granted_step hlife hc).mp hstep
        exact .cons hstep ((ih hcs (lifecycle_step hlife hstep)).mp hrest)
    · intro h
      cases h with
      | cons hstep hrest =>
        have hlife' := lifecycle_step hlife hstep
        exact .cons ((granted_step hlife hc).mpr hstep) ((ih hcs hlife').mpr hrest)

end runs

namespace Demo

/-- The database refuses every statement. -/
def outage : Surroundings := { calm with fails := fun _ => true }

/-- The service over PostgreSQL when a creation was refused. -/
def refusedService : Service ExactFloat := ⟨Tracked.empty, [⟨2, UUID.two_lt⟩]⟩

theorem refusedService_reachable : Reachable (Service.postgres ExactFloat) refusedService :=
  ⟨_, [.create (createCall false) outage], rfl, .single ⟨by simp [Call.Fresh], by decide +kernel, rfl⟩⟩

/-- The service when the creation was tried again. -/
def retriedService : Service ExactFloat := ⟨createdService.committed, [⟨2, UUID.two_lt⟩] ++ createdService.drawn⟩

theorem retriedService_run : Run (Service.system ExactFloat) refusedService
    [.create (createCall true) calm] retriedService :=
  .single ⟨by simp [Call.Fresh, createCall, refusedService], by decide +kernel, rfl⟩

end Demo

open Demo in
theorem granted_runs_agree_demo :
    Run (Service.postgres ExactFloat) refusedService [.create (createCall true) calm] retriedService :=
  (granted_runs_agree refusedService_reachable (by simp [Call.Granted, Surroundings.Granted, calm])
    retriedService).mpr retriedService_run

/-! ### After an outage -/

section outage
variable {F : Type} [PyFloat F] [LawfulPyFloat F] [FloatHex F] [Sha256]

variable {w : Worker F} {calls : ℕ → Environment F} {s m : Service F}

omit [LawfulPyFloat F] in
/-- The calls of one worker, mirrored. -/
theorem Mirrors.drained (h : Mirrors m s) (n : ℕ) :
    Mirrors (w.drained calls m n) (w.drained calls s n) := by
  induction n with
  | zero => exact h
  | succ n ih =>
    rw [Worker.drained_succ, Worker.drained_succ]
    constructor
    · show ((Call.runOnce w (calls n)).session _).shared = _
      rw [ih.committed]
      rfl
    · show (_ ++ ((Call.runOnce w (calls n)).session _).drawn).Sublist _
      rw [ih.committed]
      exact ih.drawn.append_right _

omit [LawfulPyFloat F] in
theorem Worker.Calls.mirrored (h : Mirrors m s) (hcalls : w.Calls calls s) : w.Calls calls m where
  ordinary := hcalls.ordinary
  lease := hcalls.lease
  available := by
    rw [h.committed]
    exact hcalls.available
  fresh n := (hcalls.fresh n).sublist (h.drained n).drawn

/-- One of the calls returns something else than true, and no later than after all attempts. -/
theorem Worker.Calls.ends (h : w.Calls calls s) (hreachable : Reachable (Service.system F) s) :
    ∃ n ≤ w.budget s.committed.store,
      w.returned (calls n) (w.drained calls s n).committed ≠ .ok true := by
  by_contra hnever
  have htrue : ∀ k ≤ w.budget s.committed.store,
      w.returned (calls k) (w.drained calls s k).committed = .ok true :=
    fun k hk => by_contra fun hne => hnever ⟨k, hk, hne⟩
  have hbudget := h.budget_le hreachable (w.budget s.committed.store + 1)
    fun k hk => htrue k (by omega)
  omega

/-- **After an outage the queue drains.** Whatever was refused and cancelled in a run over
    PostgreSQL: once no statement is refused any more, a worker that keeps calling `run_once`, with
    clocks, ids and ports as `Worker.Calls` asks, is done after as many calls as attempts are left.
    Every job and its investigation have succeeded or failed then, and further calls change
    nothing. -/
theorem outage_over_drains (hreachable : Reachable (Service.postgres F) s)
    (hgranted : ∀ n, (calls n).Granted) (hcalls : w.Calls calls s) :
    (∀ n, Run (Service.postgres F) s ((List.range n).map fun k => .runOnce w (calls k))
      (w.drained calls s n)) ∧
    ∃ n ≤ w.budget s.committed.store, (w.drained calls s n).committed.store.Drained ∧
      ∀ k, n ≤ k → (w.drained calls s k).committed = (w.drained calls s n).committed := by
  -- the in-memory service beside it drains, and both commit the same tables
  obtain ⟨m, hm, hmirrors, -⟩ := postgres_lifecycle hreachable
  have hcallsM := hcalls.mirrored hmirrors
  have hserving := hcallsM.serving hm
  constructor
  · intro n
    induction n with
    | zero => exact .nil s
    | succ n ih =>
      rw [List.range_succ, List.map_append]
      refine ih.append (.single ?_)
      have hlife : Lifecycle (w.drained calls s n).committed.store (w.drained calls s n).drawn := by
        rw [← (hmirrors.drained n).committed]
        exact (hserving n).lifecycle.mono (hmirrors.drained n).drawn.subset
      apply (granted_step hlife (show Call.Granted (.runOnce w (calls n)) from hgranted n)).mpr
      exact ⟨trivial, hcalls.fresh (n + 1), rfl⟩
  · obtain ⟨n, hn, hidle⟩ := hcallsM.ends hm
    obtain ⟨hended, hafter⟩ := hcallsM.idle hm hidle
    rw [hmirrors.committed] at hn
    rw [(hmirrors.drained n).committed] at hended
    refine ⟨n, hn, ?_, ?_⟩
    · intro j hj
      have hlife := (hserving n).lifecycle
      rw [(hmirrors.drained n).committed] at hlife
      obtain ⟨i, hi, htenant, hphase⟩ := hlife.phase _ j (hlife.jobsKeyed.get?_of_mem hj)
      refine ⟨hended j hj, i, Dict.mem_values.mpr ⟨_, hi⟩, ?_, htenant, hphase.over (hended j hj)⟩
      exact InvestigationId.ext (hlife.investigationsKeyed _ _ hi).symm
    · intro k hk
      rw [← (hmirrors.drained k).committed, ← (hmirrors.drained n).committed, (hafter k hk).1]

end outage

namespace Demo

theorem retriedService_reachable : Reachable (Service.postgres ExactFloat) retriedService :=
  refusedService_reachable.step
    (show Service.postgresStep _ (.create (createCall true) calm) _ from ⟨by simp [Call.Fresh, createCall, refusedService], by decide +kernel, rfl⟩)

/-- The id of the refused creation stays in front. -/
theorem drained_retried (n : ℕ) : (worker.drained (fun _ => noTelemetry) retriedService n).drawn =
    ⟨2, by decide⟩ :: (worker.drained (fun _ => noTelemetry) createdService n).drawn := by
  have hmirrors : Mirrors createdService retriedService := ⟨rfl, List.sublist_cons_self _ _⟩
  induction n with
  | zero => rfl
  | succ n ih =>
    rw [Worker.drained_succ, Worker.drained_succ]
    show _ ++ ((Call.runOnce worker noTelemetry).session _).drawn = _ ::
      (_ ++ ((Call.runOnce worker noTelemetry).session _).drawn)
    rw [ih, (hmirrors.drained n).committed, List.cons_append]

theorem retriedService_calls : worker.Calls (fun _ => noTelemetry) retriedService where
  ordinary _ := noTelemetry_ordinary
  lease _ := by decide +kernel
  available _ := by decide +kernel
  fresh n := by
    rw [drained_retried]
    cases n with
    | zero => decide +kernel
    | succ n =>
      rw [drained_failed]
      decide +kernel

end Demo

open Demo in
/-- After an outage, a call of a worker without telemetry ends the one job there is. -/
theorem outage_over_drains_demo : ∃ n ≤ worker.budget retriedService.committed.store,
    (worker.drained (fun _ => noTelemetry) retriedService n).committed.store.Drained := by
  obtain ⟨-, n, hn, hdrained, -⟩ :=
    outage_over_drains retriedService_reachable (fun _ _ => rfl) retriedService_calls
  exact ⟨n, hn, hdrained⟩

end IncidentEvidence
