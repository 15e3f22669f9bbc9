import IncidentEvidence.Concurrency.Snapshots
import IncidentEvidence.Persistence.Memory

/-! # In-memory units of work

    `InMemoryUnitOfWork` and its factory. The tables of a `_Store` are objects
    that repositories change in place, and `adopt` makes the shared store refer to
    the tables of the working copy. So tables live in a heap here, and a store is
    the location of its tables: a stale alias would be visible.

    No working copy is ever an alias of the shared tables (`Process.Ok`), hence
    the heap machine refines the machine of `Snapshots`, and
    **the units of work are serializable** (`unit_of_work_serializable`).
-/

namespace IncidentEvidence

open Py Runs Snapshots

/-! ### Operations -/

/-- A call of a repository method. The methods that read the system clock carry the
    instant it gave. -/
inductive Operation where
  | investigationsCreate (record : InvestigationRecord)
  | investigationsGet (tenant : TenantId) (investigationId : InvestigationId)
  | investigationsSetStatus (tenant : TenantId) (investigationId : InvestigationId)
      (status : InvestigationStatus) (now : Datetime)
  | jobsEnqueue (record : JobRecord)
  | jobsClaim (workerId : Str) (lease : Int) (moment : Datetime)
  | jobsGet (tenant : TenantId) (jobId : JobId)
  | jobsSetStatus (tenant : TenantId) (jobId : JobId) (status : JobStatus) (now : Datetime)
  | attemptsRecord (record : AttemptRecord)
  | attemptsList (tenant : TenantId) (jobId : JobId)
  | evidenceAppend (records : List EvidenceRecord)
  | evidenceList (tenant : TenantId) (investigationId : InvestigationId)
  | reportsPut (record : ReportRecord)
  | reportsGet (tenant : TenantId) (investigationId : InvestigationId)
  | auditRecord (record : AuditRecord)
  | auditList (tenant : TenantId) (investigationId : InvestigationId)

/-- What a repository method returns. -/
inductive Reply where
  | investigation (record : InvestigationRecord)
  | job (record : JobRecord)
  | claimed (job : Option ClaimedJob)
  | attempt (record : AttemptRecord)
  | attempts (records : List AttemptRecord)
  | evidence (records : List EvidenceRecord)
  | report (record : ReportRecord)
  | audit (records : List AuditRecord)
  | done

/-- The method a call runs. -/
def Operation.body : Operation → Repository Reply
  | .investigationsCreate record => .investigation <$> InvestigationRepository.create record
  | .investigationsGet tenant id => .investigation <$> InvestigationRepository.get tenant id
  | .investigationsSetStatus tenant id status now =>
    .investigation <$> InvestigationRepository.setStatus tenant id status now
  | .jobsEnqueue record => .job <$> JobQueue.enqueue record
  | .jobsClaim workerId lease moment => .claimed <$> JobQueue.claim workerId lease moment
  | .jobsGet tenant id => .job <$> JobQueue.get tenant id
  | .jobsSetStatus tenant id status now => .job <$> JobQueue.setStatus tenant id status now
  | .attemptsRecord record => .attempt <$> AttemptRepository.record record
  | .attemptsList tenant id =>
    (fun s => .attempts (AttemptRepository.listForJob s tenant id)) <$> get
  | .evidenceAppend records => .evidence <$> EvidenceRepository.append records
  | .evidenceList tenant id =>
    (fun s => .evidence (EvidenceRepository.listForInvestigation s tenant id)) <$> get
  | .reportsPut record => .report <$> ReportRepository.put record
  | .reportsGet tenant id => .report <$> ReportRepository.get tenant id
  | .auditRecord record => (fun _ => .done) <$> AuditLog.record record
  | .auditList tenant id => (fun s => .audit (AuditLog.listForInvestigation s tenant id)) <$> get

/-- A call on the tables it finds: what it returns or raises, and the tables then. -/
def Operation.run (op : Operation) (s : Store) : Except PyException Reply × Store :=
  op.body.exec s

/-! ### Units of work -/

/-- Where the tables of a `_Store` are. -/
abbrev Loc := Nat

/-- An `InMemoryUnitOfWork`. -/
structure UnitOfWork where
  /-- `_working`. -/
  working : Loc
  /-- The store the current repositories are bound to. -/
  repositories : Loc

/-- The process: the heap of tables, the factory's store and lock, and the units of
    work created so far. -/
structure Process (ι : Type) where
  heap : Loc → Store
  /-- The next unused location. -/
  fresh : Loc
  /-- `_store` of the factory. -/
  shared : Loc
  /-- The unit that holds the `asyncio.Lock`. -/
  lock : Option ι
  units : ι → Option UnitOfWork

variable {ι : Type} [DecidableEq ι]

namespace Process

/-- `InMemoryUnitOfWorkFactory()`. -/
def factory : Process ι := ⟨fun _ => Store.empty, 1, 0, none, fun _ => none⟩

/-- The tables everyone sees. -/
def sharedStore (p : Process ι) : Store := p.heap p.shared

/-- `self._working = self._shared.snapshot()` and `self._rebind()`. -/
def snapshot (p : Process ι) (u : ι) : Process ι :=
  { p with
    heap := fun loc => if loc = p.fresh then p.heap p.shared else p.heap loc
    fresh := p.fresh + 1
    units := fun v => if v = u then some ⟨p.fresh, p.fresh⟩ else p.units v }

/-- `self._shared.adopt(self._working)`. -/
def adopt (p : Process ι) (x : UnitOfWork) : Process ι := { p with shared := x.working }

/-- An operation through the current repositories, which change the tables in place. -/
def perform (p : Process ι) (x : UnitOfWork) (op : Operation) : Process ι :=
  { p with heap := fun loc =>
      if loc = x.repositories then (op.run (p.heap x.repositories)).2 else p.heap loc }

/-- One step of one unit of work. Repositories, `commit` and `rollback` are used
    inside the scope only. -/
def step (p : Process ι) : ι × Event Operation (Except PyException Reply) → Process ι → Prop
  | (u, .create), p' => p.units u = none ∧ p' = p.snapshot u
  | (u, .enter), p' => (∃ x, p.units u = some x) ∧ p.lock = none ∧
      p' = { p.snapshot u with lock := some u }
  | (_, .abandon), p' => p' = p
  | (u, .run op reply), p' => ∃ x, p.units u = some x ∧ p.lock = some u ∧
      reply = (op.run (p.heap x.repositories)).1 ∧ p' = p.perform x op
  | (u, .commit), p' => ∃ x, p.units u = some x ∧ p.lock = some u ∧ p' = (p.adopt x).snapshot u
  | (u, .rollback), p' => ∃ x, p.units u = some x ∧ p.lock = some u ∧ p' = p.snapshot u
  | (u, .leave), p' => p.lock = some u ∧ p' = { p with lock := none }

/-- All units of work of one factory. -/
def system : System (Process ι) (ι × Event Operation (Except PyException Reply)) where
  init p := p = factory
  step := step

/-! ### Refinement -/

/-- No two of the shared store and the working copies have their tables in common,
    and repositories are bound to the working copy. -/
structure Ok (p : Process ι) : Prop where
  shared_lt : p.shared < p.fresh
  unit : ∀ u x, p.units u = some x →
    x.working < p.fresh ∧ x.working ≠ p.shared ∧ x.repositories = x.working
  distinct : ∀ u v x y, p.units u = some x → p.units v = some y → x.working = y.working → u = v
  holder : ∀ u, p.lock = some u → ∃ x, p.units u = some x

/-- What the heap stands for: the shared tables and the copy of the unit that holds
    the lock. -/
def machine (p : Process ι) : Machine ι Store where
  shared := p.sharedStore
  scope := p.lock.bind fun u => (p.units u).map fun x => (u, p.heap x.working)

variable {p p' : Process ι} {u : ι} {x : UnitOfWork}

omit [DecidableEq ι] in
theorem machine_scope (hlock : p.lock = some u) (hunit : p.units u = some x) :
    p.machine.scope = some (u, p.heap x.working) := by
  simp [machine, hlock, hunit]

omit [DecidableEq ι] in
theorem machine_scope_eq_some {v : ι} {w : Store} (h : p.machine.scope = some (v, w)) :
    p.lock = some v ∧ ∃ x, p.units v = some x := by
  unfold machine at h
  cases hlock : p.lock with
  | none => simp [hlock] at h
  | some u =>
    cases hunit : p.units u with
    | none => simp [hlock, hunit] at h
    | some x =>
      simp only [hlock, hunit, Option.bind_some, Option.map_some, Option.some.injEq,
        Prod.mk.injEq] at h
      obtain ⟨rfl, -⟩ := h
      exact ⟨rfl, x, hunit⟩

omit [DecidableEq ι] in
theorem ok_factory : (factory : Process ι).Ok where
  shared_lt := Nat.one_pos
  unit _ _ h := absurd h (by simp [factory])
  distinct _ _ _ _ h := absurd h (by simp [factory])
  holder _ h := absurd h (by simp [factory])

/-- A snapshot copies the shared tables to a location nobody has; the copy that its
    unit had before does not matter. -/
theorem ok_snapshot (hshared : p.shared < p.fresh)
    (hunit : ∀ v y, v ≠ u → p.units v = some y →
      y.working < p.fresh ∧ y.working ≠ p.shared ∧ y.repositories = y.working)
    (hdistinct : ∀ v w y z, p.units v = some y → p.units w = some z → y.working = z.working → v = w)
    (hholder : ∀ v, p.lock = some v → ∃ x, p.units v = some x) : (p.snapshot u).Ok where
  shared_lt := Nat.lt_succ_of_lt hshared
  unit v y hy := by
    change (if v = u then some ⟨p.fresh, p.fresh⟩ else p.units v) = some y at hy
    by_cases hv : v = u
    · rw [if_pos hv] at hy
      obtain rfl := Option.some.inj hy
      exact ⟨Nat.lt_succ_self _, Nat.ne_of_gt hshared, rfl⟩
    · rw [if_neg hv] at hy
      obtain ⟨hlt, hne, hbound⟩ := hunit v y hv hy
      exact ⟨Nat.lt_succ_of_lt hlt, hne, hbound⟩
  distinct v w y z hy hz hloc := by
    change (if v = u then some ⟨p.fresh, p.fresh⟩ else p.units v) = some y at hy
    change (if w = u then some ⟨p.fresh, p.fresh⟩ else p.units w) = some z at hz
    by_cases hv : v = u
    · by_cases hw : w = u
      · rw [hv, hw]
      · rw [if_pos hv] at hy
        rw [if_neg hw] at hz
        obtain rfl := Option.some.inj hy
        exact absurd hloc (Nat.ne_of_gt (hunit w z hw hz).1)
    · by_cases hw : w = u
      · rw [if_neg hv] at hy
        rw [if_pos hw] at hz
        obtain rfl := Option.some.inj hz
        exact absurd hloc (Nat.ne_of_lt (hunit v y hv hy).1)
      · rw [if_neg hv] at hy
        rw [if_neg hw] at hz
        exact hdistinct v w y z hy hz hloc
  holder v hv := by
    show ∃ x, (if v = u then some ⟨p.fresh, p.fresh⟩ else p.units v) = some x
    by_cases heq : v = u
    · exact ⟨_, if_pos heq⟩
    · rw [if_neg heq]
      exact hholder v hv

theorem Ok.snapshot (h : p.Ok) (u : ι) : (p.snapshot u).Ok :=
  ok_snapshot h.shared_lt (fun v y _ => h.unit v y) h.distinct h.holder

/-- The heap below `fresh` is as before a snapshot. -/
theorem snapshot_heap {loc : Loc} (hloc : loc < p.fresh) :
    (p.snapshot u).heap loc = p.heap loc :=
  if_neg (Nat.ne_of_lt hloc)

/-- The holder's copy after its snapshot is the shared store. -/
theorem machine_snapshot (hshared : p.shared < p.fresh) (hlock : p'.lock = some u)
    (hsame : (p'.heap, p'.units, p'.shared) =
      ((p.snapshot u).heap, (p.snapshot u).units, (p.snapshot u).shared)) :
    p'.machine = ⟨p.sharedStore, some (u, p.sharedStore)⟩ := by
  obtain ⟨hheap, hrest⟩ := Prod.mk.inj hsame
  obtain ⟨hunits, hloc⟩ := Prod.mk.inj hrest
  have hstore : p'.sharedStore = p.sharedStore := by
    unfold sharedStore
    rw [hheap, hloc]
    exact snapshot_heap hshared
  have hunit : p'.units u = some ⟨p.fresh, p.fresh⟩ := by
    rw [hunits]
    exact if_pos rfl
  have hcopy : p'.heap p.fresh = p.sharedStore := by
    rw [hheap]
    exact if_pos rfl
  show Machine.mk p'.sharedStore p'.machine.scope = _
  rw [machine_scope hlock hunit, hstore, hcopy]

/-- A unit created by the way changes nothing the others see. -/
theorem machine_create (h : p.Ok) (hnew : p.units u = none) : (p.snapshot u).machine = p.machine := by
  have hshared : (p.snapshot u).sharedStore = p.sharedStore := snapshot_heap h.shared_lt
  show Machine.mk (p.snapshot u).sharedStore (p.snapshot u).machine.scope =
    Machine.mk p.sharedStore p.machine.scope
  rw [hshared]
  cases hlock : p.lock with
  | none =>
    have hlock' : (p.snapshot u).lock = none := hlock
    simp [machine, hlock, hlock']
  | some v =>
    obtain ⟨x, hx⟩ := h.holder v hlock
    have hv : v ≠ u := fun heq => by simp [heq, hnew] at hx
    have hx' : (p.snapshot u).units v = some x := (if_neg hv).trans hx
    rw [machine_scope hlock hx, machine_scope (p := p.snapshot u) hlock hx',
      snapshot_heap (h.unit v x hx).1]

/-- **Every step of the heap machine is a step of the snapshot machine.** -/
theorem simulates_step {e : ι × Event Operation (Except PyException Reply)} (h : p.Ok)
    (hstep : step p e p') : p'.Ok ∧ Snapshots.step Operation.run p.machine e p'.machine := by
  obtain ⟨u, e⟩ := e
  cases e with
  | create =>
    obtain ⟨hnew, rfl⟩ := hstep
    refine ⟨h.snapshot u, ?_, ?_⟩
    · intro w hscope
      obtain ⟨-, x, hx⟩ := machine_scope_eq_some hscope
      rw [hnew] at hx
      exact absurd hx (by simp)
    · exact machine_create h hnew
  | abandon =>
    obtain rfl := hstep
    exact ⟨h, rfl⟩
  | enter =>
    obtain ⟨-, hfree, rfl⟩ := hstep
    refine ⟨⟨(h.snapshot u).shared_lt, (h.snapshot u).unit, (h.snapshot u).distinct, ?_⟩, ?_, ?_⟩
    · intro v hv
      obtain rfl := Option.some.inj hv
      exact ⟨_, if_pos rfl⟩
    · simp [machine, hfree]
    · exact machine_snapshot h.shared_lt rfl rfl
  | run op reply =>
    obtain ⟨x, hunit, hlock, hreply, rfl⟩ := hstep
    obtain ⟨-, hne, hbound⟩ := h.unit u x hunit
    refine ⟨⟨h.shared_lt, h.unit, h.distinct, h.holder⟩, _, machine_scope hlock hunit, ?_, ?_⟩
    · rw [hreply, hbound]
    · -- the tables changed in place are the copy's, not the shared ones
      have hshared : (p.perform x op).sharedStore = p.sharedStore :=
        if_neg (by rw [hbound]; exact hne.symm)
      have hcopy : (p.perform x op).heap x.working = (op.run (p.heap x.working)).2 := by
        show (if x.working = x.repositories then _ else _) = _
        rw [hbound, if_pos rfl]
      show Machine.mk _ (p.perform x op).machine.scope = _
      rw [machine_scope (p := p.perform x op) hlock hunit, hshared, hcopy]
      rfl
  | commit =>
    obtain ⟨x, hunit, hlock, rfl⟩ := hstep
    obtain ⟨hlt, -, -⟩ := h.unit u x hunit
    refine ⟨?_, _, machine_scope hlock hunit, ?_⟩
    · -- the tables of the working copy are the shared ones now, and no other unit has them
      refine ok_snapshot (p := p.adopt x) hlt ?_ h.distinct h.holder
      intro v y hv hy
      obtain ⟨hvlt, -, hvbound⟩ := h.unit v y hy
      exact ⟨hvlt, fun hloc => hv (h.distinct v u y x hy hunit hloc), hvbound⟩
    · exact machine_snapshot (p := p.adopt x) hlt hlock rfl
  | rollback =>
    obtain ⟨x, hunit, hlock, rfl⟩ := hstep
    refine ⟨h.snapshot u, _, machine_scope hlock hunit, ?_⟩
    exact machine_snapshot h.shared_lt hlock rfl
  | leave =>
    obtain ⟨hlock, rfl⟩ := hstep
    obtain ⟨x, hunit⟩ := h.holder u hlock
    refine ⟨⟨h.shared_lt, h.unit, h.distinct, fun v hv => absurd hv (by simp)⟩, _,
      machine_scope hlock hunit, rfl⟩

end Process

/-! ### Serializability -/

/-- What the trace of a run says of a unit's operations. -/
abbrev Trace (ι : Type) := List (ι × Event Operation (Except PyException Reply))

/-- **The in-memory unit of work is serializable and atomic.** After every run of
    any number of units of one factory:
    - the shared store is the result of executing, one after another in commit
      order, the operations each scope performed between its last snapshot and its
      commits, with the replies they had;
    - the unit inside its scope sees these and its own pending operations;
    - no step but a commit changes the shared store, and a commit only adds to what
      was committed before;
    - operations that no commit of their scope follows are not among them. -/
theorem unit_of_work_serializable {trace : Trace ι} {p : Process ι}
    (hrun : Run Process.system Process.factory trace p) :
    Serial Operation.run Store.empty (History.start.after trace).committed p.sharedStore ∧
      (∀ u x, p.lock = some u → p.units u = some x →
        Serial Operation.run Store.empty
          ((History.start.after trace).committed ++ (History.start.after trace).pending u)
          (p.heap x.working)) ∧
      (∀ u e p', Process.step p (u, e) p' →
        (e ≠ .commit → p'.sharedStore = p.sharedStore) ∧
          (History.start.after trace).committed <+:
            (History.start.after (trace ++ [(u, e)])).committed) ∧
      ∀ before scope rest u, trace = before ++ scope ++ (u, .leave) :: rest → (u, .commit) ∉ scope →
        ofUnit u (History.start.after trace).committed =
          ofUnit u (History.start.after before).committed ++
            ofUnit u (History.start.after rest).committed := by
  obtain ⟨hok, hmachine⟩ := hrun.simulates (T := Snapshots.machine Operation.run Store.empty)
    (f := Process.machine) (P := Process.Ok) (fun _ _ _ h hstep => Process.simulates_step h hstep)
    Process.ok_factory
  have hexplained := explained_of_run hmachine (explained_start Store.empty)
  refine ⟨hexplained.shared, ?_, ?_, ?_⟩
  · intro u x hlock hunit
    exact hexplained.working u _ (Process.machine_scope hlock hunit)
  · intro u e p' hstep
    refine ⟨fun hcommit => ?_, ?_⟩
    · exact shared_of_step (Process.simulates_step hok hstep).2 hcommit
    · rw [History.after_append]
      exact History.committed_prefix_observe _ _
  · intro before scope rest u htrace hno
    subst htrace
    exact uncommitted_scope hmachine hno

namespace Demo

theorem worker_notBlank : isBlank (str "worker") = false := by decide

/-- An audit record, written by one of two units of work. -/
def auditRecord : AuditRecord where
  tenant := ⟨str "tenant"⟩
  investigationId := none
  actor := ⟨str "worker", worker_notBlank⟩
  action := ⟨str "checked", by decide⟩
  detail := none
  occurredAt := ⟨0, Datetime.zero_lt⟩

end Demo

theorem unit_of_work_serializable_demo : ∃ p : Process Bool,
    p.sharedStore.audit = [Demo.auditRecord] ∧
      Serial Operation.run Store.empty
        [⟨true, .auditRecord Demo.auditRecord, .ok .done⟩] p.sharedStore := by
  have hrun : Run Process.system (Process.factory : Process Bool)
      [(true, .create), (false, .create), (true, .enter),
        (true, .run (.auditRecord Demo.auditRecord) (.ok .done)), (true, .commit), (true, .leave),
        (false, .enter), (false, .leave)] _ :=
    .cons ⟨rfl, rfl⟩ <| .cons ⟨rfl, rfl⟩ <| .cons ⟨⟨_, rfl⟩, rfl, rfl⟩ <|
      .cons ⟨_, rfl, rfl, rfl, rfl⟩ <| .cons ⟨_, rfl, rfl, rfl⟩ <| .cons ⟨rfl, rfl⟩ <|
      .cons ⟨⟨_, rfl⟩, rfl, rfl⟩ <| .cons ⟨rfl, rfl⟩ <| .nil _
  exact ⟨_, rfl, (unit_of_work_serializable hrun).1⟩

end IncidentEvidence
