import IncidentEvidence.Persistence.UnitOfWork
import IncidentEvidence.Sql.Tables

/-! # The SQL schema and the in-memory store

    The uniqueness constraints of `migrations/0001_initial.sql`, and the INSERTs of
    `postgres/unit_of_work.py` over tables that keep them. Foreign keys are taken
    as satisfied. A column holds the value of its record as it is: that an `integer`
    is bounded and that a `text` holds no NUL is left out. The surrogate keys of
    `evidence` and `reports`, which the database generates, and the serial key of
    `audit` are in no record and are left out.

    The main result compares each write with the in-memory one
    (`memory_agrees_with_schema`).
-/

namespace IncidentEvidence

open Py Py.Action

/-! ### Schema -/

/-- The tables of the database. -/
structure Tables where
  investigations : List InvestigationRecord
  jobs : List JobRecord
  attempts : List AttemptRecord
  evidence : List EvidenceRecord
  reports : List ReportRecord
  audit : List AuditRecord

namespace Tables

/-- `investigations_tenant_idempotency_key`: unique where the key is not null. -/
def idempotencyIndex : Sql.Index InvestigationRecord :=
  Sql.uniqueWhere fun r => r.idempotencyKey.map fun key => (r.tenant, key)

def investigationIndexes : List (Sql.Index InvestigationRecord) :=
  [Sql.uniqueOn fun r => r.investigationId.value, idempotencyIndex]

def jobIndexes : List (Sql.Index JobRecord) := [Sql.uniqueOn fun r => r.jobId.value]

def attemptIndexes : List (Sql.Index AttemptRecord) :=
  [Sql.uniqueOn fun r => r.attemptId.value, Sql.uniqueOn fun r => (r.jobId, r.attemptNumber)]

/-- `UNIQUE (tenant_id, run_id, evidence_id)`. -/
def evidenceIndex : Sql.Index EvidenceRecord := Sql.uniqueOn EvidenceRepository.key

def reportIndexes : List (Sql.Index ReportRecord) := [Sql.uniqueOn fun r => r.investigationId.value]

/-- The tables satisfy the unique constraints. -/
structure Holds (t : Tables) : Prop where
  investigations : Sql.Satisfies investigationIndexes t.investigations
  jobs : Sql.Satisfies jobIndexes t.jobs
  attempts : Sql.Satisfies attemptIndexes t.attempts
  evidence : Sql.Satisfies [evidenceIndex] t.evidence
  reports : Sql.Satisfies reportIndexes t.reports

end Tables

/-- The rows of an in-memory store. -/
def Store.tables (s : Store) : Tables :=
  ⟨s.investigations.values, s.jobs.values, s.attempts.values, s.evidence.values,
    s.reports.values, s.audit⟩

/-- A store that satisfies the constraints: each row is stored under its own key, and
    the rows satisfy the schema. -/
structure Store.Valid (s : Store) : Prop where
  investigations : s.investigations.Keyed fun r => r.investigationId.value
  jobs : s.jobs.Keyed fun r => r.jobId.value
  attempts : s.attempts.Keyed fun r => r.attemptId.value
  evidence : s.evidence.Keyed EvidenceRepository.key
  reports : s.reports.Keyed fun r => r.investigationId.value
  holds : s.tables.Holds

/-! ### Statements -/

/-- A computation over the database. -/
abbrev Transaction := Action PyException Tables

namespace Postgres

/-- `investigations.create`. -/
def create (record : InvestigationRecord) : Transaction InvestigationRecord := do
  let t ← get
  match record.idempotencyKey with
  | some key =>
    match Sql.insertOrNothing Tables.idempotencyIndex Tables.investigationIndexes t.investigations
        record with
    | none => throw idempotencyConflict
    | some (some inserted, rows) =>
      set { t with investigations := rows }
      return inserted
    | some (none, _) =>
      let existing := t.investigations.find? fun row =>
        row.tenant = record.tenant ∧ row.idempotencyKey = some key
      lift (orRaise existing idempotencyConflict)
  | none =>
    let rows ← lift (orRaise (Sql.insert Tables.investigationIndexes t.investigations record)
      idempotencyConflict)
    set { t with investigations := rows }
    return record

/-- `jobs.enqueue`. -/
def enqueue (record : JobRecord) : Transaction JobRecord := do
  let t ← get
  let rows ← lift (orRaise (Sql.insert Tables.jobIndexes t.jobs record) idempotencyConflict)
  set { t with jobs := rows }
  return record

/-- `attempts.record`. -/
def record (record : AttemptRecord) : Transaction AttemptRecord := do
  let t ← get
  let rows ← lift (orRaise (Sql.insert Tables.attemptIndexes t.attempts record) idempotencyConflict)
  set { t with attempts := rows }
  return record

/-- One turn of the loop of `evidence.append`. -/
def appendOne (record : EvidenceRecord) : Transaction EvidenceRecord := do
  let t ← get
  match Sql.insertOrNothing Tables.evidenceIndex [Tables.evidenceIndex] t.evidence record with
  | none => throw .database
  | some (some inserted, rows) =>
    set { t with evidence := rows }
    return inserted
  | some (none, _) =>
    let existing := t.evidence.find? fun row =>
      EvidenceRepository.key row = EvidenceRepository.key record
    -- `assert existing is not None`
    lift (orRaise existing .other)

/-- `evidence.append`. -/
def append (records : List EvidenceRecord) : Transaction (List EvidenceRecord) :=
  records.mapM appendOne

/-- `reports.put`. -/
def put (record : ReportRecord) : Transaction ReportRecord := do
  let t ← get
  let rows ← lift (orRaise (Sql.insert Tables.reportIndexes t.reports record) idempotencyConflict)
  set { t with reports := rows }
  return record

end Postgres

/-! ### Writes -/

/-- The calls that insert rows under a uniqueness constraint. -/
inductive Write where
  | createInvestigation (record : InvestigationRecord)
  | enqueueJob (record : JobRecord)
  | recordAttempt (record : AttemptRecord)
  | appendEvidence (records : List EvidenceRecord)
  | putReport (record : ReportRecord)

/-- A write on the in-memory store. -/
def Write.memory : Write → Repository Reply
  | .createInvestigation record => .investigation <$> InvestigationRepository.create record
  | .enqueueJob record => .job <$> JobQueue.enqueue record
  | .recordAttempt record => .attempt <$> AttemptRepository.record record
  | .appendEvidence records => .evidence <$> EvidenceRepository.append records
  | .putReport record => .report <$> ReportRepository.put record

/-- The same write on the database. -/
def Write.postgres : Write → Transaction Reply
  | .createInvestigation record => .investigation <$> Postgres.create record
  | .enqueueJob record => .job <$> Postgres.enqueue record
  | .recordAttempt record => .attempt <$> Postgres.record record
  | .appendEvidence records => .evidence <$> Postgres.append records
  | .putReport record => .report <$> Postgres.put record

/-- Every row of `s` is still there, in its place. -/
structure Kept (s s' : Store) : Prop where
  investigations : s.investigations.values <+: s'.investigations.values
  jobs : s.jobs.values <+: s'.jobs.values
  attempts : s.attempts.values <+: s'.attempts.values
  evidence : s.evidence.values <+: s'.evidence.values
  reports : s.reports.values <+: s'.reports.values
  audit : s.audit <+: s'.audit

/-- How the outcome of a call on a store compares with that on its tables. -/
structure Agree {α : Type} (s : Store) (memory : Except PyException α × Store)
    (sql : Except PyException α × Tables) : Prop where
  /-- Both raise `IdempotencyConflictError` or neither does. -/
  conflict : memory.1 = .error idempotencyConflict ↔ sql.1 = .error idempotencyConflict
  /-- A call that raises leaves every row as it was. -/
  unchanged : (∀ e, memory.1 = .error e → memory.2 = s) ∧ ∀ e, sql.1 = .error e → sql.2 = s.tables
  /-- Otherwise both return the same records and make the same tables. -/
  accepted : ∀ r, memory.1 = .ok r → sql = (.ok r, memory.2.tables)
  /-- The store satisfies the constraints again. -/
  valid : memory.2.Valid
  kept : Kept s memory.2

/-- The write agrees with the schema on a store. -/
def Write.Agrees (w : Write) (s : Store) : Prop :=
  Agree s (w.memory.exec s) (w.postgres.exec s.tables)

/-! ### Agreement -/

section agreement
variable {α β : Type} {s s' : Store}

theorem Kept.refl (s : Store) : Kept s s :=
  ⟨List.prefix_rfl, List.prefix_rfl, List.prefix_rfl, List.prefix_rfl, List.prefix_rfl,
    List.prefix_rfl⟩

theorem Kept.trans {s'' : Store} (h : Kept s s') (h' : Kept s' s'') : Kept s s'' :=
  ⟨h.1.trans h'.1, h.2.trans h'.2, h.3.trans h'.3, h.4.trans h'.4, h.5.trans h'.5, h.6.trans h'.6⟩

theorem agree_conflict (h : s.Valid) :
    Agree (α := α) s (.error idempotencyConflict, s) (.error idempotencyConflict, s.tables) :=
  ⟨Iff.rfl, ⟨fun _ _ => rfl, fun _ _ => rfl⟩, fun _ hr => absurd hr (by simp), h, .refl s⟩

theorem agree_ok {a : α} (h : s'.Valid) (hkept : Kept s s') :
    Agree s (.ok a, s') (.ok a, s'.tables) := by
  refine ⟨by simp, ⟨fun _ he => absurd he (by simp), fun _ he => absurd he (by simp)⟩, ?_, h, hkept⟩
  intro r hr
  rw [← Except.ok.inj hr]

/-- Agreement does not depend on how the result is wrapped. -/
theorem Agree.map {x : Repository α} {y : Transaction α} (f : α → β)
    (h : Agree s (x.exec s) (y.exec s.tables)) :
    Agree s ((f <$> x).exec s) ((f <$> y).exec s.tables) := by
  rw [exec_map, exec_map]
  rcases hx : x.exec s with ⟨r, t⟩
  rw [hx] at h
  cases r with
  | ok a =>
    rw [h.accepted a rfl]
    exact agree_ok h.valid h.kept
  | error e =>
    rcases hy : y.exec s.tables with ⟨r', t'⟩
    rw [hy] at h
    obtain rfl : t = s := h.unchanged.1 e rfl
    cases r' with
    | ok a =>
      refine ⟨?_, ?_, fun _ hr => absurd hr (by simp), h.valid, h.kept⟩
      · simpa using h.conflict
      · exact ⟨fun _ _ => rfl, fun _ he => absurd he (by simp)⟩
    | error e' =>
      obtain rfl : t' = t.tables := h.unchanged.2 e' rfl
      refine ⟨?_, ⟨fun _ _ => rfl, fun _ _ => rfl⟩, fun _ hr => absurd hr (by simp), h.valid, h.kept⟩
      simpa using h.conflict

end agreement

/-! ### One row -/

section rows
variable {K R : Type} [DecidableEq K] {key : R → K} {d : Dict K R} {indexes : List (Sql.Index R)}
  {row : R}

/-- What a dictionary is after a row went in under a free key. -/
structure Inserted (key : R → K) (indexes : List (Sql.Index R)) (d : Dict K R) (row : R) : Prop where
  values : (d.set (key row) row).values = d.values ++ [row]
  keyed : (d.set (key row) row).Keyed key
  satisfies : Sql.Satisfies indexes (d.set (key row) row).values
  kept : d.values <+: (d.set (key row) row).values

theorem inserted (hkeyed : d.Keyed key) (hsatisfies : Sql.Satisfies indexes d.values)
    (hfresh : d.get? (key row) = none) (hrow : Sql.violates indexes d.values row = false) :
    Inserted key indexes d row := by
  have hvalues := Dict.values_set_of_fresh row hfresh
  refine ⟨hvalues, hkeyed.set rfl, ?_, ?_⟩
  · rw [hvalues]
    exact Sql.satisfies_append hsatisfies hrow
  · rw [hvalues]
    exact List.prefix_append _ _

/-- A table with nothing but its primary key refuses a row exactly when the key of
    the dictionary is taken. -/
theorem violates_key (row : R) (hkeyed : d.Keyed key) :
    Sql.violates [Sql.uniqueOn key] d.values row = (d.get? (key row)).isSome := by
  rw [Bool.eq_iff_iff, Sql.violates_iff, hkeyed.isSome_iff]
  simp

end rows

/-! ### Calls -/

section calls
variable {s : Store}

theorem agrees_enqueue (h : s.Valid) (record : JobRecord) :
    Agree s ((JobQueue.enqueue record).exec s) ((Postgres.enqueue record).exec s.tables) := by
  have hviolates := violates_key record h.jobs
  rw [JobQueue.enqueue_exec]
  by_cases htaken : (s.jobs.get? record.jobId.value).isSome = true
  · have hsql : (Postgres.enqueue record).exec s.tables = (.error idempotencyConflict, s.tables) := by
      simp [Postgres.enqueue, Sql.insert, Store.tables, Tables.jobIndexes, hviolates, htaken, orRaise]
    rw [if_pos htaken, hsql]
    exact agree_conflict h
  · rw [Bool.not_eq_true] at htaken
    have hrow := inserted h.jobs h.holds.jobs (by simpa using htaken) (hviolates.trans htaken)
    have hsql : (Postgres.enqueue record).exec s.tables = (.ok record,
        { s with jobs := s.jobs.set record.jobId.value record }.tables) := by
      simp [Postgres.enqueue, Sql.insert, Store.tables, Tables.jobIndexes, hviolates, htaken,
        orRaise, hrow.values]
    rw [if_neg (by simp [htaken]), hsql]
    apply agree_ok
    · exact ⟨h.investigations, hrow.keyed, h.attempts, h.evidence, h.reports, h.holds.investigations,
        hrow.satisfies, h.holds.attempts, h.holds.evidence, h.holds.reports⟩
    · exact { Kept.refl s with jobs := hrow.kept }

theorem agrees_put (h : s.Valid) (record : ReportRecord) :
    Agree s ((ReportRepository.put record).exec s) ((Postgres.put record).exec s.tables) := by
  have hviolates := violates_key record h.reports
  rw [ReportRepository.put_exec]
  by_cases htaken : (s.reports.get? record.investigationId.value).isSome = true
  · have hsql : (Postgres.put record).exec s.tables = (.error idempotencyConflict, s.tables) := by
      simp [Postgres.put, Sql.insert, Store.tables, Tables.reportIndexes, hviolates, htaken, orRaise]
    rw [if_pos htaken, hsql]
    exact agree_conflict h
  · rw [Bool.not_eq_true] at htaken
    have hrow := inserted h.reports h.holds.reports (by simpa using htaken) (hviolates.trans htaken)
    have hsql : (Postgres.put record).exec s.tables = (.ok record,
        { s with reports := s.reports.set record.investigationId.value record }.tables) := by
      simp [Postgres.put, Sql.insert, Store.tables, Tables.reportIndexes, hviolates, htaken,
        orRaise, hrow.values]
    rw [if_neg (by simp [htaken]), hsql]
    apply agree_ok
    · exact ⟨h.investigations, h.jobs, h.attempts, h.evidence, hrow.keyed, h.holds.investigations,
        h.holds.jobs, h.holds.attempts, h.holds.evidence, hrow.satisfies⟩
    · exact { Kept.refl s with reports := hrow.kept }

theorem idempotencyIndex_iff {old record : InvestigationRecord} :
    Tables.idempotencyIndex old record = true ↔
      ∃ key, record.idempotencyKey = some key ∧ old.tenant = record.tenant ∧
        old.idempotencyKey = some key := by
  unfold Tables.idempotencyIndex
  rw [Sql.uniqueWhere_iff]
  constructor
  · intro h
    obtain ⟨k, hold, hrecord⟩ := h
    obtain ⟨key, hkey, rfl⟩ := Option.map_eq_some_iff.mp hrecord
    obtain ⟨key', hkey', heq⟩ := Option.map_eq_some_iff.mp hold
    obtain ⟨htenant, rfl⟩ := Prod.mk.inj heq
    exact ⟨key', hkey, htenant, hkey'⟩
  · intro h
    obtain ⟨key, hrecord, htenant, hold⟩ := h
    exact ⟨(record.tenant, key), by simp [hold, htenant], by simp [hrecord]⟩

/-- The arbiter index conflicts exactly when `_by_key` finds a record. -/
theorem any_idempotencyIndex (s : Store) (record : InvestigationRecord) :
    s.investigations.values.any (fun old => Tables.idempotencyIndex old record) =
      (InvestigationRepository.byKey s record.tenant record.idempotencyKey).isSome := by
  rw [Bool.eq_iff_iff, List.any_eq_true]
  cases hkey : record.idempotencyKey with
  | none =>
    constructor
    · intro h
      obtain ⟨old, -, hclash⟩ := h
      obtain ⟨key, hrecord, -⟩ := idempotencyIndex_iff.mp hclash
      rw [hkey] at hrecord
      exact absurd hrecord (by simp)
    · intro h
      exact absurd h (by simp [InvestigationRepository.byKey])
  | some key =>
    show _ ↔ (List.find? _ _).isSome = true
    rw [List.find?_isSome]
    constructor
    · intro h
      obtain ⟨old, hold, hclash⟩ := h
      obtain ⟨key', hrecord, hmatch⟩ := idempotencyIndex_iff.mp hclash
      obtain rfl := Option.some.inj (hkey.symm.trans hrecord)
      exact ⟨old, hold, by simpa using hmatch⟩
    · intro h
      obtain ⟨old, hold, hmatch⟩ := h
      exact ⟨old, hold, idempotencyIndex_iff.mpr ⟨key, hkey, by simpa using hmatch⟩⟩

/-- Without a record of the same idempotency key only the primary key can clash. -/
theorem violates_investigation (h : s.Valid) {record : InvestigationRecord}
    (hnone : InvestigationRepository.byKey s record.tenant record.idempotencyKey = none) :
    Sql.violates Tables.investigationIndexes s.investigations.values record =
      (s.investigations.get? record.investigationId.value).isSome := by
  have hkey := violates_key record h.investigations
  have harbiter := any_idempotencyIndex s record
  rw [hnone] at harbiter
  unfold Tables.investigationIndexes Sql.violates
  rw [List.any_cons, List.any_cons, harbiter]
  simpa [Sql.violates] using hkey

theorem agrees_create (h : s.Valid) (record : InvestigationRecord) :
    Agree s ((InvestigationRepository.create record).exec s)
      ((Postgres.create record).exec s.tables) := by
  rw [InvestigationRepository.create_exec]
  have harbiter := any_idempotencyIndex s record
  cases hfound : InvestigationRepository.byKey s record.tenant record.idempotencyKey with
  | some existing =>
    -- only a record with a key is found, and the SELECT finds the same row
    rw [hfound] at harbiter
    cases hkey : record.idempotencyKey with
    | none =>
      rw [hkey] at hfound
      exact absurd hfound (by simp [InvestigationRepository.byKey])
    | some key =>
      have hselect : s.investigations.values.find? (fun row =>
          row.tenant = record.tenant ∧ row.idempotencyKey = some key) = some existing := by
        rw [hkey] at hfound
        exact hfound
      have hinsert := Sql.insertOrNothing_of_conflict Tables.investigationIndexes harbiter
      have hsql : (Postgres.create record).exec s.tables = (.ok existing, s.tables) := by
        simp only [Postgres.create, exec_bind, exec_get, hkey, Store.tables, hinsert, hselect,
          orRaise, exec_lift]
      rw [hsql]
      exact agree_ok h (.refl s)
  | none =>
    have hviolates := violates_investigation h hfound
    rw [hfound] at harbiter
    have hfree := Sql.insertOrNothing_of_free Tables.investigationIndexes harbiter
    by_cases htaken : (s.investigations.get? record.investigationId.value).isSome = true
    · have hinsert := Sql.insert_of_violates (hviolates.trans htaken)
      have hsql : (Postgres.create record).exec s.tables =
          (.error idempotencyConflict, s.tables) := by
        cases hkey : record.idempotencyKey with
        | none =>
          simp only [Postgres.create, exec_bind, exec_get, hkey, Store.tables, hinsert, orRaise,
            exec_lift]
        | some key =>
          simp only [Postgres.create, exec_bind, exec_get, hkey, Store.tables, hfree, hinsert,
            Option.map_none, exec_throw]
      rw [hsql]
      show Agree s (if _ then _ else _) _
      rw [if_pos htaken]
      exact agree_conflict h
    · rw [Bool.not_eq_true] at htaken
      have hinsert := Sql.insert_of_free (hviolates.trans htaken)
      have hrow := inserted h.investigations h.holds.investigations (by simpa using htaken)
        (hviolates.trans htaken)
      have hsql : (Postgres.create record).exec s.tables = (.ok record,
          { s with
            investigations := s.investigations.set record.investigationId.value record }.tables) := by
        cases hkey : record.idempotencyKey with
        | none =>
          simp only [Postgres.create, exec_bind, exec_get, hkey, Store.tables, hinsert, orRaise,
            exec_lift, exec_set, exec_pure, hrow.values]
        | some key =>
          simp only [Postgres.create, exec_bind, exec_get, hkey, Store.tables, hfree, hinsert,
            Option.map_some, exec_set, exec_pure, hrow.values]
      rw [hsql]
      show Agree s (if _ then _ else _) _
      rw [if_neg (by simp [htaken])]
      apply agree_ok
      · exact ⟨hrow.keyed, h.jobs, h.attempts, h.evidence, h.reports, hrow.satisfies, h.holds.jobs,
          h.holds.attempts, h.holds.evidence, h.holds.reports⟩
      · exact { Kept.refl s with investigations := hrow.kept }

/-! ### Evidence -/

/-- The row stored under a key is the first row with that key. -/
theorem find_evidence (h : s.Valid) {record existing : EvidenceRecord}
    (hfound : s.evidence.get? (EvidenceRepository.key record) = some existing) :
    s.evidence.values.find? (fun row =>
      EvidenceRepository.key row = EvidenceRepository.key record) = some existing := by
  have hexisting := h.evidence _ _ hfound
  have hmem : existing ∈ s.evidence.values := Dict.mem_values.mpr ⟨_, hfound⟩
  cases hselect : s.evidence.values.find? (fun row =>
      EvidenceRepository.key row = EvidenceRepository.key record) with
  | none =>
    have hnone := List.find?_eq_none.mp hselect existing hmem
    exact absurd hexisting.symm (by simpa using hnone)
  | some row =>
    obtain ⟨k, hk⟩ := Dict.mem_values.mp (List.mem_of_find?_eq_some hselect)
    have hrow : EvidenceRepository.key row = EvidenceRepository.key record := by
      simpa using List.find?_some hselect
    rw [h.evidence k row hk, hrow, hfound] at hk
    exact hk.symm

/-- One row of evidence is never refused. -/
theorem agrees_appendOne (h : s.Valid) (record : EvidenceRecord) :
    ∃ r s', (EvidenceRepository.appendOne record).exec s = (.ok r, s') ∧
      (Postgres.appendOne record).exec s.tables = (.ok r, s'.tables) ∧ s'.Valid ∧ Kept s s' := by
  have hviolates : Sql.violates [Tables.evidenceIndex] s.evidence.values record =
      (s.evidence.get? (EvidenceRepository.key record)).isSome := violates_key record h.evidence
  have harbiter : s.evidence.values.any (fun old => Tables.evidenceIndex old record) =
      (s.evidence.get? (EvidenceRepository.key record)).isSome := by
    rw [← hviolates]
    simp only [Sql.violates, List.any_cons, List.any_nil, Bool.or_false]
  rw [EvidenceRepository.appendOne_exec]
  cases hfound : s.evidence.get? (EvidenceRepository.key record) with
  | some existing =>
    rw [hfound] at harbiter
    have hinsert := Sql.insertOrNothing_of_conflict [Tables.evidenceIndex] harbiter
    refine ⟨existing, s, rfl, ?_, h, .refl s⟩
    simp only [Postgres.appendOne, exec_bind, exec_get, Store.tables, hinsert,
      find_evidence h hfound, orRaise, exec_lift]
  | none =>
    rw [hfound] at harbiter hviolates
    have hinsert := Sql.insertOrNothing_of_free [Tables.evidenceIndex] harbiter
    rw [Sql.insert_of_free hviolates] at hinsert
    have hrow := inserted h.evidence h.holds.evidence hfound hviolates
    refine ⟨record, _, rfl, ?_, ?_, ?_⟩
    · simp only [Postgres.appendOne, exec_bind, exec_get, Store.tables, hinsert, Option.map_some,
        exec_set, exec_pure, hrow.values]
    · exact ⟨h.investigations, h.jobs, h.attempts, hrow.keyed, h.reports, h.holds.investigations,
        h.holds.jobs, h.holds.attempts, hrow.satisfies, h.holds.reports⟩
    · exact { Kept.refl s with evidence := hrow.kept }

theorem agrees_append (h : s.Valid) (records : List EvidenceRecord) :
    ∃ rs s', (EvidenceRepository.append records).exec s = (.ok rs, s') ∧
      (Postgres.append records).exec s.tables = (.ok rs, s'.tables) ∧ s'.Valid ∧ Kept s s' := by
  unfold EvidenceRepository.append Postgres.append
  induction records generalizing s with
  | nil => exact ⟨[], s, rfl, rfl, h, .refl s⟩
  | cons record records ih =>
    obtain ⟨r, s₁, hmemory, hsql, hvalid, hkept⟩ := agrees_appendOne h record
    obtain ⟨rs, s₂, hmemory', hsql', hvalid', hkept'⟩ := ih hvalid
    refine ⟨r :: rs, s₂, ?_, ?_, hvalid', hkept.trans hkept'⟩
    · simp only [List.mapM_cons, exec_bind, hmemory, hmemory', exec_pure]
    · simp only [List.mapM_cons, exec_bind, hsql, hsql', exec_pure]

/-! ### Attempts -/

/-- The schema refuses an attempt whose id or whose number is taken. -/
theorem violates_attempt (h : s.Valid) (record : AttemptRecord) :
    Sql.violates Tables.attemptIndexes s.attempts.values record =
      ((s.attempts.get? record.attemptId.value).isSome || AttemptRepository.duplicate s record) := by
  have hkey := violates_key record h.attempts
  unfold Tables.attemptIndexes
  rw [← hkey, Bool.eq_iff_iff, Bool.or_eq_true, Sql.violates_iff, Sql.violates_iff]
  simp [AttemptRepository.duplicate]

theorem agrees_record (h : s.Valid) {record : AttemptRecord}
    (hid : AttemptRepository.duplicate s record = false →
      (s.attempts.get? record.attemptId.value).isSome = false) :
    Agree s ((AttemptRepository.record record).exec s) ((Postgres.record record).exec s.tables) := by
  have hviolates := violates_attempt h record
  rw [AttemptRepository.record_exec]
  by_cases hdup : AttemptRepository.duplicate s record = true
  · rw [hdup, Bool.or_true] at hviolates
    have hsql : (Postgres.record record).exec s.tables = (.error idempotencyConflict, s.tables) := by
      simp only [Postgres.record, exec_bind, exec_get, Store.tables,
        Sql.insert_of_violates hviolates, orRaise, exec_lift]
    rw [if_pos hdup, hsql]
    exact agree_conflict h
  · rw [Bool.not_eq_true] at hdup
    have hfree := hid hdup
    rw [hdup, hfree] at hviolates
    have hrow := inserted h.attempts h.holds.attempts (by simpa using hfree) hviolates
    have hsql : (Postgres.record record).exec s.tables = (.ok record,
        { s with attempts := s.attempts.set record.attemptId.value record }.tables) := by
      simp only [Postgres.record, exec_bind, exec_get, Store.tables, Sql.insert_of_free hviolates,
        orRaise, exec_lift, exec_set, exec_pure, hrow.values]
    rw [if_neg (by simp [hdup]), hsql]
    apply agree_ok
    · exact ⟨h.investigations, h.jobs, hrow.keyed, h.evidence, h.reports, h.holds.investigations,
        h.holds.jobs, hrow.satisfies, h.holds.evidence, h.holds.reports⟩
    · exact { Kept.refl s with attempts := hrow.kept }

end calls

/-- The call records an attempt under an id that is taken, with a number that is
    not: the in-memory repository never looks at the id. -/
def Write.OverwritesAttempt (s : Store) : Write → Prop
  | .recordAttempt record => (s.attempts.get? record.attemptId.value).isSome = true ∧
      AttemptRepository.duplicate s record = false
  | _ => False

/-- **The in-memory store accepts and rejects the same writes as the SQL schema**,
    except that it overwrites an attempt whose id is recorded again. -/
theorem memory_agrees_with_schema (s : Store) (h : s.Valid) (w : Write) :
    w.Agrees s ↔ ¬ w.OverwritesAttempt s := by
  cases w with
  | createInvestigation record =>
    exact iff_of_true ((agrees_create h record).map _) not_false
  | enqueueJob record => exact iff_of_true ((agrees_enqueue h record).map _) not_false
  | putReport record => exact iff_of_true ((agrees_put h record).map _) not_false
  | appendEvidence records =>
    obtain ⟨rs, s', hmemory, hsql, hvalid, hkept⟩ := agrees_append h records
    have hagree : Agree s ((EvidenceRepository.append records).exec s)
        ((Postgres.append records).exec s.tables) := by
      rw [hmemory, hsql]
      exact agree_ok hvalid hkept
    exact iff_of_true (hagree.map _) not_false
  | recordAttempt record =>
    constructor
    · intro hagrees hoverwrites
      obtain ⟨htaken, hdup⟩ := hoverwrites
      -- the schema refuses the row, the dictionary takes it
      have hviolates := (violates_attempt h record).trans (by rw [htaken, Bool.true_or])
      have hsql : (Write.recordAttempt record).postgres.exec s.tables =
          (.error idempotencyConflict, s.tables) := by
        simp only [Write.postgres, Postgres.record, exec_map, exec_bind, exec_get, Store.tables,
          Sql.insert_of_violates hviolates, orRaise, exec_lift]
      have hmemory : ((Write.recordAttempt record).memory.exec s).1 = .ok (.attempt record) := by
        simp only [Write.memory, exec_map, AttemptRepository.record_exec, hdup,
          Bool.false_eq_true, if_false]
      have hconflict := hagrees.conflict.mpr (by rw [hsql])
      rw [hmemory] at hconflict
      exact absurd hconflict (by simp)
    · intro hno
      refine (agrees_record h ?_).map _
      intro hdup
      by_contra htaken
      exact hno ⟨Bool.eq_true_of_not_eq_false htaken, hdup⟩

namespace Demo

/-- An attempt recorded under the id `n`, with the number `k`. -/
def attempt (n k : ℕ) (hn : n < 2 ^ 128) (hk : 0 < k) : AttemptRecord where
  attemptId := ⟨⟨n, hn⟩⟩
  jobId := ⟨⟨0, UUID.zero_lt⟩⟩
  tenant := ⟨str "tenant"⟩
  attemptNumber := ⟨k, hk⟩
  workerId := ⟨str "worker", worker_notBlank⟩
  startedAt := ⟨0, Datetime.zero_lt⟩
  finishedAt := none
  outcome := none
  errorCode := none
  createdAt := ⟨0, Datetime.zero_lt⟩

def firstAttempt : AttemptRecord := attempt 1 1 UUID.one_lt (by decide)

/-- A second attempt of the same job, under the id of the first. -/
def secondAttempt : AttemptRecord := attempt 1 2 UUID.one_lt (by decide)

/-- A store with the first attempt in it. -/
def attempted : Store :=
  { Store.empty with attempts := Dict.empty.set firstAttempt.attemptId.value firstAttempt }

theorem attempted_valid : attempted.Valid where
  investigations := Dict.keyed_empty _
  jobs := Dict.keyed_empty _
  attempts := (Dict.keyed_empty _).set rfl
  evidence := Dict.keyed_empty _
  reports := Dict.keyed_empty _
  holds := by
    refine ⟨?_, ?_, ?_, ?_, ?_⟩
    · intro ix _
      exact List.Pairwise.nil
    · intro ix _
      exact List.Pairwise.nil
    · intro ix _
      exact List.pairwise_singleton _ firstAttempt
    · intro ix _
      exact List.Pairwise.nil
    · intro ix _
      exact List.Pairwise.nil

end Demo

theorem memory_agrees_with_schema_demo :
    (Write.recordAttempt Demo.firstAttempt).Agrees Demo.attempted :=
  (memory_agrees_with_schema Demo.attempted Demo.attempted_valid _).mpr
    fun h => absurd h.2 (by decide)

/-- The second attempt takes the place of the first. -/
theorem memory_overwrites_attempt : Demo.attempted.Valid ∧
    ((AttemptRepository.record Demo.secondAttempt).exec Demo.attempted).1 = .ok Demo.secondAttempt ∧
    ((AttemptRepository.record Demo.secondAttempt).exec Demo.attempted).2.attempts.values =
      [Demo.secondAttempt] ∧
    ((Postgres.record Demo.secondAttempt).exec Demo.attempted.tables).1 =
      .error idempotencyConflict ∧
    ¬ (Write.recordAttempt Demo.secondAttempt).Agrees Demo.attempted := by
  have hconflict : ((Write.recordAttempt Demo.secondAttempt).postgres.exec Demo.attempted.tables).1 =
      .error idempotencyConflict := rfl
  refine ⟨Demo.attempted_valid, rfl, rfl, rfl, ?_⟩
  intro hagrees
  have hmemory := hagrees.conflict.mpr hconflict
  exact absurd hmemory (by
    show ¬ (Except.ok (Reply.attempt Demo.secondAttempt) : Except PyException Reply) = _
    simp)

end IncidentEvidence
