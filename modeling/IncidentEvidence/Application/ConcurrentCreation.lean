import IncidentEvidence.Application.Creation
import IncidentEvidence.Concurrency.Runs
import IncidentEvidence.Persistence.SqlSchema
import Mathlib.Logic.Function.Basic

/-! # Concurrent creation of investigations

    Any number of calls of `CreateInvestigation.execute` at once, each in a
    transaction of its own and one statement at a time. An INSERT waits while
    another open transaction has written a row that clashes with its own: it has
    no step until that transaction has committed or rolled back. What a
    transaction writes becomes visible when it commits, and a call may be gone
    at any point before that.

    `Creations.Ok` is the invariant, and **creation is idempotent**
    (`creation_idempotent`).
-/

namespace IncidentEvidence

open Py Py.Action Runs

/-! ### Statements -/

namespace Postgres

/-- The INSERT of `investigations.create`: the row when it was inserted, and the table;
    `none` is a unique violation. -/
def insertInvestigation (rows : List InvestigationRecord) (record : InvestigationRecord) :
    Option (Option InvestigationRecord × List InvestigationRecord) :=
  match record.idempotencyKey with
  | some _ =>
    Sql.insertOrNothing Tables.idempotencyIndex Tables.investigationIndexes rows record
  | none => (Sql.insert Tables.investigationIndexes rows record).map fun rows' => (some record, rows')

/-- The SELECT that follows it when nothing was inserted. -/
def selectByKey (rows : List InvestigationRecord) (record : InvestigationRecord) :
    Option InvestigationRecord :=
  rows.find? fun row =>
    row.tenant = record.tenant ∧ row.idempotencyKey = record.idempotencyKey

/-- `investigations.create` is its two statements, one after the other. -/
theorem create_exec (record : InvestigationRecord) (t : Tables) :
    (create record).exec t = match insertInvestigation t.investigations record with
      | none => (.error idempotencyConflict, t)
      | some (some inserted, rows) => (.ok inserted, { t with investigations := rows })
      | some (none, _) => (orRaise (selectByKey t.investigations record) idempotencyConflict, t) := by
  unfold create insertInvestigation
  cases hkey : record.idempotencyKey with
  | none => cases h : Sql.insert Tables.investigationIndexes t.investigations record <;> simp [h, orRaise]
  | some key =>
    rcases h : Sql.insertOrNothing Tables.idempotencyIndex Tables.investigationIndexes
      t.investigations record with _ | ⟨_ | inserted, rows⟩ <;> simp [h, hkey, selectByKey]

theorem insertInvestigation_inserted {rows rows' : List InvestigationRecord}
    {record inserted : InvestigationRecord}
    (h : insertInvestigation rows record = some (some inserted, rows')) :
    inserted = record ∧ Sql.violates Tables.investigationIndexes rows record = false := by
  unfold insertInvestigation at h
  cases hkey : record.idempotencyKey with
  | none =>
    rw [hkey] at h
    obtain ⟨rows'', hinsert, heq⟩ := Option.map_eq_some_iff.mp h
    obtain ⟨heq, -⟩ := Prod.mk.inj heq
    exact ⟨(Option.some.inj heq).symm, (Sql.insert_eq_some.mp hinsert).1⟩
  | some key =>
    rw [hkey] at h
    by_cases hconflict : rows.any (fun old => Tables.idempotencyIndex old record) = true
    · rw [Sql.insertOrNothing_of_conflict _ hconflict] at h
      cases h
    · rw [Sql.insertOrNothing_of_free _ (Bool.eq_false_iff.mpr hconflict)] at h
      obtain ⟨rows'', hinsert, heq⟩ := Option.map_eq_some_iff.mp h
      obtain ⟨heq, -⟩ := Prod.mk.inj heq
      exact ⟨(Option.some.inj heq).symm, (Sql.insert_eq_some.mp hinsert).1⟩

end Postgres

/-! ### Calls -/

/-- Rows of the three tables a call writes to. -/
structure CreationRows where
  investigations : List InvestigationRecord := []
  jobs : List JobRecord := []
  audit : List AuditRecord := []

def CreationRows.append (a b : CreationRows) : CreationRows where
  investigations := a.investigations ++ b.investigations
  jobs := a.jobs ++ b.jobs
  audit := a.audit ++ b.audit

/-- How far a call has come, and what its open transaction has written. -/
inductive Creating where
  /-- Nothing was sent. -/
  | ready
  /-- The INSERT of `record` inserted nothing. -/
  | conflicted (record : InvestigationRecord)
  /-- `create` has returned `stored`. -/
  | created (stored : InvestigationRecord) (written : CreationRows)
  | enqueued (stored : InvestigationRecord) (written : CreationRows)
  | audited (stored : InvestigationRecord) (written : CreationRows)
  /-- The call has committed and returned. -/
  | returned (investigationId : InvestigationId)
  /-- The call has raised or is gone. -/
  | aborted

/-- What the transaction has written and not committed. -/
def Creating.written : Creating → CreationRows
  | .created _ written | .enqueued _ written | .audited _ written => written
  | _ => {}

/-- The committed rows, and every call. -/
structure Creations (ι : Type) where
  committed : CreationRows
  phase : ι → Creating

variable {ι : Type} [DecidableEq ι] {request : ι → CreateCall}

namespace Creations

/-- The phase of call `i` becomes `p`. -/
def become (s : Creations ι) (i : ι) (p : Creating) : Creations ι :=
  { s with phase := Function.update s.phase i p }

/-- The steps of a call. -/
inductive Move where
  | insert
  | select
  | enqueue
  | audit
  | commit
  | abort

/-- No other open transaction has written a row that `record` clashes with. -/
def Free (s : Creations ι) (i : ι) (record : InvestigationRecord) : Prop :=
  ∀ j, j ≠ i →
    Sql.violates Tables.investigationIndexes (s.phase j).written.investigations record = false

/-- No other open transaction has written a job with the id of `record`. -/
def FreeJob (s : Creations ι) (i : ι) (record : JobRecord) : Prop :=
  ∀ j, j ≠ i → Sql.violates Tables.jobIndexes (s.phase j).written.jobs record = false

def step (request : ι → CreateCall) (s : Creations ι) : ι × Move → Creations ι → Prop
  | (i, .insert), s' => s.phase i = .ready ∧ ∃ record, (request i).investigation = .ok record ∧
      s.Free i record ∧
      match Postgres.insertInvestigation s.committed.investigations record with
      | none => s' = s.become i .aborted
      | some (some inserted, _) => s' = s.become i (.created inserted { investigations := [inserted] })
      | some (none, _) => s' = s.become i (.conflicted record)
  | (i, .select), s' => ∃ record, s.phase i = .conflicted record ∧
      match Postgres.selectByKey s.committed.investigations record with
      | none => s' = s.become i .aborted
      | some existing => s' = s.become i (.created existing {})
  | (i, .enqueue), s' => ∃ stored written, s.phase i = .created stored written ∧
      stored.investigationId = (request i).investigationId ∧
      ∃ record, (request i).job = .ok record ∧ s.FreeJob i record ∧
      match Sql.insert Tables.jobIndexes s.committed.jobs record with
      | none => s' = s.become i .aborted
      | some _ => s' = s.become i (.enqueued stored (written.append { jobs := [record] }))
  | (i, .audit), s' => ∃ stored written, s.phase i = .enqueued stored written ∧
      s' = s.become i (.audited stored (written.append { audit := [(request i).event] }))
  -- a call that found an investigation of another id goes to its commit at once
  | (i, .commit), s' => ∃ stored written,
      (s.phase i = .audited stored written ∨
        s.phase i = .created stored written ∧
          stored.investigationId ≠ (request i).investigationId) ∧
      s' = { s.become i (.returned stored.investigationId) with
        committed := s.committed.append written }
  | (i, .abort), s' => (∀ investigationId, s.phase i ≠ .returned investigationId) ∧
      s' = s.become i .aborted

/-- The calls over empty tables. -/
def system (request : ι → CreateCall) : System (Creations ι) (ι × Move) where
  init s := s.committed = {} ∧ ∀ i, s.phase i = .ready
  step := step request

/-! ### The invariant -/

/-- Where the investigation of a call comes from: the call has inserted it, or it was
    committed before. -/
def Origin (call : CreateCall) (committed : List InvestigationRecord)
    (stored : InvestigationRecord) (written : CreationRows) : Prop :=
  written.investigations = [stored] ∧ stored.investigationId = call.investigationId ∨
    written.investigations = [] ∧ stored ∈ committed

/-- The audit event of an investigation that was created. -/
def createdEvent (investigationId : InvestigationId) : Option InvestigationId × Text :=
  (some investigationId, CreateInvestigation.literal "investigation.created" CreateInvestigation.created_notBlank)

/-- What is known of a call in each phase. -/
def Fits (call : CreateCall) (committed : List InvestigationRecord) : Creating → Prop
  | .ready | .aborted => True
  | .conflicted record => call.Matches record
  | .created stored written => call.Matches stored ∧ Origin call committed stored written ∧
      written.jobs = [] ∧ written.audit = []
  | .enqueued stored written => call.Matches stored ∧
      stored.investigationId = call.investigationId ∧ written.investigations = [stored] ∧
      written.jobs.map JobRecord.investigationId = [call.investigationId] ∧ written.audit = []
  | .audited stored written => call.Matches stored ∧
      stored.investigationId = call.investigationId ∧ written.investigations = [stored] ∧
      written.jobs.map JobRecord.investigationId = [call.investigationId] ∧
      written.audit.map (fun e => (e.investigationId, e.action)) = [createdEvent call.investigationId]
  | .returned investigationId =>
      ∃ row ∈ committed, row.investigationId = investigationId ∧ call.Matches row

structure Ok (request : ι → CreateCall) (s : Creations ι) : Prop where
  /-- One job for each investigation, in the same order. -/
  jobs : s.committed.jobs.map JobRecord.investigationId =
    s.committed.investigations.map InvestigationRecord.investigationId
  /-- And one audit event. -/
  audit : s.committed.audit.map (fun e => (e.investigationId, e.action)) =
    s.committed.investigations.map fun row => createdEvent row.investigationId
  ids : (s.committed.investigations.map InvestigationRecord.investigationId).Nodup
  keys : Sql.Satisfies [Tables.idempotencyIndex] s.committed.investigations
  /-- A committed row was written by a call that has returned. -/
  source : ∀ row ∈ s.committed.investigations, ∃ i, (request i).investigationId = row.investigationId ∧
    ∃ investigationId, s.phase i = .returned investigationId
  /-- Rows that are not committed clash neither with committed ones nor with each other. -/
  pending : ∀ i, ∀ row ∈ (s.phase i).written.investigations, ∀ old ∈ s.committed.investigations,
    Tables.idempotencyIndex old row = false
  apart : ∀ i j, i ≠ j → ∀ row ∈ (s.phase i).written.investigations,
    ∀ other ∈ (s.phase j).written.investigations, Tables.idempotencyIndex other row = false
  fits : ∀ i, Fits (request i) s.committed.investigations (s.phase i)

theorem idempotencyIndex_comm (a b : InvestigationRecord) :
    Tables.idempotencyIndex a b = Tables.idempotencyIndex b a := by
  rw [Bool.eq_iff_iff]
  unfold Tables.idempotencyIndex
  rw [Sql.uniqueWhere_iff, Sql.uniqueWhere_iff]
  constructor
  · intro h
    obtain ⟨k, ha, hb⟩ := h
    exact ⟨k, hb, ha⟩
  · intro h
    obtain ⟨k, hb, ha⟩ := h
    exact ⟨k, ha, hb⟩

/-- What the phases say stays true when more is committed. -/
theorem Fits.mono {call : CreateCall} {committed committed' : List InvestigationRecord}
    {p : Creating} (h : Fits call committed p) (hmore : committed ⊆ committed') :
    Fits call committed' p := by
  cases p with
  | ready => trivial
  | aborted => trivial
  | conflicted record => exact h
  | created stored written =>
    obtain ⟨hmatches, horigin, hrest⟩ := h
    refine ⟨hmatches, ?_, hrest⟩
    rcases horigin with hown | ⟨hnone, hmem⟩
    · exact Or.inl hown
    · exact Or.inr ⟨hnone, hmore hmem⟩
  | enqueued stored written => exact h
  | audited stored written => exact h
  | returned investigationId =>
    obtain ⟨row, hrow, hrest⟩ := h
    exact ⟨row, hmore hrow, hrest⟩

@[simp] theorem become_self (s : Creations ι) (i : ι) (p : Creating) : (s.become i p).phase i = p := by
  simp [become]

theorem become_ne (s : Creations ι) {i j : ι} (p : Creating) (h : j ≠ i) :
    (s.become i p).phase j = s.phase j := by
  simp [become, h]

variable {s s' : Creations ι}

/-- A call that has not returned may go on to a phase that fits and writes no
    investigation that clashes. -/
theorem Ok.become (h : s.Ok request) {i : ι} {p : Creating}
    (hopen : ∀ investigationId, s.phase i ≠ .returned investigationId)
    (hfits : Fits (request i) s.committed.investigations p)
    (hpending : ∀ row ∈ p.written.investigations, (∀ old ∈ s.committed.investigations,
        Tables.idempotencyIndex old row = false) ∧
      ∀ j, j ≠ i → ∀ other ∈ (s.phase j).written.investigations,
        Tables.idempotencyIndex other row = false) :
    (s.become i p).Ok request where
  jobs := h.jobs
  audit := h.audit
  ids := h.ids
  keys := h.keys
  source row hrow := by
    obtain ⟨j, hid, investigationId, hj⟩ := h.source row hrow
    have hne : j ≠ i := by
      rintro rfl
      exact hopen investigationId hj
    exact ⟨j, hid, investigationId, by rw [become_ne s p hne, hj]⟩
  pending j row hrow := by
    by_cases hj : j = i
    · rw [hj, become_self] at hrow
      exact (hpending row hrow).1
    · rw [become_ne s p hj] at hrow
      exact h.pending j row hrow
  apart j k hjk row hrow other hother := by
    by_cases hj : j = i
    · have hk : k ≠ i := fun hk => hjk (hj.trans hk.symm)
      rw [hj, become_self] at hrow
      rw [become_ne s p hk] at hother
      exact (hpending row hrow).2 k hk other hother
    · rw [become_ne s p hj] at hrow
      by_cases hk : k = i
      · rw [hk, become_self] at hother
        rw [idempotencyIndex_comm]
        exact (hpending other hother).2 j hj row hrow
      · rw [become_ne s p hk] at hother
        exact h.apart j k hjk row hrow other hother
  fits j := by
    by_cases hj : j = i
    · rw [hj, become_self]
      exact hfits
    · rw [become_ne s p hj]
      exact h.fits j

/-- A call that gives up. -/
theorem Ok.abort (h : s.Ok request) {i : ι}
    (hopen : ∀ investigationId, s.phase i ≠ .returned investigationId) :
    (s.become i .aborted).Ok request :=
  h.become hopen trivial fun _ hrow => absurd hrow List.not_mem_nil

theorem clash_free {rows : List InvestigationRecord} {record : InvestigationRecord}
    (h : Sql.violates Tables.investigationIndexes rows record = false) :
    ∀ old ∈ rows, Tables.idempotencyIndex old record = false :=
  Sql.violates_eq_false.mp h _ (by simp [Tables.investigationIndexes])

theorem ok_insert (h : s.Ok request) {i : ι} (hstep : step request s (i, .insert) s') :
    s'.Ok request := by
  obtain ⟨hready, record, hrecord, hfree, hresult⟩ := hstep
  have hopen : ∀ investigationId, s.phase i ≠ .returned investigationId := by
    intro investigationId
    rw [hready]
    exact fun h => by cases h
  obtain ⟨hmatches, hid⟩ := CreateCall.matches_of_ok hrecord
  rcases hinsert : Postgres.insertInvestigation s.committed.investigations record with
    _ | ⟨_ | inserted, rows⟩
  · rw [hinsert] at hresult
    rw [hresult]
    exact h.abort hopen
  · rw [hinsert] at hresult
    rw [hresult]
    exact h.become hopen hmatches fun _ hrow => absurd hrow List.not_mem_nil
  · rw [hinsert] at hresult
    rw [hresult]
    obtain ⟨rfl, hviolates⟩ := Postgres.insertInvestigation_inserted hinsert
    refine h.become hopen ⟨hmatches, Or.inl ⟨rfl, hid⟩, rfl, rfl⟩ ?_
    intro row hrow
    obtain rfl := List.mem_singleton.mp hrow
    exact ⟨clash_free hviolates, fun j hj => clash_free (hfree j hj)⟩

theorem ok_select (h : s.Ok request) {i : ι} (hstep : step request s (i, .select) s') :
    s'.Ok request := by
  obtain ⟨record, hphase, hresult⟩ := hstep
  have hopen : ∀ investigationId, s.phase i ≠ .returned investigationId := by
    intro investigationId
    rw [hphase]
    exact fun h => by cases h
  have hmatches := h.fits i
  rw [hphase] at hmatches
  cases hselect : Postgres.selectByKey s.committed.investigations record with
  | none =>
    rw [hselect] at hresult
    rw [hresult]
    exact h.abort hopen
  | some existing =>
    rw [hselect] at hresult
    rw [hresult]
    have hfound := List.find?_some hselect
    rw [decide_eq_true_iff] at hfound
    refine h.become hopen ⟨?_, Or.inr ⟨rfl, List.mem_of_find?_eq_some hselect⟩, rfl, rfl⟩
      fun _ hrow => absurd hrow List.not_mem_nil
    -- the row has the tenant and the key of the record, hence those of the command
    exact ⟨hfound.1.trans hmatches.1, by rw [hfound.2]; exact hmatches.2⟩

omit [DecidableEq ι] in
/-- An investigation that has the id of a call still open was inserted by it. -/
theorem Ok.own (h : s.Ok request)
    (hfresh : Function.Injective fun i => (request i).investigationId) {i : ι}
    (hopen : ∀ investigationId, s.phase i ≠ .returned investigationId)
    {stored : InvestigationRecord} {written : CreationRows}
    (horigin : Origin (request i) s.committed.investigations stored written)
    (hid : stored.investigationId = (request i).investigationId) :
    written.investigations = [stored] := by
  rcases horigin with ⟨hown, -⟩ | ⟨-, hmem⟩
  · exact hown
  · obtain ⟨j, hj, investigationId, hreturned⟩ := h.source stored hmem
    obtain rfl : j = i := hfresh (hj.trans hid)
    exact absurd hreturned (hopen investigationId)

/-- Statements that write other tables. -/
theorem Ok.become_same (h : s.Ok request) {i : ι} {p : Creating}
    (hopen : ∀ investigationId, s.phase i ≠ .returned investigationId)
    (hfits : Fits (request i) s.committed.investigations p)
    (hsame : p.written.investigations = (s.phase i).written.investigations) :
    (s.become i p).Ok request := by
  refine h.become hopen hfits ?_
  intro row hrow
  rw [hsame] at hrow
  exact ⟨h.pending i row hrow, fun j hj other hother => h.apart i j hj.symm row hrow other hother⟩

theorem ok_enqueue (h : s.Ok request)
    (hfresh : Function.Injective fun i => (request i).investigationId) {i : ι}
    (hstep : step request s (i, .enqueue) s') : s'.Ok request := by
  obtain ⟨stored, written, hphase, hid, record, hrecord, -, hresult⟩ := hstep
  have hopen : ∀ investigationId, s.phase i ≠ .returned investigationId := by
    intro investigationId
    rw [hphase]
    exact fun h => by cases h
  have hfits := h.fits i
  rw [hphase] at hfits
  obtain ⟨hmatches, horigin, hjobs, haudit⟩ := hfits
  cases hinsert : Sql.insert Tables.jobIndexes s.committed.jobs record with
  | none =>
    rw [hinsert] at hresult
    rw [hresult]
    exact h.abort hopen
  | some rows =>
    rw [hinsert] at hresult
    rw [hresult]
    have hown := h.own hfresh hopen horigin hid
    refine h.become_same hopen ⟨hmatches, hid, ?_, ?_, ?_⟩ ?_
    · show written.investigations ++ [] = [stored]
      rw [hown, List.append_nil]
    · show (written.jobs ++ [record]).map JobRecord.investigationId = _
      rw [hjobs, (CreateInvestigation.jobRecord_eq_ok.mp hrecord).2]
      rfl
    · show written.audit ++ [] = []
      rw [haudit, List.append_nil]
    · show written.investigations ++ [] = (s.phase i).written.investigations
      rw [hphase, List.append_nil]
      rfl

theorem ok_audit (h : s.Ok request) {i : ι} (hstep : step request s (i, .audit) s') :
    s'.Ok request := by
  obtain ⟨stored, written, hphase, rfl⟩ := hstep
  have hopen : ∀ investigationId, s.phase i ≠ .returned investigationId := by
    intro investigationId
    rw [hphase]
    exact fun h => by cases h
  have hfits := h.fits i
  rw [hphase] at hfits
  obtain ⟨hmatches, hid, hown, hjobs, haudit⟩ := hfits
  refine h.become_same hopen ⟨hmatches, hid, ?_, ?_, ?_⟩ ?_
  · show written.investigations ++ [] = [stored]
    rw [hown, List.append_nil]
  · show (written.jobs ++ []).map JobRecord.investigationId = _
    rw [List.append_nil, hjobs]
  · show (written.audit ++ [(request i).event]).map _ = _
    rw [haudit]
    rfl
  · show written.investigations ++ [] = (s.phase i).written.investigations
    rw [hphase, List.append_nil]
    rfl

/-- A call that found an investigation commits nothing. -/
theorem ok_commit_found (h : s.Ok request) {i : ι} {stored : InvestigationRecord}
    {written : CreationRows} (hphase : s.phase i = .created stored written)
    (hid : stored.investigationId ≠ (request i).investigationId) :
    ({ s.become i (.returned stored.investigationId) with
      committed := s.committed.append written } : Creations ι).Ok request := by
  have hfits := h.fits i
  rw [hphase] at hfits
  obtain ⟨hmatches, horigin, hjobs, haudit⟩ := hfits
  rcases horigin with ⟨-, hown⟩ | ⟨hnone, hmem⟩
  · exact absurd hown hid
  · have hsame : s.committed.append written = s.committed := by
      unfold CreationRows.append
      rw [hnone, hjobs, haudit, List.append_nil, List.append_nil, List.append_nil]
    rw [hsame]
    refine h.become ?_ ⟨stored, hmem, rfl, hmatches⟩ fun _ hrow => absurd hrow List.not_mem_nil
    intro investigationId
    rw [hphase]
    exact fun h => by cases h

/-- A call that has returned has nothing pending. -/
theorem of_mem_written {i j : ι} {investigationId : InvestigationId} {row : InvestigationRecord}
    (h : row ∈ ((s.become i (.returned investigationId)).phase j).written.investigations) :
    j ≠ i ∧ row ∈ (s.phase j).written.investigations := by
  by_cases hj : j = i
  · rw [hj, become_self] at h
    exact absurd h List.not_mem_nil
  · rw [become_ne s _ hj] at h
    exact ⟨hj, h⟩

/-- A call that created one commits it with its job and its event. -/
theorem ok_commit_created (h : s.Ok request)
    (hfresh : Function.Injective fun i => (request i).investigationId) {i : ι}
    {stored : InvestigationRecord} {written : CreationRows}
    (hphase : s.phase i = .audited stored written) :
    ({ s.become i (.returned stored.investigationId) with
      committed := s.committed.append written } : Creations ι).Ok request := by
  have hfits := h.fits i
  rw [hphase] at hfits
  obtain ⟨hmatches, hid, hown, hjobs, haudit⟩ := hfits
  have hmem : stored ∈ (s.phase i).written.investigations := by
    rw [hphase]
    exact hown ▸ List.mem_singleton_self stored
  have hrows : (s.committed.append written).investigations =
      s.committed.investigations ++ [stored] := by
    rw [← hown]
    rfl
  refine ⟨?_, ?_, ?_, ?_, ?_, ?_, ?_, ?_⟩
  · rw [hrows, List.map_append, List.map_singleton, hid, ← h.jobs, ← hjobs]
    exact List.map_append
  · rw [hrows, List.map_append, List.map_singleton, hid, ← h.audit, ← haudit]
    exact List.map_append
  · rw [hrows, List.map_append, List.map_singleton, List.nodup_append_comm]
    refine List.nodup_cons.mpr ⟨?_, h.ids⟩
    -- a committed row with this id would be of this very call, which is still open
    intro hold
    obtain ⟨old, hold, heq⟩ := List.mem_map.mp hold
    obtain ⟨j, hj, investigationId, hreturned⟩ := h.source old hold
    obtain rfl : j = i := hfresh (hj.trans (heq.trans hid))
    rw [hphase] at hreturned
    cases hreturned
  · rw [hrows]
    refine Sql.satisfies_append h.keys (Sql.violates_eq_false.mpr ?_)
    intro ix hix
    rw [List.mem_singleton.mp hix]
    exact h.pending i stored hmem
  · intro row hrow
    rw [hrows, List.mem_append, List.mem_singleton] at hrow
    rcases hrow with hrow | rfl
    · obtain ⟨j, hj, investigationId, hreturned⟩ := h.source row hrow
      have hne : j ≠ i := by
        rintro rfl
        rw [hphase] at hreturned
        cases hreturned
      exact ⟨j, hj, investigationId, (become_ne s _ hne).trans hreturned⟩
    · exact ⟨i, hid.symm, _, become_self s i _⟩
  · intro j row hrow old hold
    obtain ⟨hne, hwritten⟩ := of_mem_written hrow
    rw [hrows, List.mem_append, List.mem_singleton] at hold
    rcases hold with hold | rfl
    · exact h.pending j row hwritten old hold
    · exact h.apart j i hne row hwritten old hmem
  · intro j k hjk row hrow other hother
    exact h.apart j k hjk row (of_mem_written hrow).2 other (of_mem_written hother).2
  · intro j
    show Fits (request j) (s.committed.append written).investigations
      ((s.become i (.returned stored.investigationId)).phase j)
    rw [hrows]
    by_cases hj : j = i
    · rw [hj, become_self]
      exact ⟨stored, List.mem_append_right _ (List.mem_singleton_self stored), rfl, hmatches⟩
    · rw [become_ne s _ hj]
      exact (h.fits j).mono (List.subset_append_left _ _)

/-- **Every step keeps the invariant.** -/
theorem ok_step (hfresh : Function.Injective fun i => (request i).investigationId)
    {move : ι × Move} (h : s.Ok request) (hstep : step request s move s') : s'.Ok request := by
  obtain ⟨i, move⟩ := move
  cases move with
  | insert => exact ok_insert h hstep
  | select => exact ok_select h hstep
  | enqueue => exact ok_enqueue h hfresh hstep
  | audit => exact ok_audit h hstep
  | commit =>
    obtain ⟨stored, written, hphase | ⟨hphase, hid⟩, rfl⟩ := hstep
    · exact ok_commit_created h hfresh hphase
    · exact ok_commit_found h hphase hid
  | abort =>
    obtain ⟨hopen, rfl⟩ := hstep
    exact h.abort hopen

omit [DecidableEq ι] in
theorem ok_init (hempty : s.committed = {}) (hready : ∀ i, s.phase i = .ready) : s.Ok request where
  jobs := by rw [hempty]; rfl
  audit := by rw [hempty]; rfl
  ids := by rw [hempty]; exact List.nodup_nil
  keys := by rw [hempty]; exact fun _ _ => List.Pairwise.nil
  source row hrow := by rw [hempty] at hrow; exact absurd hrow List.not_mem_nil
  pending i row hrow := by rw [hready i] at hrow; exact absurd hrow List.not_mem_nil
  apart i j _ row hrow := by rw [hready i] at hrow; exact absurd hrow List.not_mem_nil
  fits i := by rw [hready i]; trivial

theorem ok_reachable (hfresh : Function.Injective fun i => (request i).investigationId)
    (h : Reachable (system request) s) : s.Ok request :=
  h.invariant (P := Ok request) (fun _ (hinit : (system request).init _) => ok_init hinit.1 hinit.2)
    fun _ _ _ hok hstep => ok_step hfresh hok hstep

/-- In a list of distinct values each value occurs once. -/
theorem length_filter_map {α β : Type} [DecidableEq β] {f : α → β} {rows : List α} {l : List β}
    (h : rows.map f = l) (hnodup : l.Nodup) {b : β} (hb : b ∈ l) :
    (rows.filter fun row => f row = b).length = 1 := by
  rw [← List.count_eq_one_of_mem hnodup hb, ← h, List.count, List.countP_map,
    List.countP_eq_length_filter]
  rfl

/-- Committed investigations of one tenant with one key are one investigation. -/
theorem eq_of_key {rows : List InvestigationRecord}
    (h : Sql.Satisfies [Tables.idempotencyIndex] rows) {a b : InvestigationRecord} (ha : a ∈ rows)
    (hb : b ∈ rows) {key : Text} (htenant : a.tenant = b.tenant)
    (hkeyA : a.idempotencyKey = some key) (hkeyB : b.idempotencyKey = some key) : a = b := by
  by_contra hne
  have hclash : Tables.idempotencyIndex a b = true :=
    Sql.uniqueWhere_iff.mpr ⟨(a.tenant, key), by rw [hkeyA]; rfl, by rw [hkeyB, htenant]; rfl⟩
  have hsymm : Std.Symm fun a b => Tables.idempotencyIndex a b = false :=
    ⟨fun x y hxy => (idempotencyIndex_comm y x).trans hxy⟩
  have hfree := (h _ (List.mem_singleton_self _)).forall ha hb hne
  rw [hclash] at hfree
  exact absurd hfree (by simp)

end Creations

open Creations in
/-- **Creation is idempotent under any interleaving.** However the calls interleave and
    whichever of them abort:
    - a tenant has at most one committed investigation for an idempotency key;
    - each committed investigation has exactly one job and exactly one
      `investigation.created` audit event;
    - the calls of one tenant with one key that complete return the same id. -/
theorem creation_idempotent {s : Creations ι}
    (hfresh : Function.Injective fun i => (request i).investigationId)
    (h : Reachable (Creations.system request) s) :
    (∀ a ∈ s.committed.investigations, ∀ b ∈ s.committed.investigations, ∀ key,
        a.tenant = b.tenant → a.idempotencyKey = some key → b.idempotencyKey = some key → a = b) ∧
      (∀ row ∈ s.committed.investigations,
        (s.committed.jobs.filter fun job => job.investigationId = row.investigationId).length = 1 ∧
        (s.committed.audit.filter fun event =>
          (event.investigationId, event.action) = createdEvent row.investigationId).length = 1) ∧
      ∀ i j key a b, (request i).command.tenant = (request j).command.tenant →
        (request i).command.idempotencyKey = some key →
        (request j).command.idempotencyKey = some key →
        s.phase i = .returned a → s.phase j = .returned b → a = b := by
  have hok := ok_reachable hfresh h
  refine ⟨?_, ?_, ?_⟩
  · intro a ha b hb key htenant hkeyA hkeyB
    exact eq_of_key hok.keys ha hb htenant hkeyA hkeyB
  · intro row hrow
    have hid := List.mem_map_of_mem (f := InvestigationRecord.investigationId) hrow
    refine ⟨length_filter_map hok.jobs hok.ids hid, ?_⟩
    have hevents : s.committed.audit.map (fun e => (e.investigationId, e.action)) =
        (s.committed.investigations.map InvestigationRecord.investigationId).map createdEvent := by
      rw [hok.audit, List.map_map]
      rfl
    -- the event of a creation names its investigation
    have hinj : Function.Injective createdEvent := fun a b heq => Option.some.inj (Prod.mk.inj heq).1
    exact length_filter_map hevents (hok.ids.map hinj) (List.mem_map_of_mem hid)
  · intro i j key a b htenant hkeyI hkeyJ hi hj
    have hfitsI := hok.fits i
    have hfitsJ := hok.fits j
    rw [hi] at hfitsI
    rw [hj] at hfitsJ
    obtain ⟨rowI, hrowI, rfl, htenantI, heqI⟩ := hfitsI
    obtain ⟨rowJ, hrowJ, rfl, htenantJ, heqJ⟩ := hfitsJ
    rw [hkeyI, Option.map_eq_some_iff] at heqI
    rw [hkeyJ, Option.map_eq_some_iff] at heqJ
    obtain ⟨keyI, hI, rfl⟩ := heqI
    obtain ⟨keyJ, hJ, heq⟩ := heqJ
    obtain rfl := Subtype.ext heq
    rw [eq_of_key hok.keys hrowI hrowJ (htenantI.trans (htenant.trans htenantJ.symm)) hI hJ]

/-- The second call finds what the first has committed. -/
theorem creation_idempotent_demo : ∃ s : Creations Bool,
    s.phase true = .returned ⟨⟨1, by decide⟩⟩ ∧ s.phase false = .returned ⟨⟨1, by decide⟩⟩ ∧
      ∀ row ∈ s.committed.investigations,
        (s.committed.jobs.filter fun job => job.investigationId = row.investigationId).length = 1 := by
  have hfree : ∀ (s : Creations Bool) (i : Bool) (record : InvestigationRecord),
      (s.phase !i).written.investigations = [] → s.Free i record := by
    intro s i record hnone j hj
    rw [Bool.eq_not_of_ne hj, hnone]
    rfl
  have hfreeJob : ∀ (s : Creations Bool) (i : Bool) (record : JobRecord),
      (s.phase !i).written.jobs = [] → s.FreeJob i record := by
    intro s i record hnone j hj
    rw [Bool.eq_not_of_ne hj, hnone]
    rfl
  have hrun : Run (Creations.system Demo.createCall) ⟨{}, fun _ => .ready⟩
      [(true, .insert), (true, .enqueue), (true, .audit), (true, .commit),
        (false, .insert), (false, .select), (false, .commit)] _ :=
    .cons ⟨rfl, _, rfl, hfree _ _ _ rfl, rfl⟩ <|
      .cons ⟨_, _, rfl, rfl, _, rfl, hfreeJob _ _ _ rfl, rfl⟩ <| .cons ⟨_, _, rfl, rfl⟩ <|
        .cons ⟨_, _, Or.inl rfl, rfl⟩ <| .cons ⟨rfl, _, rfl, hfree _ _ _ rfl, rfl⟩ <|
          .cons ⟨_, rfl, rfl⟩ <| .cons ⟨_, _, Or.inr ⟨rfl, by decide⟩, rfl⟩ <| .nil _
  have hreachable := creation_idempotent (by decide) ⟨_, _, ⟨rfl, fun _ => rfl⟩, hrun⟩
  exact ⟨_, rfl, rfl, fun row hrow => (hreachable.2.1 row hrow).1⟩

end IncidentEvidence
