import IncidentEvidence.Persistence.Memory
import IncidentEvidence.Sql.Logic

/-! # The SQL claim

    `_JobQueue.claim` of `postgres/unit_of_work.py` over a table of jobs, and its
    comparison with the in-memory claim. The table is a list of rows in any order;
    its columns hold the values of the records.
-/

namespace IncidentEvidence

open Py Py.Action

/-! ### Statements -/

namespace Postgres

/-- The WHERE clause of the SELECT. -/
def claimCondition (moment : Datetime) (row : JobRecord) : Sql.Truth :=
  .or
    (.and (Sql.compare (fun a b => a = b) (some row.status.value) (some (str "queued")))
      (Sql.compare (fun a b => a ≤ b) (some row.availableAt) (some moment)))
    (.and
      (.and (Sql.compare (fun a b => a = b) (some row.status.value) (some (str "claimed")))
        (Sql.isNotNull row.leaseExpiresAt))
      (Sql.compare (fun a b => a ≤ b) row.leaseExpiresAt (some moment)))

/-- `ORDER BY available_at, id`; a uuid is ordered by its bytes. -/
def claimOrder (row : JobRecord) : Datetime ×ₗ List (Fin 256) :=
  toLex (row.availableAt, row.jobId.value.bytes)

/-- The SELECT; `locked` are the rows `SKIP LOCKED` passes over. -/
def selectJob (locked : JobId → Bool) (moment : Datetime) (rows : List JobRecord) :
    Option JobRecord :=
  (sortedOn claimOrder
    (rows.filter fun row => (claimCondition moment row).holds && !locked row.jobId)).head?

/-- What the UPDATE makes of a row. -/
def updatedRow (workerId : Text) (moment leaseExpiry : Datetime) (row : JobRecord) : JobRecord :=
  { row with
    status := .claimed
    claimedBy := some workerId
    claimedAt := some moment
    leaseExpiresAt := some leaseExpiry
    attemptCount := row.attemptCount + 1
    updatedAt := moment }

/-- `UPDATE jobs SET ... WHERE id = %s`. -/
def updateJob (workerId : Text) (moment leaseExpiry : Datetime) (jobId : JobId)
    (rows : List JobRecord) : List JobRecord :=
  rows.map fun row => if row.jobId = jobId then updatedRow workerId moment leaseExpiry row else row

/-- `ClaimedJob(...)` of the row the UPDATE returns. -/
def returnedJob (workerId : Text) (row : JobRecord) : Except PyException ClaimedJob := do
  let leaseExpiresAt ← orRaise row.leaseExpiresAt (.persistence .invalidTimestamp)
  let attemptCount ← checkPositive row.attemptCount
  return { jobId := row.jobId, investigationId := row.investigationId, tenant := row.tenant,
           workerId := workerId, leaseExpiresAt := leaseExpiresAt, attemptCount := attemptCount }

/-- `claim` up to and including its SELECT: the worker, the end of the lease and the
    row it returned. -/
def claimSelect (workerId : Str) (lease : Int) (moment : Datetime) (rows : List JobRecord) :
    Except PyException (Text × Datetime × Option JobRecord) := do
  let workerId ← checkText workerId
  let leaseExpiry ← orRaise (moment.add lease) .overflowError
  return (workerId, leaseExpiry, selectJob (fun _ => false) moment rows)

/-- `jobs.claim` when no other transaction is open. -/
def claim (workerId : Str) (lease : Int) (moment : Datetime) :
    Action PyException (List JobRecord) (Option ClaimedJob) := do
  let rows ← get
  let (workerId, leaseExpiry, candidate) ← lift (claimSelect workerId lease moment rows)
  match candidate with
  | none => return none
  | some row =>
    let rows := updateJob workerId moment leaseExpiry row.jobId rows
    set rows
    -- `RETURNING`, and `assert claimed is not None`
    let claimed ← lift (orRaise (rows.find? fun r => r.jobId = row.jobId) .other)
    some <$> lift (returnedJob workerId claimed)

end Postgres

/-! ### Eligibility and order -/

/-- **The condition holds of the jobs the in-memory queue finds claimable.** -/
theorem claimCondition_holds (moment : Datetime) (row : JobRecord) :
    (Postgres.claimCondition moment row).holds = JobQueue.claimable row moment := by
  have hqueued : ∀ s : JobStatus, s.value = str "queued" ↔ s = .queued := by
    intro s
    cases s <;> decide
  have hclaimed : ∀ s : JobStatus, s.value = str "claimed" ↔ s = .claimed := by
    intro s
    cases s <;> decide
  unfold Postgres.claimCondition JobQueue.claimable
  simp only [Sql.Truth.holds_or, Sql.Truth.holds_and, Sql.holds_compare_right, Option.any_some,
    Sql.holds_isNotNull, hqueued, hclaimed]
  cases row.leaseExpiresAt <;> simp

/-- The two orders of claiming are the same. -/
theorem claimOrder_lt (a b : JobRecord) :
    Postgres.claimOrder a < Postgres.claimOrder b ↔ JobQueue.claimKey a < JobQueue.claimKey b := by
  unfold Postgres.claimOrder JobQueue.claimKey
  rw [Prod.Lex.toLex_lt_toLex, Prod.Lex.toLex_lt_toLex]
  simp only [UUID.bytes_lt_iff, UUID.str_lt_iff]

theorem sortedOn_claimOrder (rows : List JobRecord) :
    sortedOn Postgres.claimOrder rows = sortedOn JobQueue.claimKey rows := by
  unfold sortedOn
  have hlt : (fun a b => decide (Postgres.claimOrder a < Postgres.claimOrder b)) =
      fun a b => decide (JobQueue.claimKey a < JobQueue.claimKey b) := by
    funext a b
    exact decide_eq_decide.mpr (claimOrder_lt a b)
  rw [hlt]

/-! ### The SELECT -/

section select
variable {s : Store} {rows : List JobRecord}

/-- No two rows of the table have the same place in the order of the claims. -/
theorem nodup_claimKey (hkeyed : s.jobs.Keyed fun r => r.jobId.value) (p : JobRecord → Bool) :
    ((s.jobs.values.filter p).map JobQueue.claimKey).Nodup := by
  have hids : ((s.jobs.values.filter p).map fun r => r.jobId.value).Nodup :=
    hkeyed.nodup_keys.sublist (List.filter_sublist.map _)
  apply List.Nodup.of_map (fun k => (ofLex k).2)
  rw [List.map_map]
  have hstr := hids.map UUID.str_injective
  rw [List.map_map] at hstr
  exact hstr

/-- **The SELECT returns the first eligible job.** -/
theorem selectJob_eq (hkeyed : s.jobs.Keyed fun r => r.jobId.value)
    (hrows : rows.Perm s.jobs.values) (moment : Datetime) :
    Postgres.selectJob (fun _ => false) moment rows = (JobQueue.eligible s moment).head? := by
  unfold Postgres.selectJob JobQueue.eligible
  have hfilter : rows.filter (fun row =>
      (Postgres.claimCondition moment row).holds && !(fun _ => false) row.jobId) =
      rows.filter fun job => JobQueue.claimable job moment := by
    apply List.filter_congr
    intro row _
    simp [claimCondition_holds]
  rw [hfilter, sortedOn_claimOrder]
  have hperm := hrows.symm.filter fun job => JobQueue.claimable job moment
  rw [sortedOn_eq_of_perm hperm (nodup_claimKey hkeyed _)]

theorem mem_of_eligible {moment : Datetime} {job : JobRecord} {rest : List JobRecord}
    (h : JobQueue.eligible s moment = job :: rest) :
    job ∈ s.jobs.values ∧ JobQueue.claimable job moment = true := by
  have hmem : job ∈ JobQueue.eligible s moment := by
    rw [h]
    exact List.mem_cons_self
  unfold JobQueue.eligible at hmem
  rw [mem_sortedOn] at hmem
  exact List.mem_filter.mp hmem

end select

/-! ### The UPDATE -/

section update
variable {s : Store} {rows : List JobRecord} {job : JobRecord}

/-- The id of a job determines its row. -/
theorem eq_of_jobId (hkeyed : s.jobs.Keyed fun r => r.jobId.value) {row : JobRecord}
    (hrow : row ∈ s.jobs.values) (hjob : job ∈ s.jobs.values) (hid : row.jobId = job.jobId) :
    row = job := by
  have hrowget : s.jobs.get? row.jobId.value = some row := hkeyed.get?_of_mem hrow
  rw [hid, hkeyed.get?_of_mem hjob] at hrowget
  exact (Option.some.inj hrowget).symm

/-- **The UPDATE writes the row the in-memory queue writes**, and no other. -/
theorem updateJob_perm (hkeyed : s.jobs.Keyed fun r => r.jobId.value)
    (hrows : rows.Perm s.jobs.values) (hjob : job ∈ s.jobs.values) (workerId : Text)
    (moment leaseExpiry : Datetime) :
    (Postgres.updateJob workerId moment leaseExpiry job.jobId rows).Perm
      (s.jobs.set job.jobId.value (JobQueue.claimedRow job workerId moment leaseExpiry)).values := by
  rw [hkeyed.values_set_of_mem _ (hkeyed.get?_of_mem hjob)]
  have hsame : s.jobs.values.map (fun row => if row.jobId.value = job.jobId.value then
      JobQueue.claimedRow job workerId moment leaseExpiry else row) =
      Postgres.updateJob workerId moment leaseExpiry job.jobId s.jobs.values := by
    apply List.map_congr_left
    intro row hrow
    by_cases hid : row.jobId = job.jobId
    · rw [if_pos (by rw [hid]), if_pos hid, eq_of_jobId hkeyed hrow hjob hid]
      rfl
    · have hvalue : row.jobId.value ≠ job.jobId.value := fun h => hid (JobId.ext h)
      rw [if_neg hvalue, if_neg hid]
  rw [hsame]
  exact hrows.map _

/-- What the UPDATE returns. -/
theorem find_updateJob (hkeyed : s.jobs.Keyed fun r => r.jobId.value)
    (hrows : rows.Perm s.jobs.values) (hjob : job ∈ s.jobs.values) (workerId : Text)
    (moment leaseExpiry : Datetime) :
    (Postgres.updateJob workerId moment leaseExpiry job.jobId rows).find?
      (fun r => r.jobId = job.jobId) =
      some (Postgres.updatedRow workerId moment leaseExpiry job) := by
  unfold Postgres.updateJob
  cases hfind : (rows.map fun row => if row.jobId = job.jobId then
      Postgres.updatedRow workerId moment leaseExpiry row else row).find?
      (fun r => r.jobId = job.jobId) with
  | none =>
    have hmem := List.mem_map_of_mem (f := fun row => if row.jobId = job.jobId then
      Postgres.updatedRow workerId moment leaseExpiry row else row) (hrows.mem_iff.mpr hjob)
    have hnot := List.find?_eq_none.mp hfind _ hmem
    simp [Postgres.updatedRow] at hnot
  | some claimed =>
    obtain ⟨row, hrow, himage⟩ := List.mem_map.mp (List.mem_of_find?_eq_some hfind)
    have hid : claimed.jobId = job.jobId := by simpa using List.find?_some hfind
    by_cases hrowid : row.jobId = job.jobId
    · rw [if_pos hrowid, eq_of_jobId hkeyed (hrows.mem_iff.mp hrow) hjob hrowid] at himage
      rw [himage]
    · rw [if_neg hrowid] at himage
      exact absurd (himage ▸ hid) hrowid

/-- `ClaimedJob` of the returned row is the one of the in-memory queue. -/
theorem returnedJob_updatedRow (workerId : Text) (moment leaseExpiry : Datetime)
    (job : JobRecord) :
    Postgres.returnedJob workerId (Postgres.updatedRow workerId moment leaseExpiry job) =
      .ok (JobQueue.claimedJob job workerId leaseExpiry) := by
  have hcount : checkPositive ((job.attemptCount + 1 : ℕ) : Int) =
      .ok (Nat.succPNat job.attemptCount) := by
    unfold checkPositive
    rw [dif_pos (by simp)]
    rfl
  simp only [Postgres.returnedJob, Postgres.updatedRow, orRaise, hcount]
  rfl

end update

/-! ### Refinement -/

section refinement
variable {s : Store} {rows : List JobRecord} {workerId : Str} {lease : Int} {moment : Datetime}

/-- What a SELECT that returned a row says. -/
theorem claimSelect_eq_ok {worker : Text} {leaseExpiry : Datetime} {candidate : Option JobRecord} :
    Postgres.claimSelect workerId lease moment rows = .ok (worker, leaseExpiry, candidate) ↔
      worker.1 = workerId ∧ moment.add lease = some leaseExpiry ∧
        candidate = Postgres.selectJob (fun _ => false) moment rows := by
  simp only [Postgres.claimSelect, bind_eq_ok, checkText_eq_ok, orRaise_eq_ok, pure_eq_ok,
    Prod.mk.injEq]
  constructor
  · intro h
    obtain ⟨_, hworker, _, hexpiry, rfl, rfl, rfl⟩ := h
    exact ⟨hworker, hexpiry, rfl⟩
  · intro h
    obtain ⟨hworker, hexpiry, rfl⟩ := h
    exact ⟨worker, hworker, leaseExpiry, hexpiry, rfl, rfl, rfl⟩

/-- When the SELECT returns a row, both claims take that job. -/
theorem claim_of_row (hkeyed : s.jobs.Keyed fun r => r.jobId.value)
    (hrows : rows.Perm s.jobs.values) {worker : Text} {leaseExpiry : Datetime} {row : JobRecord}
    (h : Postgres.claimSelect workerId lease moment rows = .ok (worker, leaseExpiry, some row)) :
    row ∈ s.jobs.values ∧
      (JobQueue.claim workerId lease moment).exec s =
        (.ok (some (JobQueue.claimedJob row worker leaseExpiry)), { s with
          jobs := s.jobs.set row.jobId.value (JobQueue.claimedRow row worker moment leaseExpiry) }) ∧
      (Postgres.claim workerId lease moment).exec rows =
        (.ok (some (JobQueue.claimedJob row worker leaseExpiry)),
          Postgres.updateJob worker moment leaseExpiry row.jobId rows) := by
  obtain ⟨rfl, hexpiry, hrow⟩ := claimSelect_eq_ok.mp h
  rw [selectJob_eq hkeyed hrows] at hrow
  obtain ⟨rest, helig⟩ : ∃ rest, JobQueue.eligible s moment = row :: rest := by
    cases hlist : JobQueue.eligible s moment with
    | nil => simp [hlist] at hrow
    | cons job rest =>
      rw [hlist] at hrow
      exact ⟨rest, by rw [Option.some.inj hrow]⟩
  have hjob := (mem_of_eligible helig).1
  refine ⟨hjob, ?_, ?_⟩
  · rw [JobQueue.claim_exec]
    simp only [helig, hexpiry]
  · simp only [Postgres.claim, exec_bind, exec_get, exec_lift, h, exec_set, exec_map,
      find_updateJob hkeyed hrows hjob worker moment leaseExpiry, orRaise, returnedJob_updatedRow]

/-- When the SELECT is not reached or returns nothing, neither claim takes a job. -/
theorem claim_of_no_row (hkeyed : s.jobs.Keyed fun r => r.jobId.value)
    (hrows : rows.Perm s.jobs.values)
    (h : ∀ worker leaseExpiry row,
      Postgres.claimSelect workerId lease moment rows ≠ .ok (worker, leaseExpiry, some row)) :
    (∀ claimed, ((JobQueue.claim workerId lease moment).exec s).1 ≠ .ok (some claimed)) ∧
      ((JobQueue.claim workerId lease moment).exec s).2 = s ∧
      (∀ claimed, ((Postgres.claim workerId lease moment).exec rows).1 ≠ .ok (some claimed)) ∧
      ((Postgres.claim workerId lease moment).exec rows).2 = rows := by
  have hsql : (∀ claimed, ((Postgres.claim workerId lease moment).exec rows).1 ≠ .ok (some claimed)) ∧
      ((Postgres.claim workerId lease moment).exec rows).2 = rows := by
    simp only [Postgres.claim, exec_bind, exec_get, exec_lift]
    rcases hselected : Postgres.claimSelect workerId lease moment rows with e | ⟨worker, expiry, c⟩
    · exact ⟨fun claimed => by simp, rfl⟩
    · cases c with
      | none => exact ⟨fun claimed => by simp, rfl⟩
      | some row => exact absurd hselected (h worker expiry row)
  suffices hmemory :
      (∀ claimed, ((JobQueue.claim workerId lease moment).exec s).1 ≠ .ok (some claimed)) ∧
        ((JobQueue.claim workerId lease moment).exec s).2 = s from
    ⟨hmemory.1, hmemory.2, hsql.1, hsql.2⟩
  cases hworker : checkText workerId with
  | error e =>
    have hexec : (JobQueue.claim workerId lease moment).exec s = (.error e, s) := by
      simp only [JobQueue.claim, hworker, exec_bind, exec_lift]
    rw [hexec]
    exact ⟨fun claimed => by simp, rfl⟩
  | ok worker =>
    obtain rfl := checkText_eq_ok.mp hworker
    rw [JobQueue.claim_exec]
    cases helig : JobQueue.eligible s moment with
    | nil => exact ⟨fun claimed => by simp, rfl⟩
    | cons job rest =>
      cases hexpiry : moment.add lease with
      | none => exact ⟨fun claimed => by simp, rfl⟩
      | some leaseExpiry =>
        -- then the SELECT would have returned that job
        have hrow : some job = Postgres.selectJob (fun _ => false) moment rows := by
          rw [selectJob_eq hkeyed hrows, helig]
          rfl
        exact absurd (claimSelect_eq_ok.mpr ⟨rfl, hexpiry, hrow⟩) (h worker leaseExpiry job)

end refinement

/-- **The in-memory claim refines the SQL claim.** On the same jobs, in any order:
    it returns a job exactly when the SELECT returns a row, and then it is that
    job, both claims return the same `ClaimedJob`, and the row written is the one
    of the UPDATE; the tables are the same again, and no other row changes. -/
theorem claim_refines_sql (s : Store) (rows : List JobRecord)
    (hkeyed : s.jobs.Keyed fun r => r.jobId.value) (hrows : rows.Perm s.jobs.values)
    (workerId : Str) (lease : Int) (moment : Datetime) :
    let memory := (JobQueue.claim workerId lease moment).exec s
    let sql := (Postgres.claim workerId lease moment).exec rows
    let selected := Postgres.claimSelect workerId lease moment rows
    ((∃ claimed, memory.1 = .ok (some claimed)) ↔
        ∃ worker leaseExpiry row, selected = .ok (worker, leaseExpiry, some row)) ∧
      (∀ claimed, memory.1 = .ok (some claimed) ↔ sql.1 = .ok (some claimed)) ∧
      (∀ worker leaseExpiry row, selected = .ok (worker, leaseExpiry, some row) →
        memory.1 = .ok (some (JobQueue.claimedJob row worker leaseExpiry)) ∧
        memory.2.jobs.get? row.jobId.value =
          some (Postgres.updatedRow worker moment leaseExpiry row) ∧
        ∀ id, id ≠ row.jobId.value → memory.2.jobs.get? id = s.jobs.get? id) ∧
      (¬ (∃ claimed, memory.1 = .ok (some claimed)) → memory.2 = s) ∧
      sql.2.Perm memory.2.jobs.values ∧ memory.2 = { s with jobs := memory.2.jobs } := by
  intro memory sql selected
  -- both claim the row the `SELECT` returns, or neither claims one
  by_cases h : ∃ worker leaseExpiry row, selected = .ok (worker, leaseExpiry, some row)
  · obtain ⟨worker, leaseExpiry, row, hselected⟩ := h
    obtain ⟨hjob, hmemory, hsql⟩ := claim_of_row hkeyed hrows hselected
    change memory = _ at hmemory
    change sql = _ at hsql
    rw [hmemory, hsql]
    refine ⟨⟨fun _ => ⟨worker, leaseExpiry, row, hselected⟩, fun _ => ⟨_, rfl⟩⟩, fun _ => Iff.rfl,
      ?_, fun hno => absurd ⟨_, rfl⟩ hno, updateJob_perm hkeyed hrows hjob worker moment leaseExpiry,
      rfl⟩
    intro worker' leaseExpiry' row' hselected'
    obtain ⟨rfl, hrest⟩ := Prod.mk.inj (Except.ok.inj (hselected.symm.trans hselected'))
    obtain ⟨rfl, hrow⟩ := Prod.mk.inj hrest
    obtain rfl := Option.some.inj hrow
    exact ⟨rfl, Dict.get?_set_self _ _ _, fun id hid => Dict.get?_set_ne _ _ hid⟩
  · have hnone : ∀ worker leaseExpiry row, selected ≠ .ok (worker, leaseExpiry, some row) :=
      fun worker leaseExpiry row heq => h ⟨worker, leaseExpiry, row, heq⟩
    obtain ⟨hmemory, hstore, hsql, htable⟩ := claim_of_no_row hkeyed hrows hnone
    change ∀ claimed, memory.1 ≠ _ at hmemory
    change memory.2 = s at hstore
    change ∀ claimed, sql.1 ≠ _ at hsql
    change sql.2 = rows at htable
    rw [hstore, htable]
    refine ⟨⟨?_, fun hex => absurd hex h⟩, ?_, ?_, fun _ => rfl, hrows, rfl⟩
    · intro hex
      obtain ⟨claimed, hclaimed⟩ := hex
      exact absurd hclaimed (hmemory claimed)
    · intro claimed
      exact iff_of_false (hmemory claimed) (hsql claimed)
    · intro worker leaseExpiry row hselected
      exact absurd hselected (hnone worker leaseExpiry row)

namespace Demo

/-- A job that waits since instant 0. -/
def waitingJob : JobRecord where
  jobId := ⟨⟨0, by decide⟩⟩
  investigationId := ⟨⟨1, UUID.one_lt⟩⟩
  tenant := ⟨str "tenant"⟩
  status := .queued
  availableAt := ⟨0, Datetime.zero_lt⟩
  claimedBy := none
  claimedAt := none
  leaseExpiresAt := none
  attemptCount := 0
  maxAttempts := Nat.succPNat 2
  createdAt := ⟨0, Datetime.zero_lt⟩
  updatedAt := ⟨0, Datetime.zero_lt⟩

/-- A second one that waits as long. -/
def secondWaiting : JobRecord :=
  { waitingJob with jobId := ⟨⟨1, UUID.one_lt⟩⟩, investigationId := ⟨⟨2, UUID.two_lt⟩⟩ }

/-- Both, the one with the greater id inserted first. -/
def waitingTwice : Store :=
  let jobs := Dict.empty.set secondWaiting.jobId.value secondWaiting
  { Store.empty with jobs := jobs.set waitingJob.jobId.value waitingJob }

end Demo

open Demo in
/-- Of two jobs that wait since the same instant, the one with the smaller id is claimed, in
    whatever order the table has them, and the other one stays as it is. -/
theorem claim_refines_sql_demo : ∃ memory sql,
    (JobQueue.claim (str "worker") 30 ⟨5, by decide⟩).exec waitingTwice = memory ∧
      (Postgres.claim (str "worker") 30 ⟨5, by decide⟩).exec [waitingJob, secondWaiting] = sql ∧
      waitingTwice.jobs.values = [secondWaiting, waitingJob] ∧
      sql.1 = .ok (some (JobQueue.claimedJob waitingJob ⟨str "worker", by decide⟩ ⟨35, by decide⟩)) ∧
      memory.1 = sql.1 ∧
      memory.2.jobs.get? waitingJob.jobId.value =
        some (Postgres.updatedRow ⟨str "worker", by decide⟩ ⟨5, by decide⟩ ⟨35, by decide⟩ waitingJob) ∧
      memory.2.jobs.get? secondWaiting.jobId.value = some secondWaiting ∧
      sql.2.Perm memory.2.jobs.values := by
  obtain ⟨-, hclaimed, hrow, -, hperm, -⟩ := claim_refines_sql waitingTwice [waitingJob, secondWaiting]
    (((Dict.keyed_empty _).set rfl).set rfl) (List.Perm.swap _ _ _) (str "worker") 30 ⟨5, by decide⟩
  obtain ⟨hmemory, hupdated, hothers⟩ := hrow _ ⟨35, by decide⟩ waitingJob rfl
  have hsql := (hclaimed _).mp hmemory
  exact ⟨_, _, rfl, rfl, rfl, hsql, hmemory.trans hsql.symm, hupdated,
    (hothers secondWaiting.jobId.value (by decide)).trans rfl, hperm⟩

end IncidentEvidence
