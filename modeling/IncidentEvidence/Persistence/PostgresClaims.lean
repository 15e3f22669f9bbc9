import IncidentEvidence.Concurrency.Runs
import IncidentEvidence.Persistence.SqlClaim
import Mathlib.Logic.Function.Basic

/-! # Concurrent claims

    Any number of workers claim jobs from one table at once, each in transactions
    of its own: the SELECT of `claim` locks the row it returns and passes over
    rows that others have locked, the UPDATE and `set_status` write an uncommitted
    version of that row, and a commit publishes it. Between any two statements
    anything may happen elsewhere.

    `Claims.Ok` is the invariant: a job has one holder, the holder has read the
    latest committed version, and its own version counts one attempt more. It
    gives **at most one holder per job** (`claims_exclusive`).
-/

namespace IncidentEvidence

open Py Runs

/-! ### Transactions -/

/-- A worker's transaction. -/
inductive ClaimTransaction where
  /-- No transaction is open. -/
  | idle
  /-- The SELECT returned no row. -/
  | empty
  /-- The SELECT returned and locked `row`; the UPDATE is still to come. -/
  | selected (workerId : Text) (moment leaseExpiry : Datetime) (row : JobRecord)
  /-- The row is claimed: what was read, and the uncommitted version. -/
  | claimed (row version : JobRecord)

/-- The row a transaction has locked, as it read it. -/
def ClaimTransaction.locked : ClaimTransaction → Option JobRecord
  | .idle | .empty => none
  | .selected _ _ _ row | .claimed row _ => some row

/-- The table of jobs in its latest committed version, and everyone's transaction. -/
structure Claims (ι : Type) where
  rows : List JobRecord
  transaction : ι → ClaimTransaction

variable {ι : Type} [DecidableEq ι]

namespace Claims

/-- Worker `w` holds the job: an open transaction of its own has the row locked. -/
def Holds (s : Claims ι) (w : ι) (jobId : JobId) : Prop :=
  ∃ row, (s.transaction w).locked = some row ∧ row.jobId = jobId

/-- The transaction of `w` becomes `t`. -/
def become (s : Claims ι) (w : ι) (t : ClaimTransaction) : Claims ι :=
  { s with transaction := Function.update s.transaction w t }

/-- A commit of `version` in the place of the row with its id. -/
def publish (rows : List JobRecord) (version : JobRecord) : List JobRecord :=
  rows.map fun row => if row.jobId = version.jobId then version else row

/-- A step of one worker. -/
inductive Move where
  /-- `claim` up to its SELECT, which returned the row of `candidate`. -/
  | select (workerId : Text) (lease : Int) (moment : Datetime) (candidate : Option JobId)
  /-- The UPDATE of `claim`. -/
  | update
  /-- `set_status` of the claimed job. -/
  | setStatus (status : JobStatus) (now : Datetime)
  /-- A commit, of a claim of the job or of nothing. -/
  | commit (jobId : Option JobId)
  /-- A rollback, by the worker or because it is gone. -/
  | rollback

def step (s : Claims ι) : ι × Move → Claims ι → Prop
  | (w, .select workerId lease moment candidate), s' =>
    s.transaction w = .idle ∧ ∃ leaseExpiry locked, moment.add lease = some leaseExpiry ∧
      (∀ jobId, locked jobId = true ↔ ∃ w', w' ≠ w ∧ s.Holds w' jobId) ∧
      match Postgres.selectJob locked moment s.rows with
      | none => candidate = none ∧ s' = s.become w .empty
      | some row => candidate = some row.jobId ∧
          s' = s.become w (.selected workerId moment leaseExpiry row)
  | (w, .update), s' => ∃ workerId moment leaseExpiry row,
      s.transaction w = .selected workerId moment leaseExpiry row ∧
      s' = s.become w (.claimed row (Postgres.updatedRow workerId moment leaseExpiry row))
  | (w, .setStatus status now), s' => ∃ row version, s.transaction w = .claimed row version ∧
      s' = s.become w (.claimed row (version.withStatus status now))
  | (w, .commit none), s' => s.transaction w = .empty ∧ s' = s.become w .idle
  | (w, .commit (some jobId)), s' => ∃ row version, s.transaction w = .claimed row version ∧
      row.jobId = jobId ∧ s' = { s.become w .idle with rows := publish s.rows version }
  | (w, .rollback), s' => s.transaction w ≠ .idle ∧ s' = s.become w .idle

/-- The workers over a table whose ids are distinct, no transaction being open. -/
def system (ι : Type) [DecidableEq ι] : System (Claims ι) (ι × Move) where
  init s := (s.rows.map JobRecord.jobId).Nodup ∧ ∀ w, s.transaction w = .idle
  step := step

/-! ### The invariant -/

structure Ok (s : Claims ι) : Prop where
  ids : (s.rows.map JobRecord.jobId).Nodup
  /-- A job has one holder. -/
  unique : ∀ w w' jobId, s.Holds w jobId → s.Holds w' jobId → w = w'
  /-- What a holder has read is the latest committed version. -/
  latest : ∀ w row, (s.transaction w).locked = some row → row ∈ s.rows
  /-- The holder's version is of the same job, with one attempt more. -/
  version : ∀ w row version, s.transaction w = .claimed row version →
    version.jobId = row.jobId ∧ version.attemptCount = row.attemptCount + 1

variable {s s' : Claims ι} {w : ι}

omit [DecidableEq ι] in
theorem Ok.eq_of_jobId (h : s.Ok) {a b : JobRecord} (ha : a ∈ s.rows) (hb : b ∈ s.rows)
    (hid : a.jobId = b.jobId) : a = b :=
  List.inj_on_of_nodup_map h.ids ha hb hid

/-- What the SELECT returns is in the table, claimable and not locked. -/
theorem selectJob_eq_some {locked : JobId → Bool} {moment : Datetime} {rows : List JobRecord}
    {row : JobRecord} (h : Postgres.selectJob locked moment rows = some row) :
    row ∈ rows ∧ JobQueue.claimable row moment = true ∧ locked row.jobId = false := by
  have hmem := List.mem_of_head? h
  rw [mem_sortedOn, List.mem_filter, Bool.and_eq_true, claimCondition_holds] at hmem
  exact ⟨hmem.1, hmem.2.1, by simpa using hmem.2.2⟩

@[simp] theorem become_self (s : Claims ι) (w : ι) (t : ClaimTransaction) :
    (s.become w t).transaction w = t := by
  simp [become]

theorem become_ne (s : Claims ι) {w w' : ι} (t : ClaimTransaction) (h : w' ≠ w) :
    (s.become w t).transaction w' = s.transaction w' := by
  simp [become, h]

/-- The jobs that others hold do not change. -/
theorem holds_become_ne {t : ClaimTransaction} {w' : ι} {jobId : JobId} (h : w' ≠ w) :
    (s.become w t).Holds w' jobId ↔ s.Holds w' jobId := by
  unfold Holds
  rw [become_ne s t h]

/-- A transaction that locks nothing new keeps the invariant. -/
theorem Ok.become (h : s.Ok) {t : ClaimTransaction}
    (hlocked : ∀ row, t.locked = some row → row ∈ s.rows ∧ ∀ w', w' ≠ w → ¬ s.Holds w' row.jobId)
    (hversion : ∀ row version, t = .claimed row version →
      version.jobId = row.jobId ∧ version.attemptCount = row.attemptCount + 1) :
    (s.become w t).Ok where
  ids := h.ids
  unique a b jobId ha hb := by
    -- a job that another worker holds was not locked
    have hself : ∀ c, c ≠ w → s.Holds c jobId → ¬ (s.become w t).Holds w jobId := by
      intro c hc hholds hw
      obtain ⟨row, hrow, rfl⟩ := hw
      rw [become_self] at hrow
      exact (hlocked row hrow).2 c hc hholds
    by_cases haw : a = w
    · by_cases hbw : b = w
      · rw [haw, hbw]
      · rw [haw] at ha
        exact absurd ha (hself b hbw ((holds_become_ne hbw).mp hb))
    · by_cases hbw : b = w
      · rw [hbw] at hb
        exact absurd hb (hself a haw ((holds_become_ne haw).mp ha))
      · exact h.unique a b jobId ((holds_become_ne haw).mp ha) ((holds_become_ne hbw).mp hb)
  latest a row hrow := by
    by_cases haw : a = w
    · rw [haw, become_self] at hrow
      exact (hlocked row hrow).1
    · rw [become_ne s t haw] at hrow
      exact h.latest a row hrow
  version a row version ha := by
    by_cases haw : a = w
    · rw [haw, become_self] at ha
      exact hversion row version ha
    · rw [become_ne s t haw] at ha
      exact h.version a row version ha

theorem map_jobId_publish (rows : List JobRecord) (version : JobRecord) :
    (publish rows version).map JobRecord.jobId = rows.map JobRecord.jobId := by
  unfold publish
  rw [List.map_map]
  apply List.map_congr_left
  intro row _
  show (if row.jobId = version.jobId then version else row).jobId = row.jobId
  by_cases hid : row.jobId = version.jobId
  · rw [if_pos hid, hid]
  · rw [if_neg hid]

theorem mem_publish_of_ne {rows : List JobRecord} {row version : JobRecord} (hrow : row ∈ rows)
    (hid : row.jobId ≠ version.jobId) : row ∈ publish rows version :=
  List.mem_map.mpr ⟨row, hrow, if_neg hid⟩

theorem mem_publish_self {rows : List JobRecord} {row version : JobRecord} (hrow : row ∈ rows)
    (hid : row.jobId = version.jobId) : version ∈ publish rows version :=
  List.mem_map.mpr ⟨row, hrow, if_pos hid⟩

omit [DecidableEq ι] in
/-- A new version of a job nobody holds any more. -/
theorem Ok.publish (h : s.Ok) {version : JobRecord} (hfree : ∀ w, ¬ s.Holds w version.jobId) :
    ({ s with rows := publish s.rows version } : Claims ι).Ok where
  ids := by
    show ((Claims.publish s.rows version).map JobRecord.jobId).Nodup
    rw [map_jobId_publish]
    exact h.ids
  unique := h.unique
  latest w row hrow := by
    apply mem_publish_of_ne (h.latest w row hrow)
    intro hid
    exact hfree w ⟨row, hrow, hid⟩
  version := h.version

/-- Only the commit of a claim changes the table. -/
theorem rows_step {move : Move} (hstep : step s (w, move) s')
    (hno : ∀ jobId, move ≠ .commit (some jobId)) : s'.rows = s.rows := by
  cases move with
  | select workerId lease moment candidate =>
    obtain ⟨-, leaseExpiry, locked, -, -, hresult⟩ := hstep
    cases hselect : Postgres.selectJob locked moment s.rows with
    | none =>
      rw [hselect] at hresult
      obtain ⟨-, rfl⟩ := hresult
      rfl
    | some row =>
      rw [hselect] at hresult
      obtain ⟨-, rfl⟩ := hresult
      rfl
  | update =>
    obtain ⟨_, _, _, _, -, rfl⟩ := hstep
    rfl
  | setStatus status now =>
    obtain ⟨_, _, -, rfl⟩ := hstep
    rfl
  | rollback =>
    obtain ⟨-, rfl⟩ := hstep
    rfl
  | commit jobId =>
    cases jobId with
    | none =>
      obtain ⟨-, rfl⟩ := hstep
      rfl
    | some jobId => exact absurd rfl (hno jobId)

/-- **Every step keeps the invariant.** -/
theorem ok_step {move : ι × Move} (h : s.Ok) (hstep : step s move s') : s'.Ok := by
  obtain ⟨w, move⟩ := move
  -- what a transaction has locked already, nobody else holds
  have hown : ∀ row, (s.transaction w).locked = some row →
      row ∈ s.rows ∧ ∀ w', w' ≠ w → ¬ s.Holds w' row.jobId := by
    intro row hrow
    refine ⟨h.latest w row hrow, ?_⟩
    intro w' hw' hholds
    exact hw' (h.unique w' w row.jobId hholds ⟨row, hrow, rfl⟩)
  cases move with
  | select workerId lease moment candidate =>
    obtain ⟨-, leaseExpiry, locked, -, hlocked, hresult⟩ := hstep
    cases hselect : Postgres.selectJob locked moment s.rows with
    | none =>
      rw [hselect] at hresult
      obtain ⟨-, rfl⟩ := hresult
      exact h.become (fun row hrow => by cases hrow) (fun row version heq => by cases heq)
    | some row =>
      rw [hselect] at hresult
      obtain ⟨-, rfl⟩ := hresult
      obtain ⟨hmem, -, hfree⟩ := selectJob_eq_some hselect
      refine h.become ?_ (fun row version heq => by cases heq)
      intro row' hrow'
      obtain rfl := Option.some.inj hrow'
      refine ⟨hmem, ?_⟩
      intro w' hw' hholds
      rw [(hlocked row.jobId).mpr ⟨w', hw', hholds⟩] at hfree
      exact absurd hfree (by simp)
  | update =>
    obtain ⟨workerId, moment, leaseExpiry, row, ht, rfl⟩ := hstep
    rw [ht] at hown
    refine h.become hown ?_
    intro row' version heq
    obtain ⟨rfl, rfl⟩ := ClaimTransaction.claimed.inj heq
    exact ⟨rfl, rfl⟩
  | setStatus status now =>
    obtain ⟨row, version, ht, rfl⟩ := hstep
    obtain ⟨hid, hcount⟩ := h.version w row version ht
    rw [ht] at hown
    refine h.become hown ?_
    intro row' version' heq
    obtain ⟨rfl, rfl⟩ := ClaimTransaction.claimed.inj heq
    exact ⟨hid, hcount⟩
  | rollback =>
    obtain ⟨-, rfl⟩ := hstep
    exact h.become (fun row hrow => by cases hrow) (fun row version heq => by cases heq)
  | commit jobId =>
    cases jobId with
    | none =>
      obtain ⟨-, rfl⟩ := hstep
      exact h.become (fun row hrow => by cases hrow) (fun row version heq => by cases heq)
    | some jobId =>
      obtain ⟨row, version, ht, rfl, rfl⟩ := hstep
      obtain ⟨hid, -⟩ := h.version w row version ht
      have hidle : (s.become w .idle).Ok :=
        h.become (fun row hrow => by cases hrow) (fun row version heq => by cases heq)
      refine hidle.publish ?_
      intro w' hholds
      by_cases hw : w' = w
      · obtain ⟨row', hrow', -⟩ := hholds
        rw [hw, become_self] at hrow'
        cases hrow'
      · rw [ht] at hown
        rw [hid] at hholds
        exact (hown row rfl).2 w' hw ((holds_become_ne hw).mp hholds)

/-! ### Runs -/

/-- No step loses a row. -/
theorem ids_step {move : ι × Move} (hstep : step s move s') :
    s'.rows.map JobRecord.jobId = s.rows.map JobRecord.jobId := by
  obtain ⟨w, move⟩ := move
  by_cases hcommit : ∃ jobId, move = .commit (some jobId)
  · obtain ⟨jobId, rfl⟩ := hcommit
    obtain ⟨row, version, -, -, rfl⟩ := hstep
    exact map_jobId_publish s.rows version
  · rw [rows_step hstep fun jobId heq => hcommit ⟨jobId, heq⟩]

/-- A committed row stays until a claim of its job is committed. -/
theorem row_kept {move : ι × Move} {row : JobRecord} (h : s.Ok) (hrow : row ∈ s.rows)
    (hstep : step s move s') (hno : ∀ w, move ≠ (w, .commit (some row.jobId))) : row ∈ s'.rows := by
  obtain ⟨w, move⟩ := move
  by_cases hcommit : ∃ jobId, move = .commit (some jobId)
  · obtain ⟨jobId, rfl⟩ := hcommit
    obtain ⟨read, version, ht, rfl, rfl⟩ := hstep
    obtain ⟨hid, -⟩ := h.version w read version ht
    have hne : row.jobId ≠ version.jobId := by
      intro heq
      exact hno w (by rw [heq, hid])
    exact mem_publish_of_ne hrow hne
  · rw [rows_step hstep fun jobId heq => hcommit ⟨jobId, heq⟩]
    exact hrow

theorem row_kept_run {moves : List (ι × Move)} {row : JobRecord} (hrun : Run (system ι) s moves s')
    (h : s.Ok) (hrow : row ∈ s.rows) (hno : ∀ w, (w, .commit (some row.jobId)) ∉ moves) :
    s'.Ok ∧ row ∈ s'.rows := by
  induction hrun with
  | nil => exact ⟨h, hrow⟩
  | cons hstep _ ih =>
    apply ih (ok_step h hstep)
    · apply row_kept h hrow hstep
      intro w heq
      exact hno w (by rw [heq]; exact List.mem_cons_self)
    · intro w hmem
      exact hno w (List.mem_cons_of_mem _ hmem)

theorem ok_run {moves : List (ι × Move)} (hrun : Run (system ι) s moves s') (h : s.Ok) :
    s'.Ok ∧ s'.rows.map JobRecord.jobId = s.rows.map JobRecord.jobId := by
  induction hrun with
  | nil => exact ⟨h, rfl⟩
  | cons hstep _ ih =>
    obtain ⟨hok, hids⟩ := ih (ok_step h hstep)
    exact ⟨hok, hids.trans (ids_step hstep)⟩

theorem ok_init (h : (system ι).init s) : s.Ok := by
  obtain ⟨hids, hidle⟩ := h
  refine ⟨hids, ?_, ?_, ?_⟩
  · intro w w' jobId hholds
    obtain ⟨row, hrow, -⟩ := hholds
    rw [hidle w] at hrow
    cases hrow
  · intro w row hrow
    rw [hidle w] at hrow
    cases hrow
  · intro w row version ht
    rw [hidle w] at ht
    cases ht

/-- A job is handed out in its committed version, and that is claimable. -/
theorem select_row {workerId : Text} {lease : Int} {moment : Datetime} {jobId : JobId}
    (hstep : step s (w, .select workerId lease moment (some jobId)) s') :
    ∃ row ∈ s.rows, row.jobId = jobId ∧ JobQueue.claimable row moment = true := by
  obtain ⟨-, leaseExpiry, locked, -, -, hresult⟩ := hstep
  cases hselect : Postgres.selectJob locked moment s.rows with
  | none =>
    rw [hselect] at hresult
    exact absurd hresult.1 (by simp)
  | some row =>
    rw [hselect] at hresult
    obtain ⟨hmem, hclaimable, -⟩ := selectJob_eq_some hselect
    exact ⟨row, hmem, (Option.some.inj hresult.1).symm, hclaimable⟩

end Claims

open Claims in
/-- **At most one holder per job.** In every run of any number of workers:
    - no job is held by two open transactions;
    - a committed claim puts a version in the place of the latest committed one, and
      counts exactly one attempt more;
    - a rollback leaves the table alone, and the row is as the transaction read it;
    - after a commit, and until another claim of the job is committed, the job is
      handed out again only if its status is queued or its lease has ended;
    - no row is lost. -/
theorem claims_exclusive {s₀ s : Claims ι} {moves : List (ι × Move)}
    (hinit : (Claims.system ι).init s₀) (hrun : Run (Claims.system ι) s₀ moves s) :
    (∀ w w' jobId, s.Holds w jobId → s.Holds w' jobId → w = w') ∧
      (∀ w jobId s', step s (w, .commit (some jobId)) s' →
        ∃ row version, s.transaction w = .claimed row version ∧ row ∈ s.rows ∧
          row.jobId = jobId ∧ version.jobId = jobId ∧
          version.attemptCount = row.attemptCount + 1 ∧ s'.rows = publish s.rows version) ∧
      (∀ w s', step s (w, .rollback) s' → s'.rows = s.rows ∧
        ∀ row, (s.transaction w).locked = some row → row ∈ s'.rows) ∧
      (∀ w jobId row version s₁ moves' s₂ w' workerId lease moment s₃,
        s.transaction w = .claimed row version → step s (w, .commit (some jobId)) s₁ →
        Run (Claims.system ι) s₁ moves' s₂ → (∀ v, (v, .commit (some jobId)) ∉ moves') →
        step s₂ (w', .select workerId lease moment (some jobId)) s₃ →
          version.status = .queued ∨
            ∃ expiry, version.leaseExpiresAt = some expiry ∧ expiry ≤ moment) ∧
      s.rows.map JobRecord.jobId = s₀.rows.map JobRecord.jobId := by
  obtain ⟨hok, hids⟩ := ok_run hrun (ok_init hinit)
  refine ⟨hok.unique, ?_, ?_, ?_, hids⟩
  · intro w jobId s' hstep
    obtain ⟨row, version, ht, hjob, rfl⟩ := hstep
    obtain ⟨hid, hcount⟩ := hok.version w row version ht
    have hrow : row ∈ s.rows := hok.latest w row (by rw [ht]; rfl)
    exact ⟨row, version, ht, hrow, hjob, hid.trans hjob, hcount, rfl⟩
  · intro w s' hstep
    have hrows := rows_step hstep fun jobId heq => by cases heq
    refine ⟨hrows, ?_⟩
    intro row hrow
    rw [hrows]
    exact hok.latest w row hrow
  · intro w jobId row version s₁ moves' s₂ w' workerId lease moment s₃ ht hcommit hrun' hno hselect
    have hok₁ := ok_step hok hcommit
    obtain ⟨row', version', ht', rfl, rfl⟩ := hcommit
    obtain ⟨rfl, rfl⟩ := ClaimTransaction.claimed.inj (ht.symm.trans ht')
    obtain ⟨hid, -⟩ := hok.version w row version ht
    have hrow : row ∈ s.rows := hok.latest w row (by rw [ht]; rfl)
    -- the published version is still the committed one when the job is handed out
    obtain ⟨hok₂, hversion⟩ := row_kept_run hrun' hok₁ (mem_publish_self hrow hid.symm)
      (by rw [hid]; exact hno)
    obtain ⟨row₂, hrow₂, hid₂, hclaimable⟩ := select_row hselect
    obtain rfl := hok₂.eq_of_jobId hrow₂ hversion (hid₂.trans hid.symm)
    unfold JobQueue.claimable at hclaimable
    rw [Bool.or_eq_true, Bool.and_eq_true, Bool.and_eq_true] at hclaimable
    rcases hclaimable with ⟨hqueued, -⟩ | ⟨-, hlease⟩
    · exact Or.inl (by simpa using hqueued)
    · rw [Option.any_eq_true] at hlease
      obtain ⟨expiry, hexpiry, hle⟩ := hlease
      exact Or.inr ⟨expiry, hexpiry, by simpa using hle⟩

namespace Demo

theorem first_notBlank : isBlank (str "first") = false := by decide

theorem second_notBlank : isBlank (str "second") = false := by decide

def firstWorker : Text := ⟨str "first", first_notBlank⟩

def secondWorker : Text := ⟨str "second", second_notBlank⟩

def firstVersion : JobRecord :=
  Postgres.updatedRow firstWorker ⟨5, Datetime.five_lt⟩ ⟨10, Datetime.ten_lt⟩ waitingJob

/-- Two jobs that wait since the same instant, and two workers without a transaction. -/
def bothWaiting : Claims Bool := ⟨[waitingJob, secondWaiting], fun _ => .idle⟩

/-- One worker has claimed the first job, and the other has selected the second. -/
def bothHeld : Claims Bool :=
  ((bothWaiting.become true
    (.selected firstWorker ⟨5, Datetime.five_lt⟩ ⟨10, Datetime.ten_lt⟩ waitingJob)).become false
      (.selected secondWorker ⟨10, Datetime.ten_lt⟩ ⟨15, Datetime.fifteen_lt⟩ secondWaiting)).become true
        (.claimed waitingJob firstVersion)

/-- Then the first commits. -/
def firstCommitted : Claims Bool :=
  { bothHeld.become true .idle with rows := Claims.publish bothHeld.rows firstVersion }

theorem bothWaiting_free (w : Bool) (jobId : JobId) : ¬ bothWaiting.Holds w jobId := by
  intro h
  obtain ⟨row, hrow, -⟩ := h
  cases hrow

/-- Of two workers, one finds locked what the other has. -/
theorem locked_iff_other {s : Claims Bool} {w : Bool} {row : JobRecord}
    (h : (s.transaction (!w)).locked = some row) (jobId : JobId) :
    (fun id => decide (id = row.jobId)) jobId = true ↔ ∃ w', w' ≠ w ∧ s.Holds w' jobId := by
  rw [decide_eq_true_iff]
  constructor
  · intro hid
    exact ⟨!w, by simp, row, h, hid.symm⟩
  · intro hother
    obtain ⟨w', hw', row', hrow', hid⟩ := hother
    rw [Bool.eq_not.mpr hw', h] at hrow'
    rw [← hid, Option.some.inj hrow']

theorem bothHeld_run : Run (Claims.system Bool) bothWaiting
    [(true, .select firstWorker 5 ⟨5, Datetime.five_lt⟩ (some waitingJob.jobId)),
      (false, .select secondWorker 5 ⟨10, Datetime.ten_lt⟩ (some secondWaiting.jobId)),
      (true, .update)] bothHeld := by
  have hfree : ∀ jobId, (fun _ : JobId => false) jobId = true ↔
      ∃ w', w' ≠ true ∧ bothWaiting.Holds w' jobId := by
    intro jobId
    refine iff_of_false (by simp) ?_
    intro h
    obtain ⟨w', -, hholds⟩ := h
    exact bothWaiting_free w' jobId hholds
  exact .cons ⟨rfl, ⟨10, Datetime.ten_lt⟩, _, by decide, hfree, rfl, rfl⟩ <|
    -- the second SELECT passes over the row that is locked
    .cons ⟨rfl, ⟨15, Datetime.fifteen_lt⟩, _, by decide, locked_iff_other rfl, rfl, rfl⟩ <|
      .single ⟨_, _, _, _, rfl, rfl⟩

end Demo

open Demo in
/-- Both hold a job, each its own; the first commits its claim, and once the lease has run out the
    job is handed out again. -/
theorem claims_exclusive_demo : ∃ s : Claims Bool,
    bothHeld.Holds true waitingJob.jobId ∧ bothHeld.Holds false secondWaiting.jobId ∧
      (∀ w w' jobId, bothHeld.Holds w jobId → bothHeld.Holds w' jobId → w = w') ∧
      Claims.step bothHeld (true, .commit (some waitingJob.jobId)) firstCommitted ∧
      firstCommitted.rows.map JobRecord.attemptCount = [1, 0] ∧
      Claims.step firstCommitted (true, .select firstWorker 5 ⟨15, Datetime.fifteen_lt⟩
        (some waitingJob.jobId)) s ∧
      (firstVersion.status = .queued ∨
        ∃ expiry, firstVersion.leaseExpiresAt = some expiry ∧ expiry ≤ ⟨15, Datetime.fifteen_lt⟩) := by
  have hinit : (Claims.system Bool).init bothWaiting := ⟨by decide, fun _ => rfl⟩
  obtain ⟨hone, -, -, hagain, -⟩ := claims_exclusive hinit bothHeld_run
  have hcommit : Claims.step bothHeld (true, .commit (some waitingJob.jobId)) firstCommitted :=
    ⟨waitingJob, firstVersion, rfl, rfl, rfl⟩
  have hselect : Claims.step firstCommitted (true, .select firstWorker 5 ⟨15, Datetime.fifteen_lt⟩
      (some waitingJob.jobId)) _ :=
    ⟨rfl, ⟨20, Datetime.twenty_lt⟩, _, by decide, locked_iff_other rfl, rfl, rfl⟩
  exact ⟨_, ⟨_, rfl, rfl⟩, ⟨_, rfl, rfl⟩, hone, hcommit, rfl, hselect,
    hagain true waitingJob.jobId waitingJob firstVersion _ [] _ true _ _ _ _ rfl hcommit (.nil _)
      (fun _ => List.not_mem_nil) hselect⟩

end IncidentEvidence
