import IncidentEvidence.Application.Service

/-! # The life of a job

    In every committed store of a run each investigation has one job, and the two
    are pending, waiting for another attempt, succeeded with a report or failed.
    `Lifecycle` is the invariant. What a call does to a job is `Advance`, whatever
    its outcome; the main result is `job_lifecycle`.
-/

namespace IncidentEvidence

open Py Py.Action Runs

/-! ### The invariant -/

/-- How far an investigation and its job have come: their statuses, the attempts and the
    report. -/
inductive Phase : InvestigationStatus → JobStatus → ℕ → Option ReportRecord → Prop where
  | pending : Phase .pending .queued 0 none
  | waiting (n : ℕ) (h : 1 ≤ n) : Phase .running .queued n none
  | succeeded (n : ℕ) (report : ReportRecord) : Phase .succeeded .succeeded n (some report)
  | failed (n : ℕ) : Phase .failed .failed n none

/-- Nothing more happens to an investigation. -/
def InvestigationStatus.Over (status : InvestigationStatus) : Prop :=
  status = .succeeded ∨ status = .failed

theorem Phase.not_over {i : InvestigationStatus} {n : ℕ} {r : Option ReportRecord}
    (h : Phase i .queued n r) : ¬ i.Over ∧ i ≠ .cancelled ∧ r = none := by
  cases h with
  | pending => exact ⟨by simp [InvestigationStatus.Over], by decide, rfl⟩
  | waiting n _ => exact ⟨by simp [InvestigationStatus.Over], by decide, rfl⟩

/-- A job is queued or done. -/
theorem Phase.status {i : InvestigationStatus} {j : JobStatus} {n : ℕ} {r : Option ReportRecord}
    (h : Phase i j n r) : j = .queued ∨ j = .succeeded ∨ j = .failed := by
  cases h with
  | pending => exact Or.inl rfl
  | waiting => exact Or.inl rfl
  | succeeded => exact Or.inr (Or.inl rfl)
  | failed => exact Or.inr (Or.inr rfl)

/-- The investigation of a job that has ended is over. -/
theorem Phase.over {i : InvestigationStatus} {j : JobStatus} {n : ℕ} {r : Option ReportRecord}
    (h : Phase i j n r) (hended : j = .succeeded ∨ j = .failed) : i.Over := by
  cases h with
  | pending => simp at hended
  | waiting => simp at hended
  | succeeded => exact Or.inl rfl
  | failed => exact Or.inr rfl

/-- The outcome of an attempt of a job. -/
def attemptOutcome (job : JobRecord) (n : ℕ+) : AttemptOutcome :=
  if (n : ℕ) = job.attemptCount ∧ job.status = .succeeded then .succeeded else .failed

theorem attemptOutcome_succeeded {job : JobRecord} {n : ℕ+} (hn : (n : ℕ) = job.attemptCount)
    (hstatus : job.status = .succeeded) : attemptOutcome job n = .succeeded :=
  if_pos ⟨hn, hstatus⟩

theorem attemptOutcome_failed {job : JobRecord} {n : ℕ+} {status : JobStatus}
    (hstatus : job.status = status) (hne : status ≠ .succeeded) : attemptOutcome job n = .failed :=
  if_neg fun h => hne (hstatus.symm.trans h.2)

structure Lifecycle (S : Store) (drawn : List UUID) : Prop where
  investigationsKeyed : S.investigations.Keyed fun i => i.investigationId.value
  jobsKeyed : S.jobs.Keyed fun j => j.jobId.value
  attemptsKeyed : S.attempts.Keyed fun a => a.attemptId.value
  reportsKeyed : S.reports.Keyed fun r => r.investigationId.value
  investigationsDrawn : ∀ k i, S.investigations.get? k = some i → k ∈ drawn
  jobsDrawn : ∀ k j, S.jobs.get? k = some j → k ∈ drawn
  attemptsDrawn : ∀ k a, S.attempts.get? k = some a → k ∈ drawn
  job : ∀ k i, S.investigations.get? k = some i → ∃ k' j, S.jobs.get? k' = some j ∧
    j.investigationId = i.investigationId
  phase : ∀ k j, S.jobs.get? k = some j → ∃ i,
    S.investigations.get? j.investigationId.value = some i ∧ i.tenant = j.tenant ∧
    Phase i.status j.status j.attemptCount (S.reports.get? j.investigationId.value)
  oneJob : ∀ k k' j j', S.jobs.get? k = some j → S.jobs.get? k' = some j' →
    j.investigationId = j'.investigationId → k = k'
  attempt : ∀ k a, S.attempts.get? k = some a → ∃ j, S.jobs.get? a.jobId.value = some j ∧
    j.tenant = a.tenant ∧ (a.attemptNumber : ℕ) ≤ j.attemptCount ∧
    a.outcome = some (attemptOutcome j a.attemptNumber)
  numbered : ∀ k j, S.jobs.get? k = some j → ∀ n : ℕ+, (n : ℕ) ≤ j.attemptCount →
    ∃ k' a, S.attempts.get? k' = some a ∧ a.jobId = j.jobId ∧ a.attemptNumber = n
  oneAttempt : ∀ k k' a a', S.attempts.get? k = some a → S.attempts.get? k' = some a' →
    a.jobId = a'.jobId → a.attemptNumber = a'.attemptNumber → k = k'
  reported : ∀ k r, S.reports.get? k = some r → ∃ i, S.investigations.get? k = some i ∧
    r.tenant = i.tenant

/-! ### One attempt of a job -/

/-- What a call that has claimed `j` and not raised does to its rows. -/
structure Advance (S S' : Store) (j j' : JobRecord) (i i' : InvestigationRecord)
    (a : AttemptRecord) : Prop where
  job : S.jobs.get? j.jobId.value = some j
  queued : j.status = .queued
  investigation : S.investigations.get? j.investigationId.value = some i
  jobs : S'.jobs = S.jobs.set j.jobId.value j'
  sameJob : j'.jobId = j.jobId ∧ j'.investigationId = j.investigationId ∧ j'.tenant = j.tenant
  count : j'.attemptCount = j.attemptCount + 1
  investigations : S'.investigations = S.investigations.set j.investigationId.value i'
  sameInvestigation : i'.investigationId = i.investigationId ∧ i'.tenant = i.tenant
  attempts : S'.attempts = S.attempts.set a.attemptId.value a
  attempt : a.jobId = j.jobId ∧ a.tenant = j.tenant ∧ (a.attemptNumber : ℕ) = j'.attemptCount ∧
    a.outcome = some (attemptOutcome j' a.attemptNumber)
  reports : S'.reports = S.reports ∨ ∃ r, S'.reports = S.reports.set j.investigationId.value r ∧
    r.investigationId = j.investigationId ∧ r.tenant = j.tenant
  phase : Phase i'.status j'.status j'.attemptCount (S'.reports.get? j.investigationId.value)

section advance
variable {S S' : Store} {drawn : List UUID} {j j' : JobRecord} {i i' : InvestigationRecord}
  {a : AttemptRecord}

/-- The rows of other investigations and other jobs stay. -/
theorem Advance.other (h : Advance S S' j j' i i' a) :
    (∀ k, k ≠ j.jobId.value → S'.jobs.get? k = S.jobs.get? k) ∧
      (∀ k, k ≠ j.investigationId.value → S'.investigations.get? k = S.investigations.get? k) ∧
      (∀ k, k ≠ j.investigationId.value → S'.reports.get? k = S.reports.get? k) ∧
      ∀ k, k ≠ a.attemptId.value → S'.attempts.get? k = S.attempts.get? k := by
  refine ⟨fun k hk => ?_, fun k hk => ?_, fun k hk => ?_, fun k hk => ?_⟩
  · rw [h.jobs, Dict.get?_set_ne _ _ hk]
  · rw [h.investigations, Dict.get?_set_ne _ _ hk]
  · rcases h.reports with hsame | ⟨r, hset, -⟩
    · rw [hsame]
    · rw [hset, Dict.get?_set_ne _ _ hk]
  · rw [h.attempts, Dict.get?_set_ne _ _ hk]

/-- The row of the job afterwards. -/
theorem Advance.row (h : Advance S S' j j' i i' a) : S'.jobs.get? j.jobId.value = some j' := by
  rw [h.jobs, Dict.get?_set_self]

/-- A job afterwards is the one that was advanced or was there before. -/
theorem Advance.job_cases (h : Advance S S' j j' i i' a) {k : UUID} {x : JobRecord}
    (hx : S'.jobs.get? k = some x) :
    k = j.jobId.value ∧ x = j' ∨ k ≠ j.jobId.value ∧ S.jobs.get? k = some x := by
  by_cases hk : k = j.jobId.value
  · rw [hk, h.row] at hx
    exact Or.inl ⟨hk, (Option.some.inj hx).symm⟩
  · rw [h.other.1 k hk] at hx
    exact Or.inr ⟨hk, hx⟩

theorem Advance.attempt_cases (h : Advance S S' j j' i i' a) {k : UUID} {x : AttemptRecord}
    (hx : S'.attempts.get? k = some x) :
    k = a.attemptId.value ∧ x = a ∨ k ≠ a.attemptId.value ∧ S.attempts.get? k = some x := by
  by_cases hk : k = a.attemptId.value
  · rw [hk, h.attempts, Dict.get?_set_self] at hx
    exact Or.inl ⟨hk, (Option.some.inj hx).symm⟩
  · rw [h.other.2.2.2 k hk] at hx
    exact Or.inr ⟨hk, hx⟩

/-- Another job has another investigation. -/
theorem Advance.investigation_ne (h : Advance S S' j j' i i' a) (hlife : Lifecycle S drawn)
    {k : UUID} {x : JobRecord} (hk : k ≠ j.jobId.value) (hx : S.jobs.get? k = some x) :
    x.investigationId.value ≠ j.investigationId.value := by
  intro heq
  exact hk (hlife.oneJob k _ x j hx h.job (InvestigationId.ext heq))

/-- **An attempt keeps the invariant.** -/
theorem Lifecycle.advance (hlife : Lifecycle S drawn) (h : Advance S S' j j' i i' a)
    (hfresh : a.attemptId.value ∉ drawn) : Lifecycle S' (drawn ++ [a.attemptId.value]) := by
  obtain ⟨hjobs, hinvestigations, hreports, hattempts⟩ := h.other
  obtain ⟨hjobId, hinvestigationId, htenant⟩ := h.sameJob
  obtain ⟨haJob, haTenant, haNumber, haOutcome⟩ := h.attempt
  have hcount := h.count
  have hkeyI : i.investigationId = j.investigationId :=
    InvestigationId.ext (hlife.investigationsKeyed _ _ h.investigation).symm
  have hfreshAttempt : S.attempts.get? a.attemptId.value = none := by
    cases hget : S.attempts.get? a.attemptId.value with
    | none => rfl
    | some x => exact absurd (hlife.attemptsDrawn _ _ hget) hfresh
  -- the attempts of the job up to now
  have hearlier : ∀ k x, S.attempts.get? k = some x → x.jobId = j.jobId →
      (x.attemptNumber : ℕ) ≤ j.attemptCount ∧ x.outcome = some .failed := by
    intro k x hx hjob
    obtain ⟨y, hy, -, hle, hout⟩ := hlife.attempt k x hx
    rw [hjob, h.job] at hy
    obtain rfl := Option.some.inj hy
    refine ⟨hle, hout.trans ?_⟩
    simp [attemptOutcome, h.queued]
  have hmono : ∀ {k}, k ∈ drawn → k ∈ drawn ++ [a.attemptId.value] :=
    fun hk => List.mem_append_left _ hk
  exact {
    investigationsKeyed := by
      rw [h.investigations]
      refine hlife.investigationsKeyed.set ?_
      rw [h.sameInvestigation.1, hkeyI]
    jobsKeyed := by
      rw [h.jobs]
      exact hlife.jobsKeyed.set (by rw [hjobId])
    attemptsKeyed := by
      rw [h.attempts]
      exact hlife.attemptsKeyed.set rfl
    reportsKeyed := by
      rcases h.reports with hsame | ⟨r, hset, hr, -⟩
      · rw [hsame]
        exact hlife.reportsKeyed
      · rw [hset]
        exact hlife.reportsKeyed.set (by rw [hr])
    investigationsDrawn := by
      intro k x hx
      by_cases hk : k = j.investigationId.value
      · rw [hk]
        exact hmono (hlife.investigationsDrawn _ _ h.investigation)
      · rw [hinvestigations k hk] at hx
        exact hmono (hlife.investigationsDrawn k x hx)
    jobsDrawn := by
      intro k x hx
      rcases h.job_cases hx with ⟨rfl, -⟩ | ⟨-, hx⟩
      · exact hmono (hlife.jobsDrawn _ _ h.job)
      · exact hmono (hlife.jobsDrawn k x hx)
    attemptsDrawn := by
      intro k x hx
      rcases h.attempt_cases hx with ⟨rfl, -⟩ | ⟨-, hx⟩
      · exact List.mem_append_right _ List.mem_cons_self
      · exact hmono (hlife.attemptsDrawn k x hx)
    job := by
      intro k x hx
      by_cases hk : k = j.investigationId.value
      · rw [hk, h.investigations, Dict.get?_set_self] at hx
        obtain rfl := Option.some.inj hx
        exact ⟨_, j', h.row, by rw [hinvestigationId, h.sameInvestigation.1, hkeyI]⟩
      · rw [hinvestigations k hk] at hx
        obtain ⟨k', y, hy, hid⟩ := hlife.job k x hx
        refine ⟨k', y, ?_, hid⟩
        rw [hjobs k' ?_]
        · exact hy
        · rintro rfl
          rw [h.job] at hy
          obtain rfl := Option.some.inj hy
          apply hk
          rw [hlife.investigationsKeyed k x hx, hid]
    phase := by
      intro k x hx
      rcases h.job_cases hx with ⟨rfl, rfl⟩ | ⟨hk, hx⟩
      · refine ⟨i', ?_, ?_, ?_⟩
        · rw [hinvestigationId, h.investigations, Dict.get?_set_self]
        · obtain ⟨y, hy, hyTenant, -⟩ := hlife.phase _ _ h.job
          rw [h.investigation] at hy
          obtain rfl := Option.some.inj hy
          rw [h.sameInvestigation.2, hyTenant, htenant]
        · rw [hinvestigationId]
          exact h.phase
      · obtain ⟨y, hy, hyTenant, hphase⟩ := hlife.phase k x hx
        have hne := h.investigation_ne hlife hk hx
        exact ⟨y, by rw [hinvestigations _ hne, hy], hyTenant, by rw [hreports _ hne]; exact hphase⟩
    oneJob := by
      intro k k' x x' hx hx' heq
      rcases h.job_cases hx with ⟨rfl, rfl⟩ | ⟨hk, hx⟩
      · rcases h.job_cases hx' with ⟨rfl, -⟩ | ⟨hk', hx'⟩
        · rfl
        · rw [hinvestigationId] at heq
          exact hlife.oneJob _ _ _ _ h.job hx' heq
      · rcases h.job_cases hx' with ⟨rfl, rfl⟩ | ⟨hk', hx'⟩
        · rw [hinvestigationId] at heq
          exact hlife.oneJob _ _ _ _ hx h.job heq
        · exact hlife.oneJob _ _ _ _ hx hx' heq
    attempt := by
      intro k x hx
      rcases h.attempt_cases hx with ⟨rfl, rfl⟩ | ⟨hk, hx⟩
      · refine ⟨j', ?_, ?_, haNumber.le, haOutcome⟩
        · rw [haJob]
          exact h.row
        · rw [htenant, haTenant]
      · by_cases hjob : x.jobId = j.jobId
        · obtain ⟨hle, hout⟩ := hearlier k x hx hjob
          obtain ⟨y, hy, hyTenant, -, -⟩ := hlife.attempt k x hx
          rw [hjob, h.job] at hy
          obtain rfl := Option.some.inj hy
          refine ⟨j', by rw [hjob]; exact h.row, by rw [htenant, hyTenant], by omega, ?_⟩
          have hlast : (x.attemptNumber : ℕ) ≠ j'.attemptCount := by omega
          rw [hout]
          simp [attemptOutcome, hlast]
        · obtain ⟨y, hy, hrest⟩ := hlife.attempt k x hx
          refine ⟨y, ?_, hrest⟩
          rw [hjobs]
          · exact hy
          · intro heq
            exact hjob (JobId.ext heq)
    numbered := by
      intro k x hx n hn
      have hold : ∀ {k' y}, S.attempts.get? k' = some y → S'.attempts.get? k' = some y := by
        intro k' y hy
        rw [hattempts k' ?_]
        · exact hy
        · rintro rfl
          rw [hfreshAttempt] at hy
          cases hy
      rcases h.job_cases hx with ⟨rfl, rfl⟩ | ⟨hk, hx⟩
      · by_cases hlast : (n : ℕ) ≤ j.attemptCount
        · obtain ⟨k', y, hy, hyJob, hyNumber⟩ := hlife.numbered _ _ h.job n hlast
          exact ⟨k', y, hold hy, by rw [hyJob, hjobId], hyNumber⟩
        · refine ⟨_, a, by rw [h.attempts, Dict.get?_set_self], by rw [haJob, hjobId], ?_⟩
          apply PNat.eq
          omega
      · obtain ⟨k', y, hy, hrest⟩ := hlife.numbered k x hx n hn
        exact ⟨k', y, hold hy, hrest⟩
    oneAttempt := by
      have hnew : ∀ {k x}, S.attempts.get? k = some x → x.jobId = a.jobId →
          x.attemptNumber ≠ a.attemptNumber := by
        intro k x hx hjob heq
        obtain ⟨hle, -⟩ := hearlier k x hx (hjob.trans haJob)
        rw [heq] at hle
        omega
      intro k k' x x' hx hx' hjob hnumber
      rcases h.attempt_cases hx with ⟨rfl, rfl⟩ | ⟨hk, hx⟩
      · rcases h.attempt_cases hx' with ⟨rfl, -⟩ | ⟨hk', hx'⟩
        · rfl
        · exact absurd hnumber.symm (hnew hx' hjob.symm)
      · rcases h.attempt_cases hx' with ⟨rfl, rfl⟩ | ⟨hk', hx'⟩
        · exact absurd hnumber (hnew hx hjob)
        · exact hlife.oneAttempt _ _ _ _ hx hx' hjob hnumber
    reported := by
      intro k r hr
      by_cases hk : k = j.investigationId.value
      · refine ⟨i', by rw [hk, h.investigations, Dict.get?_set_self], ?_⟩
        rw [h.sameInvestigation.2]
        rcases h.reports with hsame | ⟨r', hset, -, hrTenant⟩
        · rw [hsame, hk] at hr
          obtain ⟨y, hy, hrTenant⟩ := hlife.reported _ r hr
          rw [h.investigation] at hy
          obtain rfl := Option.some.inj hy
          exact hrTenant
        · rw [hset, hk, Dict.get?_set_self] at hr
          obtain rfl := Option.some.inj hr
          obtain ⟨y, hy, hyTenant, -⟩ := hlife.phase _ _ h.job
          rw [h.investigation] at hy
          obtain rfl := Option.some.inj hy
          rw [hrTenant, hyTenant]
      · rw [hreports k hk] at hr
        obtain ⟨y, hy, hrTenant⟩ := hlife.reported k r hr
        exact ⟨y, by rw [hinvestigations k hk, hy], hrTenant⟩ }

/-- More ids may have been drawn than are in the tables. -/
theorem Lifecycle.mono {drawn' : List UUID} (h : Lifecycle S drawn) (hsub : drawn ⊆ drawn') :
    Lifecycle S drawn' :=
  { h with
    investigationsDrawn := fun k i hi => hsub (h.investigationsDrawn k i hi)
    jobsDrawn := fun k j hj => hsub (h.jobsDrawn k j hj)
    attemptsDrawn := fun k a ha => hsub (h.attemptsDrawn k a ha) }

theorem lifecycle_empty : Lifecycle Store.empty [] := by
  constructor <;> first | exact Dict.keyed_empty _ | (intros; simp_all [Store.empty])

/-- A creation keeps the invariant. -/
theorem Lifecycle.created (hlife : Lifecycle S drawn) {record : InvestigationRecord} {job : JobRecord}
    {event : AuditRecord} (hpending : record.status = .pending) (hqueued : job.status = .queued)
    (hcount : job.attemptCount = 0) (hid : job.investigationId = record.investigationId)
    (htenant : job.tenant = record.tenant)
    (hnew : S.investigations.get? record.investigationId.value = none)
    (hnewJob : S.jobs.get? job.jobId.value = none) :
    Lifecycle (CreateInvestigation.createdStore S record job event)
      (drawn ++ [record.investigationId.value, job.jobId.value]) := by
  have hmono : ∀ {k}, k ∈ drawn → k ∈ drawn ++ [record.investigationId.value, job.jobId.value] :=
    fun hk => List.mem_append_left _ hk
  -- nothing in the tables refers to an investigation that is not there
  have hnoJob : ∀ k j, S.jobs.get? k = some j → j.investigationId ≠ record.investigationId := by
    intro k j hj heq
    obtain ⟨i, hi, -⟩ := hlife.phase k j hj
    rw [heq, hnew] at hi
    cases hi
  have hnoAttempt : ∀ k a, S.attempts.get? k = some a → a.jobId.value ≠ job.jobId.value := by
    intro k a ha heq
    obtain ⟨j, hj, -⟩ := hlife.attempt k a ha
    rw [heq, hnewJob] at hj
    cases hj
  have hnoReport : S.reports.get? record.investigationId.value = none := by
    cases hget : S.reports.get? record.investigationId.value with
    | none => rfl
    | some r =>
      obtain ⟨i, hi, -⟩ := hlife.reported _ r hget
      rw [hnew] at hi
      cases hi
  have hinvestigation : ∀ k i, S.investigations.get? k = some i →
      (S.investigations.set record.investigationId.value record).get? k = some i := by
    intro k i hi
    rw [Dict.get?_set_ne, hi]
    rintro rfl
    rw [hnew] at hi
    cases hi
  have hjob : ∀ k j, S.jobs.get? k = some j → (S.jobs.set job.jobId.value job).get? k = some j := by
    intro k j hj
    rw [Dict.get?_set_ne, hj]
    rintro rfl
    rw [hnewJob] at hj
    cases hj
  have hjobCases : ∀ {k j}, (S.jobs.set job.jobId.value job).get? k = some j →
      k = job.jobId.value ∧ j = job ∨ S.jobs.get? k = some j := by
    intro k j hj
    by_cases hk : k = job.jobId.value
    · rw [hk, Dict.get?_set_self] at hj
      exact Or.inl ⟨hk, (Option.some.inj hj).symm⟩
    · rw [Dict.get?_set_ne _ _ hk] at hj
      exact Or.inr hj
  exact {
    investigationsKeyed := hlife.investigationsKeyed.set rfl
    jobsKeyed := hlife.jobsKeyed.set rfl
    attemptsKeyed := hlife.attemptsKeyed
    reportsKeyed := hlife.reportsKeyed
    investigationsDrawn := by
      intro k i hi
      by_cases hk : k = record.investigationId.value
      · simp [hk]
      · exact hmono (hlife.investigationsDrawn k i ((Dict.get?_set_ne _ _ hk).symm.trans hi))
    jobsDrawn := by
      intro k j hj
      rcases hjobCases hj with ⟨rfl, -⟩ | hj
      · simp
      · exact hmono (hlife.jobsDrawn k j hj)
    attemptsDrawn := fun k a ha => hmono (hlife.attemptsDrawn k a ha)
    job := by
      intro k i hi
      by_cases hk : k = record.investigationId.value
      · rw [show (CreateInvestigation.createdStore S record job event).investigations.get? k =
          some record by rw [hk]; exact Dict.get?_set_self _ _ _] at hi
        obtain rfl := Option.some.inj hi
        exact ⟨_, job, Dict.get?_set_self _ _ _, hid⟩
      · obtain ⟨k', j, hj, hji⟩ := hlife.job k i ((Dict.get?_set_ne _ _ hk).symm.trans hi)
        exact ⟨k', j, hjob k' j hj, hji⟩
    phase := by
      intro k j hj
      rcases hjobCases hj with ⟨rfl, rfl⟩ | hj
      · refine ⟨record, by rw [hid]; exact Dict.get?_set_self _ _ _, htenant.symm, ?_⟩
        rw [hpending, hqueued, hcount, hid]
        rw [show (CreateInvestigation.createdStore S record j event).reports.get?
          record.investigationId.value = none from hnoReport]
        exact .pending
      · obtain ⟨i, hi, hrest⟩ := hlife.phase k j hj
        exact ⟨i, hinvestigation _ i hi, hrest⟩
    oneJob := by
      intro k k' j j' hj hj' heq
      rcases hjobCases hj with ⟨rfl, rfl⟩ | hold
      · rcases hjobCases hj' with ⟨rfl, -⟩ | hold'
        · rfl
        · exact absurd (heq.symm.trans hid) (hnoJob _ _ hold')
      · rcases hjobCases hj' with ⟨rfl, rfl⟩ | hold'
        · exact absurd (heq.trans hid) (hnoJob _ _ hold)
        · exact hlife.oneJob _ _ _ _ hold hold' heq
    attempt := by
      intro k a ha
      obtain ⟨j, hj, hrest⟩ := hlife.attempt k a ha
      exact ⟨j, hjob _ j hj, hrest⟩
    numbered := by
      intro k j hj n hn
      rcases hjobCases hj with ⟨rfl, rfl⟩ | hj
      · rw [hcount] at hn
        exact absurd n.pos (by omega)
      · exact hlife.numbered k j hj n hn
    oneAttempt := hlife.oneAttempt
    reported := by
      intro k r hr
      obtain ⟨i, hi, hrest⟩ := hlife.reported k r hr
      exact ⟨i, hinvestigation k i hi, hrest⟩ }

end advance

/-! ### Rows that stay -/

/-- The rows of an investigation and its job are the same in both stores. -/
structure SameRows (S S' : Store) (id : InvestigationId) (jobId : JobId) : Prop where
  investigation : S'.investigations.get? id.value = S.investigations.get? id.value
  job : S'.jobs.get? jobId.value = S.jobs.get? jobId.value
  report : S'.reports.get? id.value = S.reports.get? id.value
  attempts : ∀ k a, a.jobId = jobId → (S'.attempts.get? k = some a ↔ S.attempts.get? k = some a)

theorem SameRows.refl (S : Store) (id : InvestigationId) (jobId : JobId) : SameRows S S id jobId :=
  ⟨rfl, rfl, rfl, fun _ _ _ => Iff.rfl⟩

theorem SameRows.trans {S S' S'' : Store} {id : InvestigationId} {jobId : JobId}
    (h : SameRows S S' id jobId) (h' : SameRows S' S'' id jobId) : SameRows S S'' id jobId where
  investigation := h'.investigation.trans h.investigation
  job := h'.job.trans h.job
  report := h'.report.trans h.report
  attempts k a ha := (h'.attempts k a ha).trans (h.attempts k a ha)

/-- An attempt of one job leaves the rows of every other investigation. -/
theorem sameRows_of_advance {S S' : Store} {j j' : JobRecord} {i i' : InvestigationRecord}
    {a : AttemptRecord} (h : Advance S S' j j' i i' a) {id : InvestigationId} {jobId : JobId}
    (hid : id ≠ j.investigationId) (hjob : jobId ≠ j.jobId)
    (hfresh : S.attempts.get? a.attemptId.value = none) : SameRows S S' id jobId := by
  obtain ⟨hjobs, hinvestigations, hreports, hattempts⟩ := h.other
  refine ⟨hinvestigations _ ?_, hjobs _ ?_, hreports _ ?_, ?_⟩
  · exact fun heq => hid (InvestigationId.ext heq)
  · exact fun heq => hjob (JobId.ext heq)
  · exact fun heq => hid (InvestigationId.ext heq)
  · intro k x hx
    by_cases hk : k = a.attemptId.value
    · rw [hk, h.attempts, Dict.get?_set_self, hfresh]
      constructor
      · intro heq
        obtain rfl := Option.some.inj heq
        exact absurd (hx.symm.trans h.attempt.1) hjob
      · intro heq
        cases heq
    · rw [hattempts k hk]

/-! ### Every call keeps the invariant -/

section calls
variable {F : Type} [PyFloat F] [FloatHex F] [Sha256] {w : Worker F} {env : Environment F}
  {S T : Tracked F} {drawn ids : List UUID}

omit [FloatHex F] [Sha256] in
/-- A job that can be claimed is queued, its investigation is the tenant's and not over, and
    there is no report. -/
theorem Claim.alive (c : Claim w env S.store) (hlife : Lifecycle S.store drawn) :
    S.store.jobs.get? c.job.jobId.value = some c.job ∧ c.job.status = .queued ∧
      ∃ i, S.store.investigations.get? c.job.investigationId.value = some i ∧
        i.tenant = c.job.tenant ∧ ¬ i.status.Over ∧ i.status ≠ .cancelled ∧
        S.store.reports.get? c.job.investigationId.value = none := by
  have hmem : c.job ∈ JobQueue.eligible S.store (env.clock 0) := by
    rw [c.first]
    exact List.mem_cons_self
  unfold JobQueue.eligible at hmem
  rw [mem_sortedOn, List.mem_filter] at hmem
  obtain ⟨hmem, hclaimable⟩ := hmem
  have hget := hlife.jobsKeyed.get?_of_mem hmem
  obtain ⟨i, hi, htenant, hphase⟩ := hlife.phase _ _ hget
  have hqueued : c.job.status = .queued := by
    rcases hphase.status with hstatus | hstatus | hstatus
    · exact hstatus
    · simp [JobQueue.claimable, hstatus] at hclaimable
    · simp [JobQueue.claimable, hstatus] at hclaimable
  rw [hqueued] at hphase
  obtain ⟨hover, hcancelled, hreport⟩ := hphase.not_over
  exact ⟨hget, hqueued, i, hi, htenant, hover, hcancelled, hreport⟩

/-- What a call does to the job it claims: it succeeds, fails or waits again. -/
theorem advance_of_effect (hlife : Lifecycle S.store drawn) (h : w.Effect env S true T ids) :
    ∃ (c : Claim w env S.store) (j' : JobRecord) (i i' : InvestigationRecord) (a : AttemptRecord),
      Advance S.store T.store c.job j' i i' a ∧ ids = [a.attemptId.value] := by
  cases h with
  | orphaned c t hnone =>
    -- a queued job has its investigation
    obtain ⟨-, -, i, hi, htenant, -⟩ := c.alive hlife
    rw [InvestigationRepository.find?_eq_some.mpr ⟨hi, htenant⟩] at hnone
    cases hnone
  | cancelled c i t hfind hstatus =>
    -- no step of a run cancels an investigation
    obtain ⟨-, -, i', hi, htenant, -, hne, -⟩ := c.alive hlife
    rw [InvestigationRepository.find?_eq_some.mpr ⟨hi, htenant⟩] at hfind
    obtain rfl := Option.some.inj hfind
    exact absurd hstatus hne
  | succeeded c i p rows report t t' hfind hstatus hmade hrows hreport hnone hdup =>
    obtain ⟨hjob, hqueued, -⟩ := c.alive hlife
    obtain ⟨hi, htenant⟩ := InvestigationRepository.find?_eq_some.mp hfind
    have hid : i.investigationId = c.job.investigationId :=
      InvestigationId.ext (hlife.investigationsKeyed _ _ hi).symm
    refine ⟨c, c.row.withStatus .succeeded t', i, i.withStatus .succeeded t,
      w.attemptRow env c.claimed (env.clock 1) 3 .succeeded none, ?_, rfl⟩
    exact {
      job := hjob
      queued := hqueued
      investigation := hi
      jobs := rfl
      sameJob := ⟨rfl, rfl, rfl⟩
      count := rfl
      investigations := by
        rw [← hid]
        rfl
      sameInvestigation := ⟨rfl, rfl⟩
      attempts := rfl
      attempt := ⟨rfl, rfl, rfl, congrArg some (attemptOutcome_succeeded rfl rfl).symm⟩
      reports := Or.inr ⟨report, by rw [← hid]; rfl, hreport.1.trans hid, hreport.2.1.trans htenant⟩
      phase := by
        rw [← hid, show (w.succeededStore env S.store c.claimed (env.clock 1)
          (i.withStatus .succeeded t) (c.row.withStatus .succeeded t') rows report (env.clock 2)
          3).reports.get? i.investigationId.value = some report from Dict.get?_set_self _ _ _]
        exact .succeeded _ report }
  | failed c i e n store code t t' hfind hstatus hends hexception hterminal hcode hdup =>
    obtain ⟨hjob, hqueued, i', hi', htenant', -, -, hreport⟩ := c.alive hlife
    obtain ⟨hi, htenant⟩ := InvestigationRepository.find?_eq_some.mp hfind
    obtain ⟨hinvestigations, hjobs, hattempts, hreports, -⟩ := hends.same
    refine ⟨c, c.row.withStatus .failed t', i, i.withStatus .failed t,
      w.attemptRow env c.claimed (env.clock 1) n .failed (some code), ?_, rfl⟩
    exact {
      job := hjob
      queued := hqueued
      investigation := hi
      jobs := by
        rw [← hjobs]
        rfl
      sameJob := ⟨rfl, rfl, rfl⟩
      count := rfl
      investigations := by
        rw [← hinvestigations]
        rfl
      sameInvestigation := ⟨rfl, rfl⟩
      attempts := by
        rw [← hattempts]
        rfl
      attempt := ⟨rfl, rfl, rfl, congrArg some (attemptOutcome_failed rfl (nofun : JobStatus.failed ≠ .succeeded)).symm⟩
      reports := Or.inl hreports
      phase := by
        -- a failure has written no report, and there was none
        rw [show (S.withStore (w.failedStore env store c.claimed (env.clock 1) n code
          (i.withStatus .failed t) (c.row.withStatus .failed t'))).store.reports =
          S.store.reports from hreports, hreport]
        exact .failed _ }
  | retried c i code t t' hfind hstatus hprepare hleft hdup =>
    obtain ⟨hjob, hqueued, i', hi', htenant', -, -, hreport⟩ := c.alive hlife
    obtain ⟨hi, htenant⟩ := InvestigationRepository.find?_eq_some.mp hfind
    refine ⟨c, c.row.withStatus .queued t', i, i.withStatus .running t,
      w.attemptRow env c.claimed (env.clock 1) 2 .failed (some code), ?_, rfl⟩
    exact {
      job := hjob
      queued := hqueued
      investigation := hi
      jobs := rfl
      sameJob := ⟨rfl, rfl, rfl⟩
      count := rfl
      investigations := rfl
      sameInvestigation := ⟨rfl, rfl⟩
      attempts := rfl
      attempt := ⟨rfl, rfl, rfl, congrArg some (attemptOutcome_failed rfl (nofun : JobStatus.queued ≠ .succeeded)).symm⟩
      reports := Or.inl rfl
      phase := by
        rw [show (S.withStore (w.retriedStore env S.store c.claimed (env.clock 1) 2 code
          (i.withStatus .running t) (c.row.withStatus .queued t'))).store.reports =
          S.store.reports from rfl, hreport]
        exact .waiting _ (Nat.succ_le_succ (Nat.zero_le _)) }

/-- A call that has claimed nothing has changed nothing. -/
theorem eq_of_effect_false (h : w.Effect env S false T ids) : T = S := by
  cases h
  rfl

omit [PyFloat F] [FloatHex F] [Sha256] in
/-- What a creation that is no replay has written. -/
theorem created_of_effect {call : CreateCall} {id : InvestigationId} (hlife : Lifecycle S.store drawn)
    (h : CreateInvestigation.Effect call S id T ids) :
    T = S ∨ ∃ record job, Lifecycle T.store (drawn ++ ids) ∧
      S.store.investigations.get? record.investigationId.value = none ∧
      S.store.jobs.get? job.jobId.value = none ∧
      T = S.withStore (CreateInvestigation.createdStore S.store record job call.event) := by
  cases h with
  | replayed record existing hrecord hkey => exact Or.inl rfl
  | created record job hrecord hjob hkey hnew hnewJob =>
    right
    obtain ⟨-, hr⟩ := CreateInvestigation.investigationRecord_eq_ok.mp hrecord
    obtain ⟨-, hj⟩ := CreateInvestigation.jobRecord_eq_ok.mp hjob
    refine ⟨record, job, ?_, hnew, hnewJob, rfl⟩
    have hrecordId : record.investigationId = call.investigationId := by rw [hr]
    have hjobId : job.jobId = call.jobId := by rw [hj]
    rw [← hrecordId, ← hjobId]
    exact hlife.created (by rw [hr]) (by rw [hj]) (by rw [hj]) (by rw [hj, hr]) (by rw [hj, hr])
      hnew hnewJob

variable [LawfulPyFloat F]

omit [LawfulPyFloat F] in
/-- **What a call commits keeps the invariant.** -/
theorem lifecycle_commits {c : Call F} (hlife : Lifecycle S.store drawn)
    (hnodup : (drawn ++ ids).Nodup) (h : Commits S c T ids) : Lifecycle T.store (drawn ++ ids) := by
  have hmono : Lifecycle S.store (drawn ++ ids) := hlife.mono (List.subset_append_left _ _)
  cases h with
  | nothing => exact hmono
  | created call env id _ _ heffect =>
    rcases created_of_effect hlife heffect with rfl | ⟨_, _, hcreated, -⟩
    · exact hmono
    · exact hcreated
  | ran worker env r _ _ heffect =>
    cases r with
    | false =>
      obtain rfl := eq_of_effect_false heffect
      exact hmono
    | true =>
      obtain ⟨claim, j', i, i', a, hadvance, rfl⟩ := advance_of_effect hlife heffect
      apply hlife.advance hadvance
      intro hmem
      exact List.disjoint_of_nodup_append hnodup hmem List.mem_cons_self

theorem lifecycle_step {s s' : Service F} {c : Call F} (hlife : Lifecycle s.committed.store s.drawn)
    (hstep : Service.step s c s') : Lifecycle s'.committed.store s'.drawn := by
  obtain ⟨ids, hdrawn, hnodup, hcommits⟩ :=
    commits_of_step hlife.investigationsKeyed hlife.investigationsDrawn hstep
  rw [hdrawn]
  exact lifecycle_commits hlife hnodup hcommits

theorem lifecycle_reachable {s : Service F} (h : Reachable (Service.system F) s) :
    Lifecycle s.committed.store s.drawn :=
  h.invariant (P := fun s => Lifecycle s.committed.store s.drawn)
    (fun s (hinit : (Service.system F).init s) => by
      obtain rfl : s = ⟨Tracked.empty, []⟩ := hinit
      exact lifecycle_empty)
    fun _ _ _ hlife hstep => lifecycle_step hlife hstep

/-! ### What is over stays as it is -/

omit [LawfulPyFloat F] in
/-- **One call changes nothing of an investigation that is over.** -/
theorem over_commits {c : Call F} (hlife : Lifecycle S.store drawn) (hnodup : (drawn ++ ids).Nodup)
    (h : Commits S c T ids) {i : InvestigationRecord} {j : JobRecord}
    (hi : S.store.investigations.get? i.investigationId.value = some i) (hover : i.status.Over)
    (hj : S.store.jobs.get? j.jobId.value = some j) (hji : j.investigationId = i.investigationId) :
    SameRows S.store T.store i.investigationId j.jobId := by
  cases h with
  | nothing => exact SameRows.refl _ _ _
  | created call env id _ _ heffect =>
    rcases created_of_effect hlife heffect with rfl | ⟨record, job, -, hnew, hnewJob, rfl⟩
    · exact SameRows.refl _ _ _
    · refine ⟨Dict.get?_set_ne _ _ ?_, Dict.get?_set_ne _ _ ?_, rfl, fun _ _ _ => Iff.rfl⟩
      · intro heq
        rw [← heq, hi] at hnew
        cases hnew
      · intro heq
        rw [← heq, hj] at hnewJob
        cases hnewJob
  | ran worker env r _ _ heffect =>
    cases r with
    | false =>
      obtain rfl := eq_of_effect_false heffect
      exact SameRows.refl _ _ _
    | true =>
      obtain ⟨claim, j', i₀, i', a, hadvance, rfl⟩ := advance_of_effect hlife heffect
      -- the job that was claimed belongs to an investigation that is not over
      obtain ⟨hclaimed, -, i₁, hi₁, -, halive, -⟩ := claim.alive hlife
      have hid : i.investigationId ≠ claim.job.investigationId := by
        intro heq
        rw [← heq, hi] at hi₁
        obtain rfl := Option.some.inj hi₁
        exact halive hover
      refine sameRows_of_advance hadvance hid ?_ ?_
      · intro heq
        rw [heq, hclaimed] at hj
        obtain rfl := Option.some.inj hj
        exact hid hji.symm
      · cases hget : S.store.attempts.get? a.attemptId.value with
        | none => rfl
        | some x =>
          exact absurd List.mem_cons_self
            (List.disjoint_of_nodup_append hnodup (hlife.attemptsDrawn _ _ hget))

/-- And neither does a run. -/
theorem over_run {s s' : Service F} {cs : List (Call F)} (hlife : Lifecycle s.committed.store s.drawn)
    (hrun : Run (Service.system F) s cs s') {i : InvestigationRecord} {j : JobRecord}
    (hi : s.committed.store.investigations.get? i.investigationId.value = some i)
    (hover : i.status.Over) (hj : s.committed.store.jobs.get? j.jobId.value = some j)
    (hji : j.investigationId = i.investigationId) :
    SameRows s.committed.store s'.committed.store i.investigationId j.jobId := by
  induction hrun with
  | nil => exact SameRows.refl _ _ _
  | cons hstep hrest ih =>
    obtain ⟨ids, -, hnodup, hcommits⟩ :=
      commits_of_step hlife.investigationsKeyed hlife.investigationsDrawn hstep
    have hone := over_commits hlife hnodup hcommits hi hover hj hji
    exact hone.trans (ih (lifecycle_step hlife hstep) (hone.investigation.trans hi)
      (hone.job.trans hj))

end calls

/-! ### The life of a job -/

/-- An investigation, its one job, and the rows that belong to them. -/
structure Lives (S : Store) (i : InvestigationRecord) (j : JobRecord) : Prop where
  job : S.jobs.values.filter (fun j => j.investigationId = i.investigationId) = [j]
  tenant : j.tenant = i.tenant
  phase : ∃ report : Option ReportRecord,
    S.reports.values.filter (fun r => r.investigationId = i.investigationId) = report.toList ∧
    Phase i.status j.status j.attemptCount report
  numbers : (AttemptRepository.listForJob S j.tenant j.jobId).map (fun a => (a.attemptNumber : ℕ)) =
    List.range' 1 j.attemptCount
  attempts : ∀ a ∈ S.attempts.values, a.jobId = j.jobId →
    a ∈ AttemptRepository.listForJob S j.tenant j.jobId ∧
      a.outcome = some (attemptOutcome j a.attemptNumber)

section lives
variable {S : Store} {drawn : List UUID}

theorem mem_listForJob {tenant : TenantId} {jobId : JobId} {a : AttemptRecord} :
    a ∈ AttemptRepository.listForJob S tenant jobId ↔
      a ∈ S.attempts.values ∧ a.tenant = tenant ∧ a.jobId = jobId := by
  unfold AttemptRepository.listForJob
  rw [mem_sortedOn, List.mem_filter, decide_eq_true_iff]

/-- Two increasing lists of numbers with the same members are equal. -/
theorem increasing_ext {l l' : List ℕ} (h : l.Pairwise (· < ·)) (h' : l'.Pairwise (· < ·))
    (hmem : ∀ n, n ∈ l ↔ n ∈ l') : l = l' := by
  have hperm : l.Perm l' :=
    (List.perm_ext_iff_of_nodup (h.imp Nat.ne_of_lt) (h'.imp Nat.ne_of_lt)).mpr hmem
  exact hperm.eq_of_pairwise (fun _ _ _ _ hab hba => absurd hab (Nat.lt_asymm hba)) h h'

theorem Lifecycle.numbers (h : Lifecycle S drawn) {j : JobRecord}
    (hj : S.jobs.get? j.jobId.value = some j) :
    (AttemptRepository.listForJob S j.tenant j.jobId).map (fun a => (a.attemptNumber : ℕ)) =
      List.range' 1 j.attemptCount := by
  have hsame : ∀ a ∈ S.attempts.values, ∀ b ∈ S.attempts.values, a.jobId = j.jobId →
      b.jobId = j.jobId → a.attemptNumber = b.attemptNumber → a = b := by
    intro a ha b hb haJob hbJob hnumber
    obtain ⟨k, hk⟩ := Dict.mem_values.mp ha
    obtain ⟨k', hk'⟩ := Dict.mem_values.mp hb
    obtain rfl := h.oneAttempt k k' a b hk hk' (haJob.trans hbJob.symm) hnumber
    exact Option.some.inj (hk.symm.trans hk')
  have hnodup : ((S.attempts.values.filter fun a => a.tenant = j.tenant ∧ a.jobId = j.jobId).map
      fun a => a.attemptNumber).Nodup := by
    apply List.Nodup.map_on _ (h.attemptsKeyed.nodup_values.filter _)
    intro a ha b hb hnumber
    obtain ⟨ha, haOf⟩ := List.mem_filter.mp ha
    obtain ⟨hb, hbOf⟩ := List.mem_filter.mp hb
    exact hsame a ha b hb (of_decide_eq_true haOf).2 (of_decide_eq_true hbOf).2 hnumber
  -- two increasing lists with the same members are one
  apply increasing_ext
  · have hstrict : (AttemptRepository.listForJob S j.tenant j.jobId).Pairwise fun a b =>
        a.attemptNumber < b.attemptNumber := strict_sortedOn hnodup
    exact List.pairwise_map.mpr (hstrict.imp fun hab => PNat.coe_lt_coe _ _ |>.mpr hab)
  · exact List.pairwise_lt_range'
  · intro n
    rw [List.mem_map, List.mem_range'_1]
    constructor
    · rintro ⟨a, ha, rfl⟩
      obtain ⟨ha, -, haJob⟩ := mem_listForJob.mp ha
      obtain ⟨k, hk⟩ := Dict.mem_values.mp ha
      obtain ⟨x, hx, -, hle, -⟩ := h.attempt k a hk
      rw [haJob, hj] at hx
      obtain rfl := Option.some.inj hx
      exact ⟨a.attemptNumber.pos, by omega⟩
    · rintro ⟨hpos, hle⟩
      obtain ⟨k, a, ha, haJob, haNumber⟩ := h.numbered _ j hj ⟨n, hpos⟩ (by simp; omega)
      obtain ⟨x, hx, hxTenant, -, -⟩ := h.attempt k a ha
      rw [haJob, hj] at hx
      obtain rfl := Option.some.inj hx
      exact ⟨a, mem_listForJob.mpr ⟨Dict.mem_values.mpr ⟨k, ha⟩, hxTenant.symm, haJob⟩,
        by rw [haNumber]; rfl⟩

/-- Every investigation lives. -/
theorem Lifecycle.lives (h : Lifecycle S drawn) {i : InvestigationRecord}
    (hi : i ∈ S.investigations.values) : ∃ j, Lives S i j := by
  have hget := h.investigationsKeyed.get?_of_mem hi
  obtain ⟨k, j, hk, hji⟩ := h.job _ i hget
  obtain rfl : k = j.jobId.value := h.jobsKeyed k j hk
  obtain ⟨x, hx, hxTenant, hphase⟩ := h.phase _ j hk
  rw [hji, hget] at hx
  obtain rfl := Option.some.inj hx
  refine ⟨j, ?_, hxTenant.symm, ?_, h.numbers hk, ?_⟩
  · apply Dict.filter_eq_singleton h.jobsKeyed.nodup_values (Dict.mem_values.mpr ⟨_, hk⟩)
    · exact decide_eq_true hji
    · intro y hy hyOf
      have hget := h.jobsKeyed.get?_of_mem hy
      have hkey := h.oneJob _ _ y j hget hk ((of_decide_eq_true hyOf).trans hji.symm)
      rw [hkey, hk] at hget
      exact (Option.some.inj hget).symm
  · refine ⟨S.reports.get? j.investigationId.value, ?_, hphase⟩
    rw [hji, ← h.reportsKeyed.filter_eq]
    apply List.filter_congr
    intro r _
    rw [decide_eq_decide]
    exact ⟨fun heq => congrArg InvestigationId.value heq, fun heq => InvestigationId.ext heq⟩
  · intro a ha haJob
    obtain ⟨k, hka⟩ := Dict.mem_values.mp ha
    obtain ⟨y, hy, hyTenant, -, hout⟩ := h.attempt k a hka
    rw [haJob, hk] at hy
    obtain rfl := Option.some.inj hy
    exact ⟨mem_listForJob.mpr ⟨ha, hyTenant.symm, haJob⟩, hout⟩

end lives

/-- **The life of a job.** In every committed store of a run:
    - each investigation has exactly one job, of the same tenant; statuses, number of
      attempts and report are those of a `Phase`, and the attempts of the job are numbered
      from one on, failed except for the last one of a job that succeeded;
    - every job belongs to an investigation, and none is claimed or running;
    - the rows of an investigation that succeeded or failed are the same ever after. -/
theorem job_lifecycle {F : Type} [PyFloat F] [LawfulPyFloat F] [FloatHex F] [Sha256] {s : Service F}
    (h : Reachable (Service.system F) s) :
    (∀ i ∈ s.committed.store.investigations.values, ∃ j, Lives s.committed.store i j) ∧
      (∀ j ∈ s.committed.store.jobs.values,
        (∃ i ∈ s.committed.store.investigations.values, i.investigationId = j.investigationId) ∧
          j.status ≠ .claimed ∧ j.status ≠ .running) ∧
      ∀ cs s', Run (Service.system F) s cs s' → ∀ i ∈ s.committed.store.investigations.values,
        i.status.Over → ∀ j, Lives s.committed.store i j →
          SameRows s.committed.store s'.committed.store i.investigationId j.jobId := by
  have hlife := lifecycle_reachable h
  refine ⟨fun i hi => hlife.lives hi, ?_, ?_⟩
  · intro j hj
    have hget := hlife.jobsKeyed.get?_of_mem hj
    obtain ⟨i, hi, -, hphase⟩ := hlife.phase _ j hget
    refine ⟨⟨i, Dict.mem_values.mpr ⟨_, hi⟩, ?_⟩, ?_⟩
    · exact InvestigationId.ext (hlife.investigationsKeyed _ i hi).symm
    · rcases hphase.status with hstatus | hstatus | hstatus <;> rw [hstatus] <;> decide
  · intro cs s' hrun i hi hover j hlives
    have hmem : j ∈ s.committed.store.jobs.values.filter
        (fun j => j.investigationId = i.investigationId) := by
      rw [hlives.job]
      exact List.mem_cons_self
    obtain ⟨hj, hji⟩ := List.mem_filter.mp hmem
    exact over_run hlife hrun (hlife.investigationsKeyed.get?_of_mem hi) hover
      (hlife.jobsKeyed.get?_of_mem hj) (of_decide_eq_true hji)

open Demo in
/-- An investigation that failed for want of telemetry, for good. -/
theorem job_lifecycle_demo :
    failedService.committed.store.investigations.values.map (·.status) = [.failed] ∧
      (∀ j ∈ failedService.committed.store.jobs.values,
        (∃ i ∈ failedService.committed.store.investigations.values,
          i.investigationId = j.investigationId) ∧ j.status ≠ .claimed ∧ j.status ≠ .running) ∧
      ∀ i ∈ failedService.committed.store.investigations.values,
        ∃ j, Lives failedService.committed.store i j ∧
          ∀ cs s', Run (Service.system ExactFloat) failedService cs s' →
            SameRows failedService.committed.store s'.committed.store i.investigationId j.jobId := by
  have hfailed : failedService.committed.store.investigations.values.map (·.status) = [.failed] := by
    decide +kernel
  obtain ⟨hlives, hjobs, hover⟩ := job_lifecycle ⟨_, _, rfl, failingRun_run⟩
  refine ⟨hfailed, hjobs, ?_⟩
  intro i hi
  obtain ⟨j, hj⟩ := hlives i hi
  have hstatus : i.status ∈ [InvestigationStatus.failed] := hfailed ▸ List.mem_map_of_mem hi
  exact ⟨j, hj, fun cs s' hrun => hover cs s' hrun i hi (Or.inr (List.mem_singleton.mp hstatus)) j hj⟩

end IncidentEvidence
