import IncidentEvidence.Persistence.UnitOfWork

/-! # Rows are filed under their ids

    A store that repository methods have made of the empty one (`Store.Made`) has
    each row under the key the row itself carries (`Store.Filed`).
-/

namespace IncidentEvidence

open Py Py.Action

/-- Every row is stored under its own key. -/
structure Store.Filed (s : Store) : Prop where
  investigations : s.investigations.Keyed fun r => r.investigationId.value
  jobs : s.jobs.Keyed fun r => r.jobId.value
  attempts : s.attempts.Keyed fun r => r.attemptId.value
  evidence : s.evidence.Keyed EvidenceRepository.key
  reports : s.reports.Keyed fun r => r.investigationId.value

/-- What the operations make of a store, one after another. -/
def Operation.runAll (ops : List Operation) (s : Store) : Store :=
  ops.foldl (fun s op => (op.run s).2) s

/-- Repository methods have made the store. -/
def Store.Made (s : Store) : Prop := ∃ ops, s = Operation.runAll ops Store.empty

theorem Store.filed_empty : Store.empty.Filed where
  investigations := Dict.keyed_empty _
  jobs := Dict.keyed_empty _
  attempts := Dict.keyed_empty _
  evidence := Dict.keyed_empty _
  reports := Dict.keyed_empty _

section filed
variable {s : Store}

theorem keyed_appended {table : Dict EvidenceKey EvidenceRecord} {records : List EvidenceRecord}
    (h : table.Keyed EvidenceRepository.key) :
    (EvidenceRepository.appended table records).Keyed EvidenceRepository.key := by
  induction records generalizing table with
  | nil => exact h
  | cons r rs ih =>
    unfold EvidenceRepository.appended
    by_cases hsome : (table.get? (EvidenceRepository.key r)).isSome = true
    · rw [if_pos hsome]
      exact ih h
    · rw [if_neg hsome]
      exact ih (h.set rfl)

theorem Store.Filed.setInvestigation (h : s.Filed) {tenant : TenantId} {id : InvestigationId}
    {record : InvestigationRecord} (hfind : InvestigationRepository.find? s tenant id = some record)
    (status : InvestigationStatus) (now : Datetime) :
    (s.investigations.set id.value (record.withStatus status now)).Keyed
      fun r => r.investigationId.value := by
  obtain ⟨hget, -⟩ := InvestigationRepository.find?_eq_some.mp hfind
  have hkey : id.value = record.investigationId.value := h.investigations _ _ hget
  exact h.investigations.set hkey

theorem Store.Filed.setJob (h : s.Filed) {tenant : TenantId} {id : JobId} {record : JobRecord}
    (hfind : JobQueue.find? s tenant id = some record) (status : JobStatus) (now : Datetime) :
    (s.jobs.set id.value (record.withStatus status now)).Keyed fun r => r.jobId.value := by
  obtain ⟨hget, -⟩ := JobQueue.find?_eq_some.mp hfind
  have hkey : id.value = record.jobId.value := h.jobs _ _ hget
  exact h.jobs.set hkey

/-- One operation keeps the rows filed. -/
theorem Store.Filed.run (h : s.Filed) (op : Operation) : (op.run s).2.Filed := by
  unfold Operation.run
  -- a method refuses, or it sets rows under their own keys
  cases op with
  | investigationsCreate record =>
    simp only [Operation.body, exec_map, InvestigationRepository.create_exec]
    cases InvestigationRepository.byKey s record.tenant record.idempotencyKey with
    | some existing => exact h
    | none =>
      by_cases hsome : (s.investigations.get? record.investigationId.value).isSome = true
      · simp only [if_pos hsome]
        exact h
      · simp only [if_neg hsome]
        exact { h with investigations := h.investigations.set rfl }
  | investigationsGet tenant id =>
    simp only [Operation.body, exec_map, InvestigationRepository.get_exec]
    cases InvestigationRepository.find? s tenant id <;> exact h
  | investigationsSetStatus tenant id status now =>
    simp only [Operation.body, exec_map, InvestigationRepository.setStatus_exec]
    cases hfind : InvestigationRepository.find? s tenant id with
    | none => exact h
    | some record => exact { h with investigations := h.setInvestigation hfind status now }
  | jobsEnqueue record =>
    simp only [Operation.body, exec_map, JobQueue.enqueue_exec]
    by_cases hsome : (s.jobs.get? record.jobId.value).isSome = true
    · simp only [if_pos hsome]
      exact h
    · simp only [if_neg hsome]
      exact { h with jobs := h.jobs.set rfl }
  | jobsClaim workerId lease moment =>
    simp only [Operation.body, exec_map]
    cases hworker : checkText workerId with
    | error e =>
      unfold JobQueue.claim
      rw [hworker]
      exact h
    | ok text =>
      obtain rfl := checkText_eq_ok.mp hworker
      rw [JobQueue.claim_exec]
      cases JobQueue.eligible s moment with
      | nil => exact h
      | cons job rest =>
        cases moment.add lease with
        | none => exact h
        | some expiry => exact { h with jobs := h.jobs.set rfl }
  | jobsGet tenant id =>
    simp only [Operation.body, exec_map, JobQueue.get_exec]
    cases JobQueue.find? s tenant id <;> exact h
  | jobsSetStatus tenant id status now =>
    simp only [Operation.body, exec_map, JobQueue.setStatus_exec]
    cases hfind : JobQueue.find? s tenant id with
    | none => exact h
    | some record => exact { h with jobs := h.setJob hfind status now }
  | attemptsRecord record =>
    simp only [Operation.body, exec_map, AttemptRepository.record_exec]
    by_cases hdup : AttemptRepository.duplicate s record = true
    · simp only [if_pos hdup]
      exact h
    · simp only [if_neg hdup]
      exact { h with attempts := h.attempts.set rfl }
  | evidenceAppend records =>
    obtain ⟨stored, hstored⟩ := EvidenceRepository.append_exec records s
    simp only [Operation.body, exec_map, hstored]
    exact { h with evidence := keyed_appended h.evidence }
  | reportsPut record =>
    simp only [Operation.body, exec_map, ReportRepository.put_exec]
    by_cases hsome : (s.reports.get? record.investigationId.value).isSome = true
    · simp only [if_pos hsome]
      exact h
    · simp only [if_neg hsome]
      exact { h with reports := h.reports.set rfl }
  | reportsGet tenant id =>
    simp only [Operation.body, exec_map, ReportRepository.get_exec]
    cases ReportRepository.find? s tenant id <;> exact h
  | auditRecord record => exact { h with }
  | attemptsList | evidenceList | auditList => exact h

theorem Store.Filed.runAll (h : s.Filed) (ops : List Operation) : (Operation.runAll ops s).Filed := by
  induction ops generalizing s with
  | nil => exact h
  | cons op ops ih => exact ih (h.run op)

/-- **Repository methods keep every row under its own key.** -/
theorem Store.Made.filed (h : s.Made) : s.Filed := by
  obtain ⟨ops, rfl⟩ := h
  exact Store.filed_empty.runAll ops

end filed

end IncidentEvidence
