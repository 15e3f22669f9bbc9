import IncidentEvidence.Application.WorkerSpecs

/-! # Use cases

    `application/use_cases.py` over a unit of work, and what a call of
    `CreateInvestigation.execute` commits to the in-memory store
    (`CreateInvestigation.Effect`, `execute_effect`).
-/

namespace IncidentEvidence

open Py Py.Action

section usecases
variable {F : Type} (backend : Backend) (env : Surroundings)

/-- `CreateInvestigation.execute`. -/
def CreateInvestigation.execute (call : CreateCall) :
    Action PyException (Session F) InvestigationId := do
  let _ ← drawId call.investigationId.value
  scope env do
    let record ← lift call.investigation
    let stored ← statement backend env (onStore (InvestigationRepository.create record))
    -- an idempotent replay returns the existing record and enqueues nothing
    if stored.investigationId = call.investigationId then
      let _ ← drawId call.jobId.value
      let job ← lift call.job
      let _ ← statement backend env (onStore (JobQueue.enqueue job))
      recordAudit backend env call.event
    commit backend env
    return stored.investigationId

/-- `GetInvestigationStatus.execute`. -/
def GetInvestigationStatus.execute (tenant : TenantId) (investigationId : InvestigationId) :
    Action PyException (Session F) InvestigationRecord :=
  scope env do
    match ← (getInvestigation backend env tenant investigationId).attempt with
    | .ok record => return record
    | .error (.persistence .recordNotFound) => throw (.application .investigationNotFound)
    | .error e => throw e

/-- `GetReport.execute`. -/
def GetReport.execute (tenant : TenantId) (investigationId : InvestigationId) :
    Action PyException (Session F) ReportRecord :=
  scope env do
    match ← (getInvestigation backend env tenant investigationId).attempt with
    | .ok _ =>
      match ← (statement backend env
        (onStore (ReportRepository.get tenant investigationId))).attempt with
      | .ok report => return report
      | .error (.persistence .recordNotFound) => throw (.application .reportNotReady)
      | .error e => throw e
    | .error (.persistence .recordNotFound) => throw (.application .investigationNotFound)
    | .error e => throw e

end usecases

/-! ### What a creation commits -/

section effect
variable {F : Type}

namespace CreateInvestigation

/-- The tables after an investigation was created. -/
def createdStore (store : Store) (investigation : InvestigationRecord) (job : JobRecord)
    (event : AuditRecord) : Store :=
  { store with
    investigations := store.investigations.set investigation.investigationId.value investigation
    jobs := store.jobs.set job.jobId.value job
    audit := store.audit ++ [event] }

/-- What a call that returns has committed, and the ids it drew. -/
inductive Effect (call : CreateCall) (S : Tracked F) : InvestigationId → Tracked F → List UUID → Prop where
  | replayed (record existing : InvestigationRecord) (hrecord : call.investigation = .ok record)
      (hkey : InvestigationRepository.byKey S.store record.tenant record.idempotencyKey =
        some existing) :
      Effect call S existing.investigationId S [call.investigationId.value]
  | created (record : InvestigationRecord) (job : JobRecord)
      (hrecord : call.investigation = .ok record) (hjob : call.job = .ok job)
      (hkey : InvestigationRepository.byKey S.store record.tenant record.idempotencyKey = none)
      (hnew : S.store.investigations.get? record.investigationId.value = none)
      (hnewJob : S.store.jobs.get? job.jobId.value = none) :
      Effect call S call.investigationId (S.withStore (createdStore S.store record job call.event))
        [call.investigationId.value, call.jobId.value]

end CreateInvestigation

variable {call : CreateCall} {env : Surroundings} {S : Tracked F}

/-- The record a call finds under its key is another call's. -/
theorem byKey_ne {store : Store} (hkeyed : store.investigations.Keyed fun r => r.investigationId.value)
    {tenant : TenantId} {key : Option Text} {existing : InvestigationRecord} {id : InvestigationId}
    (h : InvestigationRepository.byKey store tenant key = some existing)
    (hnew : store.investigations.get? id.value = none) : existing.investigationId ≠ id := by
  intro heq
  unfold InvestigationRepository.byKey at h
  cases key with
  | none => exact absurd h (by simp)
  | some key =>
    have hget := hkeyed.get?_of_mem (List.mem_of_find?_eq_some h)
    rw [heq, hnew] at hget
    exact absurd hget (by simp)

/-- **What a call of `CreateInvestigation.execute` commits** when its id is new. -/
theorem execute_effect (hkeyed : S.store.investigations.Keyed fun r => r.investigationId.value)
    (hnew : S.store.investigations.get? call.investigationId.value = none) :
    Wp (CreateInvestigation.execute .memory env call) (Session.start S)
      (fun id s' => CreateInvestigation.Effect call S id s'.shared s'.drawn)
      (fun _ s' => s'.shared = S) := by
  unfold CreateInvestigation.execute
  rw [wp_bind]
  refine wp_drawId fun s₀ h₀ => ?_
  have hdrawn : s₀.drawn = [call.investigationId.value] := h₀.drawn
  obtain rfl : S = s₀.shared := h₀.shared.symm
  refine wp_scope rfl ?_
  simp only [wp_bind]
  refine wp_liftOf (fun e _ => rfl) fun record hrecord => ?_
  have hexec := InvestigationRepository.create_exec record s₀.shared.store
  obtain ⟨-, hid⟩ := CreateCall.matches_of_ok hrecord
  cases hkey : InvestigationRepository.byKey s₀.shared.store record.tenant record.idempotencyKey with
  | some existing =>
    rw [hkey] at hexec
    -- the row is another one: the call replays it
    have hne := byKey_ne hkeyed hkey hnew
    refine wp_onStore hexec (fun _ h => h) fun s₁ h₁ => ?_
    rw [wp_ite]
    refine ⟨fun heq => absurd heq hne, fun _ => ?_⟩
    refine wp_commitReturn h₁.shared ?_
    show CreateInvestigation.Effect call s₀.shared _ s₁.working s₁.drawn
    have hworking : s₁.working = s₀.shared := h₁.working
    have hids : s₁.drawn = [call.investigationId.value] := by
      rw [h₁.drawn, List.append_nil]
      exact hdrawn
    rw [hworking, hids]
    exact .replayed record existing hrecord hkey
  | none =>
    rw [hkey] at hexec
    have hfree : ¬ (s₀.shared.store.investigations.get? record.investigationId.value).isSome = true := by
      rw [hid, hnew]
      simp
    simp only [if_neg hfree] at hexec
    refine wp_onStore hexec (fun _ h => h) fun s₁ h₁ => ?_
    rw [wp_ite]
    refine ⟨fun _ => ?_, fun hne => absurd hid hne⟩
    simp only [wp_bind]
    refine wp_drawId fun s₂ h₂ => ?_
    have h₁₂ := h₁.trans h₂
    refine wp_liftOf (fun e _ => h₁₂.shared) fun job hjob => ?_
    have henqueue := JobQueue.enqueue_exec job s₂.working.store
    have hjobs : s₂.working.store.jobs = s₀.shared.store.jobs := by
      rw [h₂.working, h₁.working]
      rfl
    by_cases htaken : (s₀.shared.store.jobs.get? job.jobId.value).isSome = true
    -- a taken job id refuses the insert, and the scope is left
    · rw [hjobs, if_pos htaken] at henqueue
      exact wp_statement_error (onStore_ok henqueue) h₁₂.shared h₁₂.shared
    · rw [hjobs, if_neg htaken] at henqueue
      refine wp_onStore henqueue (fun _ h => h.trans h₁₂.shared) fun s₃ h₃ => ?_
      have h₁₃ := h₁₂.trans h₃
      refine wp_recordAudit (fun _ h => h.trans h₁₃.shared) fun s₄ h₄ => ?_
      have h₁₄ := h₁₃.trans h₄
      refine wp_commit h₁₄.shared ?_
      rw [wp_pure, hid]
      show CreateInvestigation.Effect call s₀.shared _ s₄.working s₄.drawn
      have hworking : s₄.working = s₀.shared.withStore
          (CreateInvestigation.createdStore s₀.shared.store record job call.event) := by
        rw [h₄.working, h₃.working, h₂.working, h₁.working]
        rfl
      have hids : s₄.drawn = [call.investigationId.value, call.jobId.value] := by
        have happend : s₄.drawn = s₀.drawn ++ ([] ++ [call.jobId.value] ++ [] ++ []) := h₁₄.drawn
        rw [happend, hdrawn]
        rfl
      rw [hworking, hids]
      refine .created record job hrecord hjob hkey ?_ (Option.not_isSome_iff_eq_none.mp htaken)
      rw [hid]
      exact hnew

end effect

end IncidentEvidence
