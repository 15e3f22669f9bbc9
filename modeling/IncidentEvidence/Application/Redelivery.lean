import IncidentEvidence.Application.Service
import IncidentEvidence.Persistence.Filed
import IncidentEvidence.Persistence.SqlClaim

/-! # Redelivery

    A job of an investigation that has succeeded is claimed once more. The worker
    sets the status of the investigation before it finds the stored report, and its
    failure handler commits what was written by then: unless the investigation is
    not the job's tenant's at all, it ends as failed or running, whatever the
    telemetry source and the model do (`redelivery_keeps_iff`).
-/

namespace IncidentEvidence

open Py Py.Action

/-- What redelivery has to leave alone: the investigation has succeeded, its report is the
    same, and so is the evidence. -/
structure ResultKept (S S' : Store) (id : InvestigationId) : Prop where
  succeeded : ∃ i, S'.investigations.get? id.value = some i ∧ i.status = .succeeded
  report : S'.reports.get? id.value = S.reports.get? id.value
  evidence : S'.evidence = S.evidence

section redelivery
variable {F : Type} [PyFloat F] [FloatHex F] [Sha256] {w : Worker F} {env : Environment F}

/-- The job that is claimed belongs to an investigation that has succeeded and has a report. -/
structure Redelivered {S : Store} (claim : Claim w env S) (i : InvestigationRecord) : Prop where
  investigation : S.investigations.get? claim.job.investigationId.value = some i
  succeeded : i.status = .succeeded
  report : (S.reports.get? claim.job.investigationId.value).isSome = true

variable {S T : Tracked F} {claim : Claim w env S.store} {i : InvestigationRecord} {ids : List UUID}

omit [FloatHex F] [Sha256] in
/-- An investigation that is over is kept if the job is another tenant's. -/
theorem Redelivered.found (h : Redelivered claim i) {j : InvestigationRecord}
    (hfind : InvestigationRepository.find? S.store claim.job.tenant claim.job.investigationId =
      some j) : j = i ∧ claim.job.tenant = i.tenant := by
  obtain ⟨hget, htenant⟩ := InvestigationRepository.find?_eq_some.mp hfind
  rw [h.investigation] at hget
  obtain rfl := Option.some.inj hget
  exact ⟨rfl, htenant.symm⟩

omit [Sha256] in
/-- A store in which the row of the investigation was written over with another status. -/
theorem not_resultKept {table : Dict UUID InvestigationRecord} {S S' : Store} {id : InvestigationId}
    {i : InvestigationRecord} {status : InvestigationStatus} {t : Datetime}
    (h : S'.investigations = table.set id.value (i.withStatus status t))
    (hstatus : status ≠ .succeeded) : ¬ ResultKept S S' id := by
  intro hkept
  obtain ⟨j, hj, hsucceeded⟩ := hkept.succeeded
  rw [h, Dict.get?_set_self] at hj
  obtain rfl := Option.some.inj hj
  exact hstatus hsucceeded

/-- What a call commits that processes a job again. -/
theorem resultKept_iff_of_effect {r : Bool}
    (hkeyed : S.store.investigations.Keyed fun r => r.investigationId.value)
    (h : Redelivered claim i) (heffect : w.Effect env S r T ids) :
    ResultKept S.store T.store claim.job.investigationId ↔ claim.job.tenant ≠ i.tenant := by
  have hjob : ∀ c : Claim w env S.store, c.job = claim.job :=
    fun c => (c.same claim ⟨rfl, rfl, rfl⟩ rfl).1
  have hlost : ∀ (status : InvestigationStatus) (t : Datetime),
      T.store.investigations = S.store.investigations.set claim.job.investigationId.value
        (i.withStatus status t) → status ≠ .succeeded → claim.job.tenant = i.tenant →
      (ResultKept S.store T.store claim.job.investigationId ↔ claim.job.tenant ≠ i.tenant) :=
    fun _ _ hset hstatus htenant =>
      ⟨fun hkept => absurd hkept (not_resultKept hset hstatus), fun hne => absurd htenant hne⟩
  cases heffect with
  | idle hnone =>
    rw [claim.first] at hnone
    cases hnone
  | orphaned c t hnone =>
    rw [hjob c] at hnone
    refine ⟨fun _ heq => ?_, fun _ => ⟨⟨i, h.investigation, h.succeeded⟩, rfl, rfl⟩⟩
    rw [InvestigationRepository.find?_eq_some.mpr ⟨h.investigation, heq.symm⟩] at hnone
    cases hnone
  | cancelled c j t hfind hstatus =>
    rw [hjob c] at hfind
    obtain ⟨rfl, -⟩ := h.found hfind
    rw [h.succeeded] at hstatus
    cases hstatus
  | succeeded c j p rows report t t' hfind hstatus hmade hrows hreport hnone hdup =>
    rw [hjob c] at hfind
    obtain ⟨rfl, -⟩ := h.found hfind
    have hid : j.investigationId = claim.job.investigationId :=
      InvestigationId.ext (hkeyed _ _ h.investigation).symm
    have hsome := h.report
    rw [← hid, hnone] at hsome
    cases hsome
  | failed c j e n store code t t' hfind hstatus hends hexception hterminal hcode hdup =>
    rw [hjob c] at hfind
    obtain ⟨rfl, htenant⟩ := h.found hfind
    refine hlost .failed t ?_ (by decide) htenant
    show store.investigations.set c.job.investigationId.value _ = _
    rw [hends.same.1, hjob c]
  | retried c j code t t' hfind hstatus hprepare hleft hdup =>
    rw [hjob c] at hfind
    obtain ⟨rfl, htenant⟩ := h.found hfind
    refine hlost .running t ?_ (by decide) htenant
    show S.store.investigations.set c.job.investigationId.value _ = _
    rw [hjob c]

end redelivery

/-- **Redelivery keeps the result exactly when the job is not the investigation's tenant's.** On
    every store that repository methods have made, a call that claims a job of an
    investigation with status SUCCEEDED and a report either raises and commits nothing, or
    it returns, and then the result is kept if and only if the tenants differ. -/
theorem redelivery_keeps_iff {F : Type} [PyFloat F] [LawfulPyFloat F] [FloatHex F] [Sha256]
    {w : Worker F} {env : Environment F} {S : Tracked F} (hmade : S.store.Made)
    (claim : Claim w env S.store) {i : InvestigationRecord} (h : Redelivered claim i) :
    Wp (w.runOnce .memory env) (Session.start S)
      (fun _ s' => ResultKept S.store s'.shared.store claim.job.investigationId ↔
        claim.job.tenant ≠ i.tenant)
      (fun _ s' => s'.shared = S) := by
  have hkeyed := hmade.filed.investigations
  exact (runOnce_effect hkeyed).mono (fun _ _ heffect => resultKept_iff_of_effect hkeyed h heffect)
    fun _ _ hshared => hshared

namespace Demo

/-- An investigation that has succeeded. -/
def finished : InvestigationRecord where
  investigationId := ⟨⟨1, UUID.one_lt⟩⟩
  tenant := ⟨str "tenant"⟩
  incident := ⟨str "incident"⟩
  run := ⟨str "run"⟩
  window := ⟨⟨0, Datetime.zero_lt⟩, ⟨10, Datetime.ten_lt⟩, ⟨20, Datetime.twenty_lt⟩⟩
  status := .succeeded
  idempotencyKey := none
  createdAt := ⟨0, Datetime.zero_lt⟩
  updatedAt := ⟨0, Datetime.zero_lt⟩

def finishedReport : ReportRecord where
  investigationId := ⟨⟨1, UUID.one_lt⟩⟩
  tenant := ⟨str "tenant"⟩
  run := ⟨str "run"⟩
  schemaVersion := ⟨str "hypothesis-verification-v1", by decide⟩
  payload := ⟨str "the report", by decide⟩
  createdAt := ⟨0, Datetime.zero_lt⟩
  baselinePayload := none

/-- The store with another job of the investigation in its queue. -/
def redeliveredStore : Tracked ExactFloat where
  store := Operation.runAll [.investigationsCreate finished, .reportsPut finishedReport,
    .jobsEnqueue waitingJob] Store.empty
  provenance := .empty

def redeliveredClaim : Claim worker noTelemetry redeliveredStore.store where
  job := waitingJob
  rest := []
  expiry := ⟨30000000, Datetime.halfMinute_lt⟩
  first := by decide +kernel
  lease := by decide +kernel

theorem redelivered : Redelivered redeliveredClaim finished :=
  ⟨by decide +kernel, rfl, by decide +kernel⟩

end Demo

open Demo in
/-- A second delivery of a job of the investigation of its tenant. -/
theorem redelivery_keeps_iff_demo :
    Wp (worker.runOnce .memory noTelemetry) (Session.start redeliveredStore)
      (fun _ s' => ¬ ResultKept redeliveredStore.store s'.shared.store ⟨⟨1, by decide⟩⟩)
      (fun _ s' => s'.shared = redeliveredStore) :=
  (redelivery_keeps_iff ⟨_, rfl⟩ redeliveredClaim redelivered).mono
    (fun _ _ h hkept => h.mp hkept rfl) fun _ _ hshared => hshared

open Demo in
/-- The telemetry source has nothing when the job is delivered again: the investigation has
    failed then, and its report is served all the same. -/
theorem redelivery_fails_finished :
    redeliveredStore.store.Made ∧ Redelivered redeliveredClaim finished ∧
      ((worker.runOnce .memory noTelemetry).exec (Session.start redeliveredStore)).1 = .ok true ∧
      ∃ i, ((worker.runOnce .memory noTelemetry).exec
          (Session.start redeliveredStore)).2.shared.store.investigations.get? ⟨1, by decide⟩ =
        some i ∧ i.status = .failed ∧
      ((worker.runOnce .memory noTelemetry).exec
          (Session.start redeliveredStore)).2.shared.store.reports.get? ⟨1, by decide⟩ =
        some finishedReport :=
  ⟨⟨_, rfl⟩, redelivered, by decide +kernel, finished.withStatus .failed ⟨0, by decide⟩, by decide +kernel,
    rfl, by decide +kernel⟩

end IncidentEvidence
