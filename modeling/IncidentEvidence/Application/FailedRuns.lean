import IncidentEvidence.Application.Lifecycle

/-! # What a failed run leaves behind

    A call of `run_once` that claims a job and does not bring it to an end writes
    the row of the job, the status of its investigation, one attempt and, when the
    job is given up, one audit record (`Bookkeeping`). The rows are made of the
    stored ones, the clock and an error code; of what the telemetry source and the
    model did only the code is left (`failed_run_bookkeeping`). The code is one of the
    source unless a port raises the worker's own exceptions, whose code is taken as it
    is (`failed_run_keeps_port_text`).
-/

namespace IncidentEvidence

open Py Py.Action Runs

/-! ### Tables up to their stamps -/

/-- `updated_at` is read from the system clock. -/
def InvestigationRecord.unstamped (record : InvestigationRecord) : InvestigationRecord :=
  { record with updatedAt := record.createdAt }

def JobRecord.unstamped (record : JobRecord) : JobRecord :=
  { record with updatedAt := record.availableAt }

/-- Two stores that differ in `updated_at` of investigations and jobs at most. -/
structure SameButStamps (S S' : Store) : Prop where
  investigations : S.investigations.entries.map (fun e => (e.1, e.2.unstamped)) =
    S'.investigations.entries.map fun e => (e.1, e.2.unstamped)
  jobs : S.jobs.entries.map (fun e => (e.1, e.2.unstamped)) =
    S'.jobs.entries.map fun e => (e.1, e.2.unstamped)
  attempts : S.attempts = S'.attempts
  evidence : S.evidence = S'.evidence
  reports : S.reports = S'.reports
  audit : S.audit = S'.audit

/-! ### The codes of a failure -/

/-- A classified exception is recorded under a code of the source. -/
theorem PyException.Classified.code {e : PyException} (h : e.Classified) : ClassCode e.failureCode := by
  cases e with
  | terminalFailure code => exact h.1
  | retryableFailure code =>
    rcases List.mem_cons.mp h with rfl | h
    · exact Or.inr (Or.inr (Or.inr ⟨.providerTimeout, rfl⟩))
    · obtain rfl := List.mem_singleton.mp h
      exact Or.inr (Or.inr (Or.inr ⟨.providerUnavailable, rfl⟩))
  | _ => exact Or.inl rfl

/-- Only a failure that may pass is recorded under the code of one. -/
theorem PyException.Classified.retryable {e : PyException} (h : e.Classified)
    (hcode : e.failureCode ∈ retryCodes) : e = .retryableFailure e.failureCode := by
  cases e with
  | terminalFailure code => exact absurd hcode h.2
  | retryableFailure code => rfl
  | _ => exact absurd (show str "internal_error" ∈ retryCodes from hcode) (by decide)

/-! ### The records of a failure -/

/-- An attempt that was not there is recorded under a code. -/
def RecordsFailure (S S' : Store) (attemptId : UUID) (code : Text) : Prop :=
  S.attempts.get? attemptId = none ∧
    ∃ a, S'.attempts.get? attemptId = some a ∧ a.errorCode = some code

section bookkeeping
variable {F : Type} [PyFloat F] [FloatHex F] [Sha256] {w w' : Worker F} {env env' : Environment F}
  {S : Store}

/-- What a failed call has written; `ended` says that the job is given up. -/
structure Bookkeeping (claim : Claim w env S) (code : Text) (ended : Bool) (S' : Store) : Prop where
  jobs : ∃ t, S'.jobs = S.jobs.set claim.job.jobId.value
    (claim.row.withStatus (if ended then .failed else .queued) t)
  investigations : ∃ i t, S.investigations.get? claim.job.investigationId.value = some i ∧
    S'.investigations = S.investigations.set claim.job.investigationId.value
      (i.withStatus (if ended then .failed else .running) t)
  attempts : S'.attempts = S.attempts.set env.attemptId
    (w.attemptRow env claim.claimed (env.clock 1) 2 .failed (some code))
  evidence : S'.evidence = S.evidence
  reports : S'.reports = S.reports
  audit : S'.audit = S.audit ++ if ended then [w.failedEvent env claim.claimed 2 code] else []

/-- A job is given up unless its failure may pass and attempts are left. -/
def Claim.GivenUp (claim : Claim w env S) (code : Text) : Prop :=
  code.1 ∈ retryCodes → w.maxAttempts ≤ (claim.claimed.attemptCount : ℕ)

omit [FloatHex F] [Sha256] in
theorem Bookkeeping.same {claim : Claim w env S} {claim' : Claim w' env' S} {code : Text}
    {ended : Bool} {S₁ S₂ : Store} (h₁ : Bookkeeping claim code ended S₁)
    (h₂ : Bookkeeping claim' code ended S₂) (hw : SameSettings w w')
    (hclock : env.clock = env'.clock) (hid : env.attemptId = env'.attemptId) :
    SameButStamps S₁ S₂ := by
  obtain ⟨hjob, hrow, hclaimed⟩ := claim.same claim' hw hclock
  constructor
  · obtain ⟨i, t, hi, hset⟩ := h₁.investigations
    obtain ⟨i', t', hi', hset'⟩ := h₂.investigations
    rw [← hjob, hi] at hi'
    obtain rfl := Option.some.inj hi'
    rw [hset, hset', ← hjob]
    exact Dict.map_set_congr _ _ _ rfl
  · obtain ⟨t, hset⟩ := h₁.jobs
    obtain ⟨t', hset'⟩ := h₂.jobs
    rw [hset, hset', ← hjob, ← hrow]
    exact Dict.map_set_congr _ _ _ rfl
  · rw [h₁.attempts, h₂.attempts, hid, ← hclaimed]
    simp only [Worker.attemptRow, hw.workerId, hclock, hid]
  · rw [h₁.evidence, h₂.evidence]
  · rw [h₁.reports, h₂.reports]
  · rw [h₁.audit, h₂.audit, ← hclaimed]
    simp only [Worker.failedEvent, hw.workerId, hclock]

variable [LawfulPyFloat F] {s s' : Service F}

omit [LawfulPyFloat F] in
/-- What a call commits that claims a job and does not end it as succeeded. -/
theorem bookkeeping_of_effect {S T : Tracked F} {drawn ids : List UUID}
    (hlife : Lifecycle S.store drawn) (hnodup : (drawn ++ ids).Nodup) (claim : Claim w env S.store)
    (h : w.Effect env S true T ids)
    (hfailed : ∀ j, T.store.jobs.get? claim.job.jobId.value = some j → j.status ≠ .succeeded) :
    ∃ code ended, Bookkeeping claim code ended T.store ∧ T.provenance = S.provenance ∧
      S.store.attempts.get? env.attemptId = none ∧
      (env.External → ClassCode code.1 ∧ (ended = true ↔ claim.GivenUp code)) := by
  obtain ⟨-, -, i₀, hi₀, htenant, -, hcancelled, hreport⟩ := claim.alive hlife
  have hfind₀ := InvestigationRepository.find?_eq_some.mpr ⟨hi₀, htenant⟩
  have hfresh : ids = [env.attemptId] → S.store.attempts.get? env.attemptId = none := by
    rintro rfl
    cases hget : S.store.attempts.get? env.attemptId with
    | none => rfl
    | some a =>
      exact absurd List.mem_cons_self
        (List.disjoint_of_nodup_append hnodup (hlife.attemptsDrawn _ _ hget))
  have hsame : ∀ c : Claim w env S.store, c.job = claim.job ∧ c.row = claim.row ∧
      c.claimed = claim.claimed := fun c => c.same claim ⟨rfl, rfl, rfl⟩ rfl
  -- a store has one job to claim, so every case is about the job of `claim`
  cases h with
  | orphaned c t hnone =>
    -- the job is alive, so its investigation is there
    rw [(hsame c).1, hfind₀] at hnone
    cases hnone
  | cancelled c i t hfind hstatus =>
    rw [(hsame c).1, hfind₀] at hfind
    obtain rfl := Option.some.inj hfind
    exact absurd hstatus hcancelled
  | succeeded c i p rows report t t' =>
    -- the job would have ended as succeeded
    obtain ⟨hjob, -, -⟩ := hsame c
    have hrow : (S.store.jobs.set c.job.jobId.value (c.row.withStatus .succeeded t')).get?
        claim.job.jobId.value = some (c.row.withStatus .succeeded t') := by
      rw [hjob, Dict.get?_set_self]
    exact absurd rfl (hfailed _ hrow)
  | failed c i e n store code t t' hfind hstatus hends hexception hterminal hcode hdup =>
    obtain ⟨hjob, hrow, hclaimed⟩ := hsame c
    rw [hjob, hfind₀] at hfind
    obtain rfl := Option.some.inj hfind
    cases hends with
    | conflict p rows hmade hrows hsome =>
      -- a conflict needs a report, and a job that is alive has none
      rw [InvestigationId.ext (hlife.investigationsKeyed _ _ hi₀).symm, hreport] at hsome
      exact absurd hsome (by simp)
    | early _ hprepare =>
      -- the pipeline has raised before it wrote anything
      refine ⟨code, true, ?_, rfl, hfresh rfl, fun hexternal => ?_⟩
      · rw [hclaimed, hrow]
        exact ⟨⟨t', rfl⟩, ⟨i₀, t, hi₀, rfl⟩, rfl, rfl, rfl, rfl⟩
      · have hclassified := w.prepare_error hexternal hprepare
        rw [hcode]
        refine ⟨hclassified.code, fun _ hretry => ?_, fun _ => rfl⟩
        rw [hcode] at hretry
        rw [← hclaimed]
        exact hterminal _ (hclassified.retryable hretry)
  | retried c i code t t' hfind hstatus hprepare hleft hdup =>
    obtain ⟨hjob, hrow, hclaimed⟩ := hsame c
    rw [hjob, hfind₀] at hfind
    obtain rfl := Option.some.inj hfind
    refine ⟨code, false, ?_, rfl, hfresh rfl, fun hexternal => ?_⟩
    · rw [hclaimed, hrow]
      exact ⟨⟨t', rfl⟩, ⟨i₀, t, hi₀, rfl⟩, rfl, rfl, rfl, (List.append_nil _).symm⟩
    · have hclassified := w.prepare_error hexternal hprepare
      refine ⟨hclassified.code, fun h => absurd h (by simp), fun hgiven => ?_⟩
      rw [hclaimed] at hleft
      exact absurd (hgiven hclassified) hleft

omit [FloatHex F] [Sha256] [LawfulPyFloat F] in
/-- The code a failure is recorded under. -/
theorem Bookkeeping.code_eq {claim : Claim w env S} {code code' : Text}
    {ended : Bool} {S' : Store} (h : Bookkeeping claim code ended S')
    (hrecords : RecordsFailure S S' env.attemptId code') : code' = code := by
  obtain ⟨-, a, ha, hcode⟩ := hrecords
  rw [h.attempts, Dict.get?_set_self] at ha
  obtain rfl := Option.some.inj ha
  exact (Option.some.inj hcode).symm

variable (w env) in
/-- The call of `run_once` on the committed tables ends in an exception. -/
def Worker.Raises (S : Tracked F) : Prop :=
  ∃ e, ((w.runOnce .memory env).exec (Session.start S)).1 = .error e

omit [LawfulPyFloat F] in
/-- A call that did nothing had no job to claim. -/
theorem eligible_of_effect_false {S T : Tracked F} {ids : List UUID}
    (h : w.Effect env S false T ids) : JobQueue.eligible S.store (env.clock 0) = [] := by
  cases h with
  | idle hnone => exact hnone

theorem bookkeeping_of_step (h : Reachable (Service.system F) s) (claim : Claim w env s.committed.store)
    (hstep : Service.step s (.runOnce w env) s')
    (hfailed : ∀ j, s'.committed.store.jobs.get? claim.job.jobId.value = some j →
      j.status ≠ .succeeded) :
    w.Raises env s.committed ∧ s'.committed = s.committed ∨
      ¬ w.Raises env s.committed ∧ ∃ code ended, Bookkeeping claim code ended s'.committed.store ∧
        (env.External → ClassCode code.1 ∧ (ended = true ↔ claim.GivenUp code)) := by
  have hlife := lifecycle_reachable h
  have heffect : Wp (w.runOnce .memory env) _ _ _ := runOnce_effect hlife.investigationsKeyed
  obtain ⟨-, hnodup, rfl⟩ := hstep
  rw [session_runOnce] at hnodup hfailed ⊢
  unfold Wp at heffect
  unfold Worker.Raises
  rcases hexec : (w.runOnce .memory env).exec (Session.start s.committed) with ⟨r, t⟩
  rw [hexec] at heffect hnodup hfailed
  cases r with
  | error e => exact .inl ⟨⟨e, rfl⟩, heffect⟩
  | ok r =>
    refine .inr ⟨by simp, ?_⟩
    cases r with
    | false =>
      have hnone := eligible_of_effect_false heffect
      rw [claim.first] at hnone
      cases hnone
    | true =>
      obtain ⟨code, ended, hbook, -, -, hexternal⟩ :=
        bookkeeping_of_effect hlife hnodup claim heffect hfailed
      exact ⟨code, ended, hbook, hexternal⟩

/-- A call that has recorded a failure has kept the books of it. -/
theorem bookkeeping_of_records (h : Reachable (Service.system F) s)
    (claim : Claim w env s.committed.store) (hexternal : env.External)
    (hstep : Service.step s (.runOnce w env) s')
    (hfailed : ∀ j, s'.committed.store.jobs.get? claim.job.jobId.value = some j →
      j.status ≠ .succeeded) {code : Text}
    (hrecords : RecordsFailure s.committed.store s'.committed.store env.attemptId code) :
    ClassCode code.1 ∧ ∃ ended, Bookkeeping claim code ended s'.committed.store ∧
      (ended = true ↔ claim.GivenUp code) := by
  rcases bookkeeping_of_step h claim hstep hfailed with ⟨-, hsame⟩ | ⟨-, code', ended, hbook, hcode⟩
  · obtain ⟨hnone, a, ha, -⟩ := hrecords
    rw [hsame, hnone] at ha
    cases ha
  · obtain rfl := hbook.code_eq hrecords
    obtain ⟨hclass, hover⟩ := hcode hexternal
    exact ⟨hclass, ended, hbook, hover⟩

end bookkeeping

/-- **A failed run leaves only bookkeeping behind.** A call of `run_once` on a store of a run
    that claims a job and does not end it as succeeded changes nothing when it raises, and
    otherwise keeps the books of a failure: evidence and reports stay as they are. When the
    ports do not raise the worker's own exceptions, the code that is recorded is one of the
    source, and another such call with the same clock and id that records the same code
    commits the same tables up to their stamps. -/
theorem failed_run_bookkeeping {F : Type} [PyFloat F] [LawfulPyFloat F] [FloatHex F] [Sha256]
    {s s' : Service F} (h : Reachable (Service.system F) s) {w : Worker F} {env : Environment F}
    (claim : Claim w env s.committed.store) (hstep : Service.step s (.runOnce w env) s')
    (hfailed : ∀ j, s'.committed.store.jobs.get? claim.job.jobId.value = some j →
      j.status ≠ .succeeded) :
    (w.Raises env s.committed → s'.committed = s.committed) ∧
      (¬ w.Raises env s.committed →
        ∃ code ended, Bookkeeping claim code ended s'.committed.store) ∧
      (env.External → ∀ code,
        RecordsFailure s.committed.store s'.committed.store env.attemptId code →
          ClassCode code.1 ∧ ∀ (w' : Worker F) (env' : Environment F) (s'' : Service F),
            SameSettings w w' → env.clock = env'.clock → env.attemptId = env'.attemptId →
            env'.External → Service.step s (.runOnce w' env') s'' →
            (∀ j, s''.committed.store.jobs.get? claim.job.jobId.value = some j →
              j.status ≠ .succeeded) →
            RecordsFailure s.committed.store s''.committed.store env'.attemptId code →
              SameButStamps s'.committed.store s''.committed.store) := by
  have hbooks := bookkeeping_of_step h claim hstep hfailed
  refine ⟨?_, ?_, ?_⟩
  · intro hraises
    rcases hbooks with ⟨-, hsame⟩ | ⟨hreturned, -⟩
    · exact hsame
    · exact absurd hraises hreturned
  · intro hreturned
    rcases hbooks with ⟨hraises, -⟩ | ⟨-, code, ended, hbook, -⟩
    · exact absurd hraises hreturned
    · exact ⟨code, ended, hbook⟩
  · intro hexternal code hrecords
    obtain ⟨hclass, ended, hbook, hover⟩ :=
      bookkeeping_of_records h claim hexternal hstep hfailed hrecords
    refine ⟨hclass, ?_⟩
    intro w' env' s'' hw hclock hid hexternal' hstep' hfailed' hrecords'
    -- the other worker claims the same job: the clock and the lease are the same
    let claim' : Claim w' env' s.committed.store :=
      ⟨claim.job, claim.rest, claim.expiry, hclock ▸ claim.first, hclock ▸ hw.lease ▸ claim.lease⟩
    obtain ⟨-, ended', hbook', hover'⟩ :=
      bookkeeping_of_records h claim' hexternal' hstep' hfailed' hrecords'
    have hgiven : claim.GivenUp code ↔ claim'.GivenUp code := by
      unfold Claim.GivenUp
      rw [hw.maxAttempts, (claim.same claim' hw hclock).2.2]
    -- so it gives up exactly when the first one does
    obtain rfl : ended = ended' := Bool.eq_iff_iff.mpr (hover.trans (hgiven.trans hover'.symm))
    exact hbook.same hbook' hw hclock hid

namespace Demo

/-- The telemetry source has nothing either, under another system clock and another model. -/
def brokenTelemetry : Environment ExactFloat :=
  { noTelemetry with
    system := fun _ => ⟨1, by decide⟩
    proposal := .returns ⟨.ok (str "text of the model"), some 1, some 2⟩ }

/-- The telemetry source raises the worker's own exception, with a text of its choice. -/
def privateException : Environment ExactFloat :=
  { noTelemetry with load := .raises (.terminalFailure (str "text of the port")) }

def portText : Text := ⟨str "text of the port", by decide⟩

end Demo

open Demo in
/-- Two failures under one code, of which only the stamps tell which call it was. -/
theorem failed_run_bookkeeping_demo :
    (∃ code ended, Bookkeeping (firstClaim noTelemetry rfl) code ended failedService.committed.store) ∧
      ClassCode (str "telemetry_unavailable") ∧
      SameButStamps failedService.committed.store (after worker brokenTelemetry).committed.store := by
  have hbook := failed_run_bookkeeping createdService_reachable (firstClaim noTelemetry rfl)
    failedService_step (by decide +kernel)
  obtain ⟨hclass, hsame⟩ := hbook.2.2 ⟨rfl, rfl, by simp [noTelemetry]⟩
    ⟨str "telemetry_unavailable", by decide⟩ ⟨by decide +kernel, by decide +kernel⟩
  refine ⟨hbook.2.1 ?_, hclass, ?_⟩
  · rintro ⟨e, he⟩
    have hok : (((worker.runOnce .memory noTelemetry).exec
        (Session.start createdService.committed)).1.toBool) = true := by decide +kernel
    rw [he] at hok
    cases hok
  · exact hsame worker brokenTelemetry _ ⟨rfl, rfl, rfl⟩ rfl rfl
      ⟨rfl, trivial, by rintro _ e ⟨⟩ he; cases he⟩ ⟨trivial, by decide +kernel, rfl⟩ (by decide +kernel)
      ⟨by decide +kernel, by decide +kernel⟩

open Demo in
/-- A port that raises the worker's own exception has its text recorded as the code of the
    attempt and as the detail of the audit record. -/
theorem failed_run_keeps_port_text :
    Reachable (Service.system ExactFloat) createdService ∧
      Service.step createdService (.runOnce worker privateException) (after worker privateException) ∧
      (∀ j, (after worker privateException).committed.store.jobs.get?
          (firstClaim privateException rfl).job.jobId.value = some j → j.status ≠ .succeeded) ∧
      RecordsFailure createdService.committed.store (after worker privateException).committed.store
        privateException.attemptId portText ∧
      (∃ event ∈ (after worker privateException).committed.store.audit,
        event.detail = some portText) ∧
      ¬ ClassCode portText.1 := by
  refine ⟨createdService_reachable, ⟨trivial, by decide +kernel, rfl⟩, by decide +kernel,
    ⟨by decide +kernel, by decide +kernel⟩, by decide +kernel, ?_⟩
  rintro (h | h | ⟨e, h⟩ | ⟨e, h⟩)
  · exact absurd h (by decide)
  · exact absurd h (by decide)
  · revert h
    cases e <;> decide
  · revert h
    cases e <;> decide

end IncidentEvidence
