import IncidentEvidence.Application.Lifecycle
import IncidentEvidence.Domain.CanonicalLedgers

/-! # Calls that nothing disturbs

    When no await is cancelled and no statement is refused, a call of `run_once`
    whose pipeline can be prepared returns, over either unit of work
    (`runOnce_returns`), and over the in-memory store it has succeeded
    (`runOnce_succeeds`).
-/

namespace IncidentEvidence

open Py Py.Action Runs Serialization

/-- Nothing is cancelled and no statement is refused. -/
structure Surroundings.Calm (env : Surroundings) : Prop where
  cancelled : ∀ n, env.cancelled n = false
  fails : ∀ n, env.fails n = false

/-! ### Steps -/

section steps
variable {F α : Type} {b : Backend} {env : Surroundings} {s : Session F}
  {ok : α → Session F → Prop} {err : PyException → Session F → Prop}

/-- A stage that goes through. -/
theorem wp_lift_ok {x : Except PyException α} {a : α} (hx : x = .ok a) (hok : ok a s) :
    Wp (lift x) s ok err := by
  rw [hx]
  exact hok

theorem wp_awaiting_granted {ok : Unit → Session F → Prop} (hcancelled : env.cancelled s.awaits = false)
    (hok : ok () s.awaited) : Wp (awaiting env) s ok err := by
  unfold awaiting
  simp only [wp_bind, wp_get, wp_set, wp_ite, wp_throw, wp_pure]
  refine ⟨fun h => ?_, fun _ => hok⟩
  rw [hcancelled] at h
  cases h

/-- An awaited method that returns, in a transaction that is not over. -/
theorem wp_statement_granted {x : Action PyException (Tracked F) α} {a : α} {t : Tracked F}
    (hcancelled : env.cancelled s.awaits = false) (hfails : env.fails s.awaits = false)
    (haborted : s.aborted = false) (hx : x.exec s.working = (.ok a, t))
    (hok : ok a { s.awaited with working := t }) : Wp (statement b env x) s ok err := by
  unfold statement
  simp only [wp_bind, wp_get]
  apply wp_awaiting_granted hcancelled
  have hexec : (onWorking x).exec s.awaited = (.ok a, { s.awaited with working := t }) := by
    unfold onWorking
    rw [exec_zoom, show x.exec s.awaited.working = (.ok a, t) from hx]
  cases b with
  | memory =>
    show Wp (onWorking x) s.awaited ok err
    unfold Wp
    rw [hexec]
    exact hok
  | postgres =>
    unfold Postgres.statement
    simp only [wp_bind, wp_get, wp_ite, wp_throw, wp_pure, wp_attempt]
    refine ⟨fun h => ?_, fun _ => ⟨fun h => ?_, fun _ => ?_⟩⟩
    · exact absurd (h.symm.trans haborted) (by decide)
    · exact absurd (h.symm.trans hfails) (by decide)
    · unfold Wp
      rw [hexec]
      exact hok

theorem wp_onStore_granted {x : Repository α} {a : α} {store : Store}
    (hcancelled : env.cancelled s.awaits = false) (hfails : env.fails s.awaits = false)
    (haborted : s.aborted = false) (hx : x.exec s.working.store = (.ok a, store))
    (hok : ok a { s.awaited with working := s.working.withStore store }) :
    Wp (statement b env (onStore x)) s ok err :=
  wp_statement_granted hcancelled hfails haborted (onStore_ok hx) hok

theorem wp_readClock_granted {ok : Datetime → Session F → Prop}
    (hok : ok (env.clock s.readings) { s with readings := s.readings + 1 }) :
    Wp (readClock env) s ok err := by
  unfold readClock
  simp only [wp_bind, wp_get, wp_set, wp_pure]
  exact hok

theorem wp_setInvestigationStatus_granted {ok : InvestigationRecord → Session F → Prop}
    {tenant : TenantId} {investigationId : InvestigationId} {status : InvestigationStatus}
    {record : InvestigationRecord} (hcancelled : env.cancelled s.awaits = false)
    (hfails : env.fails s.awaits = false) (haborted : s.aborted = false)
    (hfind : InvestigationRepository.find? s.working.store tenant investigationId = some record)
    (hok : ok (record.withStatus status (env.system s.stamps)) { s.awaited with
      stamps := s.stamps + 1
      working := s.working.withStore { s.working.store with
        investigations := s.working.store.investigations.set investigationId.value
          (record.withStatus status (env.system s.stamps)) } }) :
    Wp (setInvestigationStatus b env tenant investigationId status) s ok err := by
  unfold setInvestigationStatus systemNow
  simp only [wp_bind, wp_get, wp_set, wp_pure]
  refine wp_onStore_granted hcancelled hfails haborted ?_ hok
  rw [InvestigationRepository.setStatus_exec]
  simp only [hfind]

theorem wp_setJobStatus_granted {ok : JobRecord → Session F → Prop} {tenant : TenantId} {jobId : JobId}
    {status : JobStatus} {record : JobRecord} (hcancelled : env.cancelled s.awaits = false)
    (hfails : env.fails s.awaits = false) (haborted : s.aborted = false)
    (hfind : JobQueue.find? s.working.store tenant jobId = some record)
    (hok : ok (record.withStatus status (env.system s.stamps)) { s.awaited with
      stamps := s.stamps + 1
      working := s.working.withStore { s.working.store with
        jobs := s.working.store.jobs.set jobId.value
          (record.withStatus status (env.system s.stamps)) } }) :
    Wp (setJobStatus b env tenant jobId status) s ok err := by
  unfold setJobStatus systemNow
  simp only [wp_bind, wp_get, wp_set, wp_pure]
  refine wp_onStore_granted hcancelled hfails haborted ?_ hok
  rw [JobQueue.setStatus_exec]
  simp only [hfind]

theorem wp_scope_granted {body : Action PyException (Session F) α}
    (hcancelled : env.cancelled s.awaits = false)
    (hbody : Wp body { s.awaited with working := s.shared, aborted := false }
      (fun a s' => ok a { s' with working := s'.shared, aborted := false })
      (fun e s' => err e { s' with working := s'.shared, aborted := false })) :
    Wp (scope env body) s ok err := by
  unfold scope
  simp only [wp_bind]
  apply wp_awaiting_granted hcancelled
  simp only [wp_modify, wp_attempt, wp_lift]
  apply hbody.mono
  · intro a s' h
    exact ⟨fun a' ha => Except.ok.inj ha ▸ h, fun e he => absurd he (by simp)⟩
  · intro e s' h
    exact ⟨fun a' ha => absurd ha (by simp), fun e' he => Except.error.inj he ▸ h⟩

theorem wp_commit_granted {ok : Unit → Session F → Prop} (hcancelled : env.cancelled s.awaits = false)
    (hfails : env.fails s.awaits = false) (haborted : s.aborted = false)
    (hok : ok () { s.awaited with shared := s.working }) : Wp (commit b env) s ok err := by
  unfold commit
  simp only [wp_bind, wp_get]
  apply wp_awaiting_granted hcancelled
  cases b with
  | memory =>
    rw [wp_modify]
    exact hok
  | postgres =>
    simp only [wp_bind, wp_get]
    rw [if_neg (by rw [show s.awaited.aborted = false from haborted]; decide), if_neg (by rw [hfails]; decide),
      wp_set]
    exact hok

end steps

/-! ### The pipeline -/

section pipeline
variable {F : Type} [PyFloat F] [FloatHex F] [Sha256] {w : Worker F} {b : Backend}
  {env : Environment F} {s : Session F} {investigation : InvestigationRecord} {p : Prepared F}
  {ok : Unit → Session F → Prop} {err : PyException → Session F → Prop}

/-- A pipeline that can be prepared gets to its `persist` stage, over either unit of work. -/
theorem wp_runPipeline_granted (hprepare : w.prepare env investigation = .ok p)
    (hload : env.cancelled s.awaits = false) (hpropose : env.cancelled (s.awaits + 1) = false)
    (hpersist : Wp (w.persist b env investigation p) { s with
      awaits := s.awaits + 2
      requests := s.requests ++ [hypothesisRequest investigation p.ledger] } ok err) :
    Wp (w.runPipeline b env investigation) s ok err := by
  simp only [Worker.prepare, bind_eq_ok] at hprepare
  obtain ⟨telemetry, htelemetry, ⟨baseline, ledger⟩, hstage, reply, hreply, proposal, hproposal, _,
    htokens, document, hdocument, hverify⟩ := hprepare
  obtain ⟨-, rfl, -⟩ := verifyStage_eq_ok hverify
  unfold Worker.runPipeline
  simp only [wp_bind]
  apply wp_awaiting_granted hload
  apply wp_lift_ok htelemetry
  apply wp_lift_ok hstage
  apply wp_awaiting_granted hpropose
  rw [wp_modify]
  apply wp_lift_ok hreply
  apply wp_lift_ok hproposal
  apply wp_lift_ok htokens
  apply wp_lift_ok hdocument
  apply wp_lift_ok hverify
  exact hpersist

omit [PyFloat F] [FloatHex F] [Sha256] in
theorem putReport_returns {r : ReportRecord} (provenance : Provenance F) {t : Tracked F}
    (hnone : t.store.reports.get? r.investigationId.value = none) :
    (do
      let _ ← onStore (ReportRepository.put r)
      modify fun t : Tracked F =>
        { t with provenance := t.provenance.set r.investigationId.value provenance } :
      Action PyException (Tracked F) Unit).exec t =
    (.ok (), ⟨{ t.store with reports := t.store.reports.set r.investigationId.value r },
      t.provenance.set r.investigationId.value provenance⟩) := by
  rw [putReport_exec, hnone]
  rfl

/-- Where the `persist` stage leaves what the rest of the call looks at. -/
structure PersistedFrom (s s' : Session F) : Prop where
  jobs : s'.working.store.jobs = s.working.store.jobs
  attempts : s'.working.store.attempts = s.working.store.attempts
  aborted : s'.aborted = false

variable [LawfulPyFloat F]

/-- The `persist` stage of an investigation that has no report yet. -/
theorem wp_persist_granted (hcalm : env.Calm) (hmade : p.Made w env investigation)
    {current : InvestigationRecord} (haborted : s.aborted = false)
    (hcurrent : InvestigationRepository.find? s.working.store investigation.tenant
      investigation.investigationId = some current)
    (hnone : s.working.store.reports.get? investigation.investigationId.value = none) :
    Wp (w.persist b env investigation p) s (fun _ s' => PersistedFrom s s')
      (fun _ _ => False) := by
  obtain ⟨rows, hrows, -⟩ := exists_rows hmade.entries investigation (env.clock s.readings)
  obtain ⟨report, hreport, hof⟩ := hmade.exists_report (env.clock s.readings)
  obtain ⟨stored, happend⟩ := EvidenceRepository.append_exec rows s.working.store
  unfold Worker.persist
  simp only [wp_bind]
  apply wp_readClock_granted
  apply wp_lift_ok hrows
  refine wp_onStore_granted (hcalm.cancelled _) (hcalm.fails _) (by exact haborted) (by exact happend) ?_
  apply wp_lift_ok hreport
  have hput := putReport_returns p.toProvenance
    (t := s.working.withStore (s.working.store.withRows rows)) (r := report) (by rw [hof.1]; exact hnone)
  unfold Worker.putReport
  refine wp_statement_granted (hcalm.cancelled _) (hcalm.fails _) (by exact haborted) (by exact hput) ?_
  refine wp_setInvestigationStatus_granted (hcalm.cancelled _) (hcalm.fails _)
    (by exact haborted) (by exact hcurrent) ?_
  refine wp_onStore_granted (hcalm.cancelled _) (hcalm.fails _) (by exact haborted)
    (AuditLog.record_exec _ _) ?_
  exact ⟨rfl, rfl, haborted⟩

variable {claimed : ClaimedJob} {started : Datetime} {c : InvestigationRecord} {j : JobRecord}

/-- The pipeline and the bookkeeping of a success. -/
theorem wp_process_granted (hcalm : env.Calm) (hprepare : w.prepare env investigation = .ok p)
    (haborted : s.aborted = false)
    (hcurrent : InvestigationRepository.find? s.working.store investigation.tenant
      investigation.investigationId = some c)
    (hnone : s.working.store.reports.get? investigation.investigationId.value = none)
    (hjob : JobQueue.find? s.working.store claimed.tenant claimed.jobId = some j)
    (hdup : AttemptRepository.duplicate s.working.store
      (w.attemptRow env claimed started 0 .succeeded none) = false) :
    Wp (w.process b env claimed started investigation) s (fun _ s' => s'.aborted = false)
      (fun _ _ => False) := by
  unfold Worker.process
  simp only [wp_bind, wp_attempt]
  apply wp_runPipeline_granted hprepare (hcalm.cancelled _) (hcalm.cancelled _)
  have hpersist := wp_persist_granted (b := b) (s := { s with
    awaits := s.awaits + 2
    requests := s.requests ++ [hypothesisRequest investigation p.ledger] })
    hcalm (Worker.prepare_eq_ok hprepare) haborted hcurrent hnone
  apply hpersist.mono
  · intro _ s₁ h₁
    -- `persist` leaves the jobs and the attempts alone
    have hjob₁ : JobQueue.find? s₁.working.store claimed.tenant claimed.jobId = some j := by
      unfold JobQueue.find?
      rw [h₁.jobs]
      exact hjob
    apply wp_setJobStatus_granted (hcalm.cancelled _) (hcalm.fails _) h₁.aborted hjob₁
    unfold Worker.recordAttempt drawId
    simp only [wp_bind, wp_modify, wp_pure]
    apply wp_readClock_granted
    apply wp_readClock_granted
    apply wp_lift_ok (a := none) rfl
    refine wp_onStore_granted (hcalm.cancelled _) (hcalm.fails _) h₁.aborted
      (AttemptRepository.record_exec _ _ |>.trans (if_neg ?_)) h₁.aborted
    rw [Bool.not_eq_true]
    show (s₁.working.store.attempts.values.any _) = false
    rw [h₁.attempts]
    exact hdup
  · intro _ _ hfalse
    exact hfalse.elim

end pipeline

/-! ### A whole call -/

section call
variable {F : Type} [PyFloat F] [LawfulPyFloat F] [FloatHex F] [Sha256] {w : Worker F}
  {b : Backend} {env : Environment F} {S : Tracked F} {investigation : InvestigationRecord}
  {p : Prepared F}

/-- The session in which the pipeline of a claimed job begins. -/
def Claim.entry (claim : Claim w env S.store) (investigation : InvestigationRecord) : Session F where
  shared := S
  working := S.withStore (claim.runningStore S.store
    (investigation.withStatus .running (env.system 0)))
  awaits := 4
  readings := 2
  stamps := 1

omit [LawfulPyFloat F] in
/-- A call gets to the pipeline of the job it claims when nothing before it is cancelled and no
    statement before it is refused. -/
theorem wp_runOnce_entry {claim : Claim w env S.store} {ok : Bool → Session F → Prop}
    {err : PyException → Session F → Prop}
    (hfound : InvestigationRepository.find? S.store claim.job.tenant claim.job.investigationId =
      some investigation)
    (hstatus : investigation.status ≠ .cancelled) (hcancelled : ∀ n < 4, env.cancelled n = false)
    (hfails : ∀ n < 4, 0 < n → env.fails n = false)
    (hprocess : Wp (do
        w.process b env claim.claimed (env.clock 1) investigation
        commit b env.toSurroundings
        return true) (claim.entry investigation)
      (fun a s' => ok a { s' with working := s'.shared, aborted := false })
      (fun e s' => err e { s' with working := s'.shared, aborted := false })) :
    Wp (w.runOnce b env) (Session.start S) ok err := by
  -- four awaits: the scope, the claim, the read and the status
  have hclaim := JobQueue.claim_exec w.workerId w.lease (env.clock 0) S.store
  rw [claim.first] at hclaim
  simp only [claim.lease] at hclaim
  unfold Worker.runOnce
  apply wp_scope_granted (hcancelled 0 (by omega))
  simp only [wp_bind]
  apply wp_readClock_granted
  apply wp_onStore_granted (hcancelled 1 (by omega)) (hfails 1 (by omega) (by omega)) rfl hclaim
  show Wp (w.runClaimed b env claim.claimed) _ _ _
  unfold Worker.runClaimed
  simp only [wp_bind, wp_attempt]
  apply wp_readClock_granted
  unfold getInvestigation
  have hexec := InvestigationRepository.get_exec claim.claimed.tenant claim.claimed.investigationId
    { S.store with jobs := S.store.jobs.set claim.job.jobId.value claim.row }
  rw [show InvestigationRepository.find? { S.store with
    jobs := S.store.jobs.set claim.job.jobId.value claim.row } claim.claimed.tenant
    claim.claimed.investigationId = some investigation from hfound] at hexec
  apply wp_onStore_granted (hcancelled 2 (by omega)) (hfails 2 (by omega) (by omega)) rfl hexec
  show Wp (if investigation.status = .cancelled then _ else _) _ _ _
  rw [if_neg hstatus, wp_bind]
  exact wp_setInvestigationStatus_granted (hcancelled 3 (by omega)) (hfails 3 (by omega) (by omega))
    rfl hfound hprocess

/-- What a call finds that can bring its job to an end. -/
structure Claim.Healthy (claim : Claim w env S.store) (investigation : InvestigationRecord)
    (p : Prepared F) : Prop where
  found : InvestigationRepository.find? S.store claim.job.tenant claim.job.investigationId =
    some investigation
  filed : investigation.investigationId = claim.job.investigationId
  status : investigation.status ≠ .cancelled
  prepared : w.prepare env investigation = .ok p
  unreported : S.store.reports.get? claim.job.investigationId.value = none
  untried : AttemptRepository.duplicate S.store
    (w.attemptRow env claim.claimed (env.clock 1) 3 .succeeded none) = false

/-- **A call that nothing disturbs returns**, over either unit of work. -/
theorem runOnce_returns (hcalm : env.Calm) {claim : Claim w env S.store}
    (h : claim.Healthy investigation p) :
    Wp (w.runOnce b env) (Session.start S) (fun r _ => r = true) (fun _ _ => False) := by
  refine wp_runOnce_entry h.found h.status (fun n _ => hcalm.cancelled n)
    (fun n _ _ => hcalm.fails n) ?_
  rw [wp_bind]
  apply (wp_process_granted (c := investigation.withStatus .running (env.system 0)) (j := claim.row)
    hcalm h.prepared rfl ?_ ?_ ?_ h.untried).mono
  · intro _ s₁ h₁
    rw [wp_bind]
    exact wp_commit_granted (hcalm.cancelled _) (hcalm.fails _) h₁ rfl
  · intro _ _ hfalse
    exact hfalse
  · rw [h.filed]
    exact InvestigationRepository.find?_eq_some.mpr ⟨Dict.get?_set_self _ _ _, rfl⟩
  · rw [h.filed]
    exact h.unreported
  · exact JobQueue.find?_eq_some.mpr ⟨Dict.get?_set_self _ _ _, rfl⟩

/-- **Over the in-memory store it has succeeded.** -/
theorem runOnce_succeeds (hkeyed : S.store.investigations.Keyed fun r => r.investigationId.value)
    (hcalm : env.Calm) {claim : Claim w env S.store} (h : claim.Healthy investigation p) :
    ∃ (s' : Session F) (p' : Prepared F) (rows : List EvidenceRecord) (report : ReportRecord)
      (t t' : Datetime), (w.runOnce .memory env).exec (Session.start S) = (.ok true, s') ∧
      p'.Made w env investigation ∧
      List.Forall₂ (RowOf investigation (env.clock 2)) p'.ledger.entries rows ∧
      ReportOf investigation (env.clock 2) p' report ∧
      s'.shared = ⟨w.succeededStore env S.store claim.claimed (env.clock 1)
        (investigation.withStatus .succeeded t) (claim.row.withStatus .succeeded t') rows report
        (env.clock 2) 3,
        S.provenance.set investigation.investigationId.value p'.toProvenance⟩ ∧
      s'.drawn = [env.attemptId] := by
  have hreturns := runOnce_returns (b := .memory) hcalm h
  have heffect : Wp (w.runOnce .memory env) _ _ _ := runOnce_effect hkeyed
  unfold Wp at hreturns heffect
  rcases hexec : (w.runOnce .memory env).exec (Session.start S) with ⟨r, s'⟩
  rw [hexec] at hreturns heffect
  have hsame : ∀ c : Claim w env S.store, c.job = claim.job ∧ c.row = claim.row ∧
      c.claimed = claim.claimed := fun c => c.same claim ⟨rfl, rfl, rfl⟩ rfl
  cases r with
  | error e => exact hreturns.elim
  | ok r =>
    obtain rfl : r = true := hreturns
    replace heffect : w.Effect env S true s'.shared s'.drawn := heffect
    generalize hT : s'.shared = T at heffect
    generalize hids : s'.drawn = ids at heffect
    -- the call returns, and each of the other ends contradicts what it has found
    cases heffect with
    | orphaned c t hnone =>
      rw [(hsame c).1, h.found] at hnone
      cases hnone
    | cancelled c i t hfind hstatus =>
      rw [(hsame c).1, h.found] at hfind
      obtain rfl := Option.some.inj hfind
      exact absurd hstatus h.status
    | succeeded c i p' rows report t t' hfind hstatus hmade hrows hreport hnone hdup =>
      obtain ⟨hjob, hrow, hclaimed⟩ := hsame c
      rw [hjob, h.found] at hfind
      obtain rfl := Option.some.inj hfind
      rw [hclaimed, hrow] at hT
      exact ⟨s', p', rows, report, t, t', rfl, hmade, hrows, hreport, hT, hids⟩
    | failed c i e n store code t t' hfind hstatus hends hexception hterminal hcode hdup =>
      rw [(hsame c).1, h.found] at hfind
      obtain rfl := Option.some.inj hfind
      cases hends with
      | early _ hprepare =>
        rw [h.prepared] at hprepare
        cases hprepare
      | conflict p' rows hmade hrows hreport =>
        rw [h.filed, h.unreported] at hreport
        cases hreport
    | retried c i code t t' hfind hstatus hprepare hleft hdup =>
      rw [(hsame c).1, h.found] at hfind
      obtain rfl := Option.some.inj hfind
      rw [h.prepared] at hprepare
      cases hprepare

/-- **The step of a call that nothing disturbs**, from a reachable state. -/
theorem exists_step_succeeded {s : Service F} (hreachable : Reachable (Service.system F) s)
    (hcalm : env.Calm) {claim : Claim w env s.committed.store} (h : claim.Healthy investigation p)
    (hfresh : env.attemptId ∉ s.drawn) :
    ∃ (s' : Service F) (p' : Prepared F) (rows : List EvidenceRecord) (report : ReportRecord)
      (t t' : Datetime), Service.step s (.runOnce w env) s' ∧ p'.Made w env investigation ∧
      List.Forall₂ (RowOf investigation (env.clock 2)) p'.ledger.entries rows ∧
      ReportOf investigation (env.clock 2) p' report ∧
      s' = ⟨⟨w.succeededStore env s.committed.store claim.claimed (env.clock 1)
        (investigation.withStatus .succeeded t) (claim.row.withStatus .succeeded t') rows report
        (env.clock 2) 3,
        s.committed.provenance.set investigation.investigationId.value p'.toProvenance⟩,
        s.drawn ++ [env.attemptId]⟩ := by
  have hlife := lifecycle_reachable hreachable
  have hnodup := nodup_drawn hreachable
  obtain ⟨u, p', rows, report, t, t', hexec, hmade, hrows, hreport, hshared, hdrawn⟩ :=
    runOnce_succeeds hlife.investigationsKeyed hcalm h
  have hsession : Call.session s.committed (.runOnce w env) = u := by
    rw [session_runOnce, hexec]
  refine ⟨_, p', rows, report, t, t', ⟨trivial, ?_, rfl⟩, hmade, hrows, hreport, ?_⟩
  · rw [hsession, hdrawn]
    refine List.nodup_append.mpr ⟨hnodup, List.nodup_singleton _, ?_⟩
    intro a ha b hb heq
    rw [List.mem_singleton.mp hb] at heq
    exact hfresh (heq ▸ ha)
  · rw [hsession, hshared, hdrawn]

end call

namespace Demo

/-- A proposal about the latency. -/
def proposal : Str :=
  str "\x7b\"hypothesis_id\":\"h\",\"tenant_id\":\"tenant\",\"incident_id\":\"incident\",\"run_id\":\"run\",\"semantics\":\"descriptive\",\"composition\":\"all\",\"predicates\":[\x7b\"predicate_id\":\"p\",\"signal_key\":\"checkout.latency\",\"expected_direction\":\"increase\"\x7d]\x7d"

/-- A call that finds telemetry and gets a proposal. -/
def healthy : Environment ExactFloat :=
  { noTelemetry with
    load := .returns [latency]
    proposal := .returns ⟨.ok proposal, some 1, some 2⟩ }

/-- The investigation of the demonstration before any call has worked on it. -/
def pending : InvestigationRecord where
  investigationId := ⟨⟨1, UUID.one_lt⟩⟩
  tenant := ⟨str "tenant"⟩
  incident := ⟨str "incident"⟩
  run := ⟨str "run"⟩
  window := window
  status := .pending
  idempotencyKey := some ⟨str "key", by decide⟩
  createdAt := ⟨0, Datetime.zero_lt⟩
  updatedAt := ⟨0, Datetime.zero_lt⟩

/-- The proposal in pieces, which the kernel decodes faster. -/
theorem proposal_eq : proposal =
    str "\x7b\"hypothesis_id\":\"h\"," ++ str "\"tenant_id\":\"tenant\"," ++
    str "\"incident_id\":\"incident\"," ++ str "\"run_id\":\"run\"," ++
    str "\"semantics\":\"descriptive\"," ++ str "\"composition\":\"all\"," ++
    str "\"predicates\":[\x7b\"predicate_id\":\"p\"," ++
    str "\"signal_key\":\"checkout.latency\"," ++
    str "\"expected_direction\":\"increase\"\x7d]\x7d" := by
  rw [proposal]
  repeat rw [str_ofList]
  decide +kernel

/-- What a closed call returns is checked by evaluating it. -/
theorem exists_ok_of_any {ε α : Type} {x : Except ε α} {p : α → Bool}
    (h : x.toOption.any p = true) : ∃ a, x = .ok a ∧ p a = true := by
  cases x with
  | error e => cases h
  | ok a => exact ⟨a, rfl, h⟩

theorem parsed : ∃ d, parseMetricHypothesis healthy.limits proposal {latency.signal.key} = .ok d ∧
    Encodable d.hypothesisId ∧ ∀ p ∈ d.predicates, Encodable p.predicateId := by
  have hparse : (parseMetricHypothesis healthy.limits proposal {latency.signal.key}).toOption.any
      (fun d => d.hypothesisId = str "h" ∧ d.predicates.map (·.predicateId) = [str "p"]) =
        true := by
    rw [proposal_eq]
    decide +kernel
  obtain ⟨d, hd, hchecked⟩ := exists_ok_of_any hparse
  obtain ⟨hid, hids⟩ := of_decide_eq_true hchecked
  refine ⟨d, hd, ?_, ?_⟩
  · rw [hid]
    exact encodable_str _
  · intro p hp
    have hmem : p.predicateId ∈ d.predicates.map (·.predicateId) := List.mem_map_of_mem hp
    rw [hids, List.mem_singleton] at hmem
    rw [hmem]
    exact encodable_str _

/-- The ledger of the latency allows its signal and no other. -/
theorem compiled : ∃ (baseline : BaselineResult ExactFloat) (ledger : MetricEvidenceLedger ExactFloat),
    rankMetricShifts window [latency] policy = .ok baseline ∧
    compileMetricShiftLedger pending.tenant pending.incident pending.run pending.window baseline =
      .ok ledger ∧
    ledger.entries.map (·.evaluation) = baseline.signalEvaluations ∧
    allowedSignals ledger = {latency.signal.key} := by
  obtain ⟨baseline, hrank⟩ := exists_rank window [latency] policy_ok (by decide)
  have hkeys : ∀ item ∈ [latency], Encodable item.signal.key.value :=
    List.forall_mem_singleton.mpr (encodable_str _)
  obtain ⟨ledger, hcompile, hmap⟩ : ∃ ledger, compileMetricShiftLedger pending.tenant pending.incident
      pending.run pending.window baseline = .ok ledger ∧
      ledger.entries.map (·.evaluation) = baseline.signalEvaluations := by
    have htenant : TextIdentifier.Valid pending.tenant ∧ Encodable pending.tenant.value :=
      ⟨by decide, encodable_str _⟩
    have hincident : TextIdentifier.Valid pending.incident ∧ Encodable pending.incident.value :=
      ⟨by decide, encodable_str _⟩
    have hrun : TextIdentifier.Valid pending.run ∧ Encodable pending.run.value :=
      ⟨by decide, encodable_str _⟩
    obtain ⟨entries, hmap, -, hcompile⟩ := compile_rank htenant hincident hrun (by decide) policy_ok
      hkeys (by decide) (fun _ => two_lt_limit) hrank
    exact ⟨_, hcompile, hmap⟩
  have hstage : baselineStage worker.policy pending (.ok [latency]) = .ok (baseline, ledger) :=
    baselineStage_eq_ok.mpr ⟨_, rfl, hrank, hcompile⟩
  have hallowed : allowedSignals ledger = {latency.signal.key} := by
    rw [baselineStage_allowed hstage, List.map_singleton, List.toFinset_cons, List.toFinset_nil,
      insert_empty_eq]
  exact ⟨baseline, ledger, hrank, hcompile, hmap, hallowed⟩

theorem prepared : ∃ p, worker.prepare healthy pending = .ok p := by
  obtain ⟨written, hwritten⟩ : ∃ s,
      (rankMetricShifts window [latency] policy >>= baselineRankingJson) = .ok s :=
    exists_of_isOk (by decide +kernel)
  obtain ⟨baseline, ledger, hrank, hcompile, hmap, hallowed⟩ := compiled
  have hstage : baselineStage worker.policy pending (.ok [latency]) = .ok (baseline, ledger) :=
    baselineStage_eq_ok.mpr ⟨_, rfl, hrank, hcompile⟩
  have hbaseline : baselineRankingJson baseline = .ok written := by
    rw [hrank] at hwritten
    exact hwritten
  obtain ⟨hvalid, -⟩ := compile_eq_ok hcompile
  obtain ⟨haccepted, -⟩ := validate_eq_ok.mp hvalid
  obtain ⟨document, hparse, hid, hids⟩ := parsed
  obtain ⟨verification, hverified⟩ : ∃ v, verifyHypothesis document ledger = .ok v :=
    ⟨_, verifyHypothesis_eq_ok.mpr ⟨haccepted, rfl⟩⟩
  obtain ⟨report, hreport⟩ := verificationJson_ok hverified hid hids
  obtain ⟨hevals, -⟩ := rank_evaluations hrank
  obtain ⟨payloads, hpayloads⟩ : ∃ l, (ledger.entries.mapM fun e => do
      let payload ← metricEvidenceEntryJson e
      return (e.evidenceId, payload)) = .ok l := by
    refine exists_mapM_eq_ok.mpr fun e he => ?_
    obtain ⟨item, hitem, heval⟩ := hevals.evaluated _ (hmap ▸ List.mem_map_of_mem he)
    have hkey : Encodable e.signalKey.value := by
      rw [show e.signalKey = item.signal.key from heval.key, List.mem_singleton.mp hitem]
      exact encodable_str _
    have hcounts := printable_counts heval
    obtain ⟨s, hs⟩ := exists_entryJson haccepted he hkey hcounts
    exact ⟨_, bind_eq_ok.mpr ⟨s, hs, rfl⟩⟩
  have hverify : ∃ p, verifyStage baseline ledger document = .ok p := by
    refine ⟨⟨⟨baseline, ledger, document, verification⟩, payloads, report, written⟩, ?_⟩
    refine terminalOnDomain_eq_ok.mpr (liftDomain_eq_ok.mpr ?_)
    simp only [bind_eq_ok]
    exact ⟨_, hverified, _, hpayloads, _, hreport, _, hbaseline, rfl⟩
  obtain ⟨p, hp⟩ := hverify
  have hparsed : parseStage healthy.limits ⟨.ok proposal, some 1, some 2⟩ (allowedSignals ledger) =
      .ok document := by
    rw [hallowed]
    exact terminalOnValidation_eq_ok.mpr (bind_eq_ok.mpr ⟨proposal, rfl, hparse⟩)
  refine ⟨p, ?_⟩
  simp only [Worker.prepare, bind_eq_ok]
  exact ⟨.ok [latency], rfl, _, hstage, .ok ⟨.ok proposal, some 1, some 2⟩, rfl, _, rfl, (),
    by decide +kernel, document, hparsed, hp⟩

theorem healthy_calm : healthy.toSurroundings.Calm := ⟨fun _ => rfl, fun _ => rfl⟩

/-- The first job of the demonstration can be brought to an end. -/
theorem firstClaim_healthy : ∃ p, (firstClaim healthy rfl).Healthy pending p := by
  obtain ⟨p, hp⟩ := prepared
  exact ⟨p, by decide +kernel, by decide +kernel, by decide, hp, by decide +kernel, by decide +kernel⟩

/-- The service after an investigation has succeeded. -/
def succeededService : Service ExactFloat := after worker healthy

theorem succeededService_step : ∃ (p : Prepared ExactFloat) (report : ReportRecord),
    Service.step createdService (.runOnce worker healthy) succeededService ∧
      p.Made worker healthy pending ∧
      succeededService.committed.store.reports.get? ⟨1, by decide⟩ = some report ∧
      succeededService.committed.provenance =
        createdService.committed.provenance.set ⟨1, by decide⟩ p.toProvenance := by
  obtain ⟨p, hp⟩ := firstClaim_healthy
  obtain ⟨s', p', rows, report, t, t', hstep, hmade, -, -, hs'⟩ :=
    exists_step_succeeded createdService_reachable healthy_calm hp (by decide +kernel)
  have hsame : s' = succeededService := hstep.2.2
  rw [← hsame]
  refine ⟨p', report, hstep, hmade, ?_, ?_⟩
  · rw [hs']
    exact Dict.get?_set_self _ _ _
  · rw [hs']
    rfl

theorem succeededService_reachable : Reachable (Service.system ExactFloat) succeededService :=
  by
  obtain ⟨_, _, hstep, -⟩ := succeededService_step
  exact createdService_reachable.step hstep

end Demo

end IncidentEvidence
