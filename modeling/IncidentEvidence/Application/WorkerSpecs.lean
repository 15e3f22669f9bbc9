import IncidentEvidence.Application.Pipeline

/-! # The parts of the worker

    One rule for each step a call takes over the in-memory store, and one `_spec`
    for each method of the worker: what it leaves the open transaction with when it
    returns, and that the committed tables stay when it raises.

    `After` says how far a session has come; rules compose by `After.trans`.
-/

namespace IncidentEvidence

open Py Py.Action

/-! ### Steps of a session -/

section steps
variable {F α : Type} {env : Surroundings} {s : Session F} {ok : α → Session F → Prop}
  {err : PyException → Session F → Prop}

/-- The session after an await. -/
def Session.awaited (s : Session F) : Session F := { s with awaits := s.awaits + 1 }

theorem wp_awaiting {ok : Unit → Session F → Prop} (hcancel : err .cancelled s.awaited)
    (hok : ok () s.awaited) : Wp (awaiting env) s ok err := by
  unfold awaiting
  simp only [wp_bind, wp_get, wp_set, wp_ite, wp_throw, wp_pure]
  exact ⟨fun _ => hcancel, fun _ => hok⟩

/-- An awaited repository method of the in-memory store. -/
theorem wp_statement {x : Action PyException (Tracked F) α} (hcancel : err .cancelled s.awaited)
    (hbody : Wp x s.working (fun a t => ok a { s.awaited with working := t })
      (fun e t => err e { s.awaited with working := t })) :
    Wp (statement .memory env x) s ok err := by
  unfold statement
  simp only [wp_bind, wp_get]
  apply wp_awaiting hcancel
  show Wp (onWorking x) s.awaited ok err
  unfold onWorking
  rw [wp_zoom]
  exact hbody

/-- A method that returns. -/
theorem wp_statement_ok {x : Action PyException (Tracked F) α} {a : α} {t : Tracked F}
    (hx : x.exec s.working = (.ok a, t)) (hcancel : err .cancelled s.awaited)
    (hok : ok a { s.awaited with working := t }) : Wp (statement .memory env x) s ok err := by
  apply wp_statement hcancel
  unfold Wp
  rw [hx]
  exact hok

/-- A method that raises. -/
theorem wp_statement_error {x : Action PyException (Tracked F) α} {e : PyException} {t : Tracked F}
    (hx : x.exec s.working = (.error e, t)) (hcancel : err .cancelled s.awaited)
    (herr : err e { s.awaited with working := t }) : Wp (statement .memory env x) s ok err := by
  apply wp_statement hcancel
  unfold Wp
  rw [hx]
  exact herr

/-- The tables of a method on the store. -/
def Tracked.withStore (t : Tracked F) (store : Store) : Tracked F := { t with store := store }

theorem exec_onStore {x : Repository α} {t : Tracked F} :
    (onStore x).exec t = ((x.exec t.store).1, t.withStore (x.exec t.store).2) := rfl

theorem onStore_ok {x : Repository α} {t : Tracked F} {r : Except PyException α} {store : Store}
    (h : x.exec t.store = (r, store)) : (onStore x).exec t = (r, t.withStore store) := by
  rw [exec_onStore, h]

/-- The committed tables are not touched. -/
def Undone (s : Session F) : PyException → Session F → Prop := fun _ s' => s'.shared = s.shared

/-- A computation without state. -/
theorem wp_liftOf {x : Except PyException α} (herr : ∀ e, x = .error e → err e s)
    (hok : ∀ a, x = .ok a → ok a s) : Wp (lift x) s ok err :=
  wp_lift.mpr ⟨hok, herr⟩

/-- How a session has moved on: what the transaction sees then, the readings of the clock and
    the ids it used. -/
structure After (s s' : Session F) (working : Tracked F) (readings : ℕ) (drawn : List UUID) :
    Prop where
  shared : s'.shared = s.shared
  working : s'.working = working
  readings : s'.readings = s.readings + readings
  drawn : s'.drawn = s.drawn ++ drawn

theorem After.refl (s : Session F) : After s s s.working 0 [] := ⟨rfl, rfl, rfl, by simp⟩

theorem After.trans {s s' s'' : Session F} {t t' : Tracked F} {m n : ℕ} {ids ids' : List UUID}
    (h : After s s' t m ids) (h' : After s' s'' t' n ids') : After s s'' t' (m + n) (ids ++ ids') where
  shared := h'.shared.trans h.shared
  working := h'.working
  readings := by rw [h'.readings, h.readings, Nat.add_assoc]
  drawn := by rw [h'.drawn, h.drawn, List.append_assoc]

/-- A repository method on the store, when it returns. -/
theorem wp_onStore {x : Repository α} {a : α} {store : Store}
    (hx : x.exec s.working.store = (.ok a, store)) (hcancel : ∀ s', s'.shared = s.shared → err .cancelled s')
    (hok : ∀ s', After s s' (s.working.withStore store) 0 [] → ok a s') :
    Wp (statement .memory env (onStore x)) s ok err := by
  apply wp_statement_ok (onStore_ok hx) (hcancel _ rfl)
  exact hok _ ⟨rfl, rfl, rfl, (List.append_nil _).symm⟩

theorem wp_readClock {ok : Datetime → Session F → Prop}
    (hok : ∀ s', After s s' s.working 1 [] → ok (env.clock s.readings) s') :
    Wp (readClock env) s ok err := by
  unfold readClock
  simp only [wp_bind, wp_get, wp_set, wp_pure]
  exact hok _ ⟨rfl, rfl, rfl, (List.append_nil _).symm⟩

theorem wp_drawId {ok : UUID → Session F → Prop} {id : UUID}
    (hok : ∀ s', After s s' s.working 0 [id] → ok id s') : Wp (drawId id) s ok err := by
  unfold drawId
  simp only [wp_bind, wp_modify, wp_pure]
  exact hok _ ⟨rfl, rfl, rfl, rfl⟩

/-- `investigations.set_status` of an investigation the tenant has. -/
theorem wp_setInvestigationStatus {ok : InvestigationRecord → Session F → Prop} {tenant : TenantId}
    {investigationId : InvestigationId} {status : InvestigationStatus} {record : InvestigationRecord}
    (hfind : InvestigationRepository.find? s.working.store tenant investigationId = some record)
    (hcancel : ∀ s', s'.shared = s.shared → err .cancelled s')
    (hok : ∀ now s', After s s' (s.working.withStore { s.working.store with
      investigations := s.working.store.investigations.set investigationId.value
        (record.withStatus status now) }) 0 [] → ok (record.withStatus status now) s') :
    Wp (setInvestigationStatus .memory env tenant investigationId status) s ok err := by
  unfold setInvestigationStatus systemNow
  simp only [wp_bind, wp_get, wp_set, wp_pure]
  refine wp_onStore ?_ hcancel fun s' h => hok (env.system s.stamps) s' ⟨h.shared, h.working, h.readings, h.drawn⟩
  rw [InvestigationRepository.setStatus_exec]
  simp only [hfind]

/-- `jobs.set_status` of a job the tenant has. -/
theorem wp_setJobStatus {ok : JobRecord → Session F → Prop} {tenant : TenantId} {jobId : JobId}
    {status : JobStatus} {record : JobRecord}
    (hfind : JobQueue.find? s.working.store tenant jobId = some record)
    (hcancel : ∀ s', s'.shared = s.shared → err .cancelled s')
    (hok : ∀ now s', After s s' (s.working.withStore { s.working.store with
      jobs := s.working.store.jobs.set jobId.value (record.withStatus status now) }) 0 [] →
      ok (record.withStatus status now) s') :
    Wp (setJobStatus .memory env tenant jobId status) s ok err := by
  unfold setJobStatus systemNow
  simp only [wp_bind, wp_get, wp_set, wp_pure]
  refine wp_onStore ?_ hcancel fun s' h => hok (env.system s.stamps) s' ⟨h.shared, h.working, h.readings, h.drawn⟩
  rw [JobQueue.setStatus_exec]
  simp only [hfind]

theorem wp_recordAudit {ok : Unit → Session F → Prop} {record : AuditRecord}
    (hcancel : ∀ s', s'.shared = s.shared → err .cancelled s')
    (hok : ∀ s', After s s' (s.working.withStore { s.working.store with
      audit := s.working.store.audit ++ [record] }) 0 [] → ok () s') :
    Wp (recordAudit .memory env record) s ok err :=
  wp_onStore (AuditLog.record_exec record s.working.store) hcancel hok

theorem wp_commit {ok : Unit → Session F → Prop} (hcancel : err .cancelled s.awaited)
    (hok : ok () { s.awaited with shared := s.working }) : Wp (commit .memory env) s ok err := by
  unfold commit
  simp only [wp_bind, wp_get]
  apply wp_awaiting hcancel
  rw [wp_modify]
  exact hok

/-- The commit and the return at the end of a scope. -/
theorem wp_commitReturn {r : α} (hcancel : err .cancelled s.awaited)
    (hok : ok r { s.awaited with shared := s.working }) :
    Wp (do commit .memory env; return r) s ok err := by
  rw [wp_bind]
  refine wp_commit hcancel ?_
  rw [wp_pure]
  exact hok

/-- A scope drops what its body has not committed. -/
theorem wp_scope {body : Action PyException (Session F) α} (hcancel : err .cancelled s.awaited)
    (hbody : Wp body { s.awaited with working := s.shared, aborted := false }
      (fun a s' => ok a { s' with working := s'.shared, aborted := false })
      (fun e s' => err e { s' with working := s'.shared, aborted := false })) :
    Wp (scope env body) s ok err := by
  unfold scope
  simp only [wp_bind]
  apply wp_awaiting hcancel
  simp only [wp_modify, wp_attempt, wp_lift]
  apply hbody.mono
  · intro a s' h
    exact ⟨fun a' ha => Except.ok.inj ha ▸ h, fun e he => absurd he (by simp)⟩
  · intro e s' h
    exact ⟨fun a' ha => absurd ha (by simp), fun e' he => Except.error.inj he ▸ h⟩

end steps

/-! ### Bookkeeping -/

section bookkeeping
variable {F : Type} [PyFloat F] [FloatHex F] [Sha256] (w : Worker F) (env : Environment F)

/-- The attempt a call records; `n` is how often the clock was read before. -/
def Worker.attemptRow (claimed : ClaimedJob) (started : Datetime) (n : ℕ) (outcome : AttemptOutcome)
    (errorCode : Option Text) : AttemptRecord where
  attemptId := ⟨env.attemptId⟩
  jobId := claimed.jobId
  tenant := claimed.tenant
  attemptNumber := claimed.attemptCount
  workerId := w.workerId
  startedAt := started
  finishedAt := some (env.clock n)
  outcome := some outcome
  errorCode := errorCode
  createdAt := env.clock (n + 1)

/-- The audit record of a terminal failure. -/
def Worker.failedEvent (claimed : ClaimedJob) (n : ℕ) (code : Text) : AuditRecord where
  tenant := claimed.tenant
  investigationId := some claimed.investigationId
  actor := w.workerId
  action := CreateInvestigation.literal "investigation.failed" CreateInvestigation.failed_notBlank
  detail := some code
  occurredAt := env.clock (n + 2)

/-- The tables when the job of a call is over for now: the job in its new status, and the
    attempt. -/
def Worker.attemptedStore (store : Store) (claimed : ClaimedJob) (started : Datetime) (n : ℕ)
    (outcome : AttemptOutcome) (errorCode : Option Text) (job : JobRecord) : Store :=
  { store with
    jobs := store.jobs.set claimed.jobId.value job
    attempts := store.attempts.set env.attemptId
      (w.attemptRow env claimed started n outcome errorCode) }

/-- The tables after a terminal failure. -/
def Worker.failedStore (store : Store) (claimed : ClaimedJob) (started : Datetime) (n : ℕ)
    (code : Text) (investigation : InvestigationRecord) (job : JobRecord) : Store :=
  { w.attemptedStore env store claimed started n .failed (some code) job with
    investigations := store.investigations.set claimed.investigationId.value investigation
    audit := store.audit ++ [w.failedEvent env claimed n code] }

variable {w env} {s : Session F} {claimed : ClaimedJob} {started : Datetime}

omit [FloatHex F] [Sha256] in
theorem recordAttempt_spec (outcome : AttemptOutcome) (code : Option Str) :
    Wp (w.recordAttempt .memory env claimed started outcome code) s
      (fun _ s' => ∃ errorCode : Option Text, errorCode.map Subtype.val = code ∧
        AttemptRepository.duplicate s.working.store
          (w.attemptRow env claimed started s.readings outcome errorCode) = false ∧
        After s s' (s.working.withStore { s.working.store with
          attempts := s.working.store.attempts.set env.attemptId
            (w.attemptRow env claimed started s.readings outcome errorCode) }) 2 [env.attemptId])
      (Undone s) := by
  unfold Worker.recordAttempt
  simp only [wp_bind, wp_lift]
  apply wp_drawId
  intro s₁ h₁
  apply wp_readClock
  intro s₂ h₂
  apply wp_readClock
  intro s₃ h₃
  have h := (h₁.trans h₂).trans h₃
  have hworking : s₃.working = s.working := by rw [h₃.working, h₂.working, h₁.working]
  have hreadings : s₁.readings = s.readings ∧ s₂.readings = s.readings + 1 :=
    ⟨h₁.readings, by rw [h₂.readings, h₁.readings]⟩
  rw [hreadings.1, hreadings.2]
  constructor
  · intro errorCode hcode
    rw [CreateInvestigation.checkOptionalText_eq_ok] at hcode
    have hexec := AttemptRepository.record_exec
      (w.attemptRow env claimed started s.readings outcome errorCode) s₃.working.store
    rw [hworking] at hexec
    by_cases hdup : AttemptRepository.duplicate s.working.store
        (w.attemptRow env claimed started s.readings outcome errorCode) = true
    · rw [if_pos hdup, ← hworking] at hexec
      exact wp_statement_error (onStore_ok hexec) h.shared h.shared
    · rw [if_neg hdup, ← hworking] at hexec
      refine wp_onStore hexec (fun s' hs' => hs'.trans h.shared) fun s₄ h₄ => ?_
      refine ⟨errorCode, hcode.symm, Bool.eq_false_iff.mpr hdup, ?_⟩
      rw [hworking] at h₄
      exact h.trans h₄
  · intro e _
    exact h.shared

omit [Sha256] in
/-- The checks of a code that were passed agree on it. -/
theorem checkOptionalText_unique {code : Str} {t t' : Option Text}
    (h : CreateInvestigation.checkOptionalText (some code) = .ok t)
    (h' : t'.map Subtype.val = some code) : t = t' := by
  rw [CreateInvestigation.checkOptionalText_eq_ok] at h
  have hmap : t.map Subtype.val = t'.map Subtype.val := h.symm.trans h'.symm
  exact Option.map_injective Subtype.val_injective hmap

omit [FloatHex F] [Sha256] in
/-- `_terminal_fail` of a job and an investigation the tenant has. -/
theorem terminalFail_spec {code : Str} {investigation : InvestigationRecord} {job : JobRecord}
    (hinvestigation : InvestigationRepository.find? s.working.store claimed.tenant
      claimed.investigationId = some investigation)
    (hjob : JobQueue.find? s.working.store claimed.tenant claimed.jobId = some job) :
    Wp (w.terminalFail .memory env claimed started code) s
      (fun _ s' => ∃ (detail : Text) (t₁ t₂ : Datetime), detail.1 = code ∧
        AttemptRepository.duplicate s.working.store
          (w.attemptRow env claimed started s.readings .failed (some detail)) = false ∧
        After s s' (s.working.withStore (w.failedStore env s.working.store claimed started s.readings
          detail (investigation.withStatus .failed t₁) (job.withStatus .failed t₂))) 3
          [env.attemptId])
      (Undone s) := by
  unfold Worker.terminalFail
  simp only [wp_bind, wp_lift]
  refine wp_setInvestigationStatus hinvestigation (fun _ h => h) fun t₁ s₁ h₁ => ?_
  have hjob₁ : JobQueue.find? s₁.working.store claimed.tenant claimed.jobId = some job := by
    rw [h₁.working]
    exact hjob
  refine wp_setJobStatus hjob₁ (fun _ h => h.trans h₁.shared) fun t₂ s₂ h₂ => ?_
  have h₁₂ := h₁.trans h₂
  refine (recordAttempt_spec .failed (some code)).mono ?_ fun _ _ h => h.trans h₁₂.shared
  intro _ s₃ h₃
  obtain ⟨errorCode, hcode, hdup, h₃⟩ := h₃
  have h₁₃ := h₁₂.trans h₃
  refine wp_readClock fun s₄ h₄ => ?_
  have h₁₄ := h₁₃.trans h₄
  refine ⟨?_, fun _ _ => h₁₄.shared⟩
  intro detail hdetail
  -- both checks of the code accept the same text
  obtain ⟨detail, rfl⟩ : ∃ d, errorCode = some d := by
    cases errorCode with
    | none => exact absurd hcode (by simp)
    | some d => exact ⟨d, rfl⟩
  obtain rfl := checkOptionalText_unique hdetail hcode
  refine wp_recordAudit (fun _ h => h.trans h₁₄.shared) fun s₅ h₅ => ?_
  have hreadings : s₂.readings = s.readings := h₁₂.readings
  have hlast : s₃.readings = s.readings + 2 := h₁₃.readings
  rw [hreadings] at hdup h₃
  refine ⟨detail, t₁, t₂, Option.some.inj hcode, ?_, ?_⟩
  · rw [h₂.working, h₁.working] at hdup
    exact hdup
  · rw [hlast] at h₅
    rw [h₄.working, h₃.working, h₂.working, h₁.working] at h₅
    exact h₁₄.trans h₅

end bookkeeping

/-! ### The pipeline -/

section pipeline
variable {F : Type} [PyFloat F] [FloatHex F] [Sha256] (w : Worker F)

/-- The audit record of a report. -/
def Worker.persistedEvent (investigation : InvestigationRecord) (now : Datetime) : AuditRecord where
  tenant := investigation.tenant
  investigationId := some investigation.investigationId
  actor := w.workerId
  action := CreateInvestigation.literal "report.persisted" CreateInvestigation.persisted_notBlank
  detail := none
  occurredAt := now

/-- The tables after a pipeline that went through; `succeeded` is the row of the investigation
    then. -/
def Worker.persistedStore (store : Store) (investigation succeeded : InvestigationRecord)
    (rows : List EvidenceRecord) (report : ReportRecord) (now : Datetime) : Store :=
  { store with
    investigations := store.investigations.set investigation.investigationId.value succeeded
    evidence := EvidenceRepository.appended store.evidence rows
    reports := store.reports.set investigation.investigationId.value report
    audit := store.audit ++ [w.persistedEvent investigation now] }

/-- The rows of the evidence are appended. -/
def Store.withRows (store : Store) (rows : List EvidenceRecord) : Store :=
  { store with evidence := EvidenceRepository.appended store.evidence rows }

omit [PyFloat F] [FloatHex F] [Sha256] in
/-- `reports.put` and the provenance. -/
theorem putReport_exec (record : ReportRecord) (provenance : Provenance F) (t : Tracked F) :
    (do
      let _ ← onStore (ReportRepository.put record)
      modify fun t : Tracked F =>
        { t with provenance := t.provenance.set record.investigationId.value provenance } :
      Action PyException (Tracked F) Unit).exec t =
    if (t.store.reports.get? record.investigationId.value).isSome then
      (.error idempotencyConflict, t)
    else (.ok (), ⟨{ t.store with
      reports := t.store.reports.set record.investigationId.value record },
      t.provenance.set record.investigationId.value provenance⟩) := by
  rw [exec_bind, exec_onStore, ReportRepository.put_exec]
  by_cases h : (t.store.reports.get? record.investigationId.value).isSome = true
  · rw [if_pos h, if_pos h]
    rfl
  · rw [if_neg h, if_neg h]
    rfl

variable [LawfulPyFloat F] {w} {env : Environment F} {s : Session F}
  {investigation current : InvestigationRecord} {p : Prepared F}

/-- The `persist` stage ends in one of three ways: it goes through, a report of the investigation
    is there already, or the task is cancelled. -/
theorem persist_spec (hmade : p.Made w env investigation)
    (hcurrent : InvestigationRepository.find? s.working.store investigation.tenant
      investigation.investigationId = some current) :
    Wp (w.persist .memory env investigation p) s
      (fun _ s' => ∃ rows report t,
        List.Forall₂ (RowOf investigation (env.clock s.readings)) p.ledger.entries rows ∧
        ReportOf investigation (env.clock s.readings) p report ∧
        s.working.store.reports.get? investigation.investigationId.value = none ∧
        After s s' ⟨w.persistedStore s.working.store investigation (current.withStatus .succeeded t)
          rows report (env.clock s.readings),
          s.working.provenance.set investigation.investigationId.value p.toProvenance⟩ 1 [])
      (fun e s' => s'.shared = s.shared ∧ (e = .cancelled ∨ ∃ rows,
        List.Forall₂ (RowOf investigation (env.clock s.readings)) p.ledger.entries rows ∧
        (s.working.store.reports.get? investigation.investigationId.value).isSome = true ∧
        e = idempotencyConflict ∧
        After s s' (s.working.withStore (s.working.store.withRows rows)) 1 [])) := by
  -- the payloads are texts, so the records can be built
  obtain ⟨rows, hrows, hall⟩ := exists_rows hmade.entries investigation (env.clock s.readings)
  obtain ⟨report, hreport, hof⟩ := hmade.exists_report (env.clock s.readings)
  obtain ⟨stored, happend⟩ := EvidenceRepository.append_exec rows s.working.store
  unfold Worker.persist
  simp only [wp_bind, wp_lift]
  refine wp_readClock fun s₁ h₁ => ?_
  rw [hrows, hreport]
  refine ⟨?_, fun e he => absurd he (by simp)⟩
  intro _ heq
  obtain rfl := Except.ok.inj heq
  rw [← h₁.working] at happend
  refine wp_onStore happend (fun _ h => ⟨h.trans h₁.shared, Or.inl rfl⟩) fun s₂ h₂ => ?_
  have h₁₂ := h₁.trans h₂
  refine ⟨?_, fun e he => absurd he (by simp)⟩
  intro _ heq
  obtain rfl := Except.ok.inj heq
  have hworking : s₂.working = s.working.withStore (s.working.store.withRows rows) := by
    rw [h₂.working, h₁.working]
    rfl
  have hput := putReport_exec report p.toProvenance s₂.working
  rw [hof.1] at hput
  unfold Worker.putReport
  rw [hof.1]
  have hreports : s₂.working.store.reports = s.working.store.reports := by
    rw [hworking]
    rfl
  rw [hreports] at hput
  -- the rows are in the working copy before the report is put
  by_cases hsome : (s.working.store.reports.get? investigation.investigationId.value).isSome = true
  · rw [if_pos hsome] at hput
    refine wp_statement_error hput ⟨h₁₂.shared, Or.inl rfl⟩ ⟨h₁₂.shared, Or.inr ⟨rows, hall, hsome, rfl, ?_⟩⟩
    exact ⟨h₁₂.shared, hworking, h₁₂.readings, h₁₂.drawn⟩
  · rw [if_neg hsome] at hput
    refine wp_statement_ok hput ⟨h₁₂.shared, Or.inl rfl⟩ ?_
    have hcurrent₃ : InvestigationRepository.find? s₂.working.store investigation.tenant
        investigation.investigationId = some current := by
      rw [hworking]
      exact hcurrent
    refine wp_setInvestigationStatus hcurrent₃ (fun _ h => ⟨h.trans h₁₂.shared, Or.inl rfl⟩)
      fun t s₃ h₃ => ?_
    refine wp_recordAudit (fun _ h => ⟨(h.trans h₃.shared).trans h₁₂.shared, Or.inl rfl⟩)
      fun s₄ h₄ => ?_
    refine ⟨rows, report, t, hall, hof, Option.not_isSome_iff_eq_none.mp hsome, ?_⟩
    have h₃₄ := h₃.trans h₄
    refine ⟨h₃₄.shared.trans h₁₂.shared, ?_, h₃₄.readings.trans h₁₂.readings, ?_⟩
    · rw [h₄.working, h₃.working, hworking]
      rfl
    · rw [h₃₄.drawn]
      show s₂.drawn ++ ([] ++ []) = s.drawn ++ []
      rw [h₁₂.drawn]
      simp

/-- How a pipeline ends that does not go through, and where it leaves the session. -/
inductive Worker.Stops (w : Worker F) (env : Environment F) (investigation : InvestigationRecord)
    (s : Session F) : PyException → Session F → Prop where
  | cancelled (s' : Session F) : Stops w env investigation s .cancelled s'
  /-- A stage before `persist` raises. -/
  | early (e : PyException) (s' : Session F) (hprepare : w.prepare env investigation = .error e)
      (hafter : After s s' s.working 0 []) : Stops w env investigation s e s'
  /-- The investigation has a report already. -/
  | conflict (s' : Session F) (p : Prepared F) (rows : List EvidenceRecord)
      (hmade : p.Made w env investigation)
      (hrows : List.Forall₂ (RowOf investigation (env.clock s.readings)) p.ledger.entries rows)
      (hreport : (s.working.store.reports.get? investigation.investigationId.value).isSome = true)
      (hafter : After s s' (s.working.withStore (s.working.store.withRows rows)) 1 []) :
      Stops w env investigation s idempotencyConflict s'

theorem runPipeline_spec
    (hcurrent : InvestigationRepository.find? s.working.store investigation.tenant
      investigation.investigationId = some current) :
    Wp (w.runPipeline .memory env investigation) s
      (fun _ s' => ∃ p rows report t, p.Made w env investigation ∧
        List.Forall₂ (RowOf investigation (env.clock s.readings)) p.ledger.entries rows ∧
        ReportOf investigation (env.clock s.readings) p report ∧
        s.working.store.reports.get? investigation.investigationId.value = none ∧
        After s s' ⟨w.persistedStore s.working.store investigation (current.withStatus .succeeded t)
          rows report (env.clock s.readings),
          s.working.provenance.set investigation.investigationId.value p.toProvenance⟩ 1 [])
      (fun e s' => s'.shared = s.shared ∧ w.Stops env investigation s e s') := by
  -- an exception before `persist` is that of `prepare`, stage by stage
  have hearly : ∀ {e : PyException} {s' : Session F}, After s s' s.working 0 [] →
      w.prepare env investigation = .error e → s'.shared = s.shared ∧ w.Stops env investigation s e s' :=
    fun h hprepare => ⟨h.shared, .early _ _ hprepare h⟩
  unfold Worker.runPipeline
  simp only [wp_bind]
  refine wp_awaiting ⟨rfl, .cancelled _⟩ ?_
  refine wp_liftOf (fun e he => hearly ⟨rfl, rfl, rfl, (List.append_nil _).symm⟩ ?_)
    fun telemetry htelemetry => ?_
  · simp [Worker.prepare, he]
  refine wp_liftOf (fun e he => hearly ⟨rfl, rfl, rfl, (List.append_nil _).symm⟩ ?_)
    fun stage hstage => ?_
  · simp [Worker.prepare, htelemetry, he]
  obtain ⟨baseline, ledger⟩ := stage
  dsimp only
  refine wp_awaiting ⟨rfl, .cancelled _⟩ ?_
  rw [wp_modify]
  refine wp_liftOf (fun e he => hearly ⟨rfl, rfl, rfl, (List.append_nil _).symm⟩ ?_)
    fun reply hreply => ?_
  · simp [Worker.prepare, htelemetry, hstage, he]
  refine wp_liftOf (fun e he => hearly ⟨rfl, rfl, rfl, (List.append_nil _).symm⟩ ?_)
    fun proposal hproposal => ?_
  · simp [Worker.prepare, htelemetry, hstage, hreply, he]
  refine wp_liftOf (fun e he => hearly ⟨rfl, rfl, rfl, (List.append_nil _).symm⟩ ?_)
    fun _ htokens => ?_
  · simp [Worker.prepare, htelemetry, hstage, hreply, hproposal, he]
  refine wp_liftOf (fun e he => hearly ⟨rfl, rfl, rfl, (List.append_nil _).symm⟩ ?_)
    fun document hdocument => ?_
  · have hparse : parseStage env.limits proposal (allowedSignals ledger) = .error e := he
    simp [Worker.prepare, htelemetry, hstage, hreply, hproposal, htokens, hparse]
  have hparse : parseStage env.limits proposal (allowedSignals ledger) = .ok document := hdocument
  refine wp_liftOf (fun e he => hearly ⟨rfl, rfl, rfl, (List.append_nil _).symm⟩ ?_)
    fun p hp => ?_
  · simp [Worker.prepare, htelemetry, hstage, hreply, hproposal, htokens, hparse, he]
  -- all stages have gone through: this is what `persist` gets
  have hmade : p.Made w env investigation := by
    apply Worker.prepare_eq_ok
    simp [Worker.prepare, htelemetry, hstage, hreply, hproposal, htokens, hparse, hp]
  apply (persist_spec (s := { s.awaited.awaited with
    requests := s.requests ++ [hypothesisRequest investigation ledger] }) hmade hcurrent).mono
  · intro _ s' h
    obtain ⟨rows, report, t, hrows, hreport, hnone, hafter⟩ := h
    exact ⟨p, rows, report, t, hmade, hrows, hreport, hnone,
      ⟨hafter.shared, hafter.working, hafter.readings, hafter.drawn⟩⟩
  · intro e s' h
    obtain ⟨hshared, rfl | ⟨rows, hrows, hreport, rfl, hafter⟩⟩ := h
    · exact ⟨hshared, .cancelled _⟩
    · exact ⟨hshared, .conflict s' p rows hmade hrows hreport
        ⟨hafter.shared, hafter.working, hafter.readings, hafter.drawn⟩⟩

end pipeline

end IncidentEvidence
