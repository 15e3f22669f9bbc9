import IncidentEvidence.Api.Control

/-! # The audit log

    The audit log is written in the transaction of the change it reports. In every state of
    the control plane the records of an investigation are those of its life: that it was
    created, and once it is over, who ended it and how (`audit_trail`). No record belongs to
    anything else, and no record is ever taken back.
-/

namespace IncidentEvidence

open Py Py.Action Runs

/-! ### The records of one investigation -/

/-- The event of its creation. -/
def InvestigationRecord.createdEvent (i : InvestigationRecord) : AuditRecord where
  tenant := i.tenant
  investigationId := some i.investigationId
  actor := CreateInvestigation.literal "control-plane" CreateInvestigation.controlPlane_notBlank
  action := CreateInvestigation.literal "investigation.created" CreateInvestigation.created_notBlank
  detail := none
  occurredAt := i.createdAt

/-- The event of its end. -/
def InvestigationRecord.endedEvent (i : InvestigationRecord) (actor action : Text)
    (detail : Option Text) (occurredAt : Datetime) : AuditRecord where
  tenant := i.tenant
  investigationId := some i.investigationId
  actor := actor
  action := action
  detail := detail
  occurredAt := occurredAt

/-- The records of an investigation and its job. The end is reported by the worker of the last
    attempt: at the time of the report, or with the code of the attempt. -/
inductive Trail (S : Store) (i : InvestigationRecord) (j : JobRecord) : List AuditRecord → Prop where
  | opened (hstatus : ¬ i.status.Over) : Trail S i j [i.createdEvent]
  | persisted (hstatus : i.status = .succeeded) (r : ReportRecord)
      (hreport : S.reports.get? i.investigationId.value = some r) (k : UUID) (a : AttemptRecord)
      (hattempt : S.attempts.get? k = some a) (hjob : a.jobId = j.jobId)
      (hlast : (a.attemptNumber : ℕ) = j.attemptCount) :
      Trail S i j [i.createdEvent,
        i.endedEvent a.workerId (CreateInvestigation.literal "report.persisted") none r.createdAt]
  | failed (hstatus : i.status = .failed) (k : UUID) (a : AttemptRecord)
      (hattempt : S.attempts.get? k = some a) (hjob : a.jobId = j.jobId)
      (hlast : (a.attemptNumber : ℕ) = j.attemptCount) (code : Text)
      (hcode : a.errorCode = some code) (t : Datetime) :
      Trail S i j [i.createdEvent,
        i.endedEvent a.workerId (CreateInvestigation.literal "investigation.failed") (some code) t]

section trails
variable {S S' : Store} {i : InvestigationRecord} {j : JobRecord} {l : List AuditRecord}

/-- The records are the investigation's. -/
theorem Trail.of_mem (h : Trail S i j l) {r : AuditRecord} (hr : r ∈ l) :
    r.tenant = i.tenant ∧ r.investigationId = some i.investigationId := by
  cases h with
  | opened => simp_all [InvestigationRecord.createdEvent]
  | persisted =>
    rcases List.mem_pair.mp hr with rfl | rfl
    · exact ⟨rfl, rfl⟩
    · exact ⟨rfl, rfl⟩
  | failed =>
    rcases List.mem_pair.mp hr with rfl | rfl
    · exact ⟨rfl, rfl⟩
    · exact ⟨rfl, rfl⟩

/-- The trail depends on the rows of the investigation only. -/
theorem Trail.same (h : Trail S i j l) (hsame : SameRows S S' i.investigationId j.jobId) :
    Trail S' i j l := by
  cases h with
  | opened hstatus => exact .opened hstatus
  | persisted hstatus r hreport k a hattempt hjob hlast =>
    exact .persisted hstatus r (hsame.report.trans hreport) k a
      ((hsame.attempts k a hjob).mpr hattempt) hjob hlast
  | failed hstatus k a hattempt hjob hlast code hcode t =>
    exact .failed hstatus k a ((hsame.attempts k a hjob).mpr hattempt) hjob hlast code hcode t

/-- Nothing but the creation is reported of an investigation that is not over. -/
theorem Trail.eq_created (h : Trail S i j l) (hstatus : ¬ i.status.Over) : l = [i.createdEvent] := by
  cases h with
  | opened => rfl
  | persisted hsucceeded => exact absurd (Or.inl hsucceeded) hstatus
  | failed hfailed => exact absurd (Or.inr hfailed) hstatus

end trails

/-! ### The log -/

/-- The records of an investigation. -/
def Store.records (S : Store) (i : InvestigationRecord) : List AuditRecord :=
  AuditLog.listForInvestigation S i.tenant i.investigationId

/-- The log is the trails of the investigations. -/
structure Trailed (S : Store) : Prop where
  trail : ∀ k j, S.jobs.get? k = some j → ∃ i,
    S.investigations.get? j.investigationId.value = some i ∧ Trail S i j (S.records i)
  known : ∀ r ∈ S.audit, ∃ k i, S.investigations.get? k = some i ∧ r ∈ S.records i

section log
variable {S T : Store} {added : List AuditRecord} {i i' : InvestigationRecord}

theorem mem_records {r : AuditRecord} : r ∈ S.records i ↔
    r ∈ S.audit ∧ r.tenant = i.tenant ∧ r.investigationId = some i.investigationId := by
  unfold Store.records AuditLog.listForInvestigation
  rw [List.mem_filter, decide_eq_true_iff]

/-- Records of one investigation are added to its own. -/
theorem records_own (h : T.audit = S.audit ++ added) (htenant : i'.tenant = i.tenant)
    (hid : i'.investigationId = i.investigationId)
    (hadded : ∀ r ∈ added, r.tenant = i.tenant ∧ r.investigationId = some i.investigationId) :
    T.records i' = S.records i ++ added := by
  unfold Store.records AuditLog.listForInvestigation
  rw [h, htenant, hid, List.filter_append]
  congr 1
  exact List.filter_eq_self.mpr fun r hr => decide_eq_true (hadded r hr)

/-- The records of the others are the same. -/
theorem records_other (h : T.audit = S.audit ++ added)
    (hadded : ∀ r ∈ added, r.investigationId ≠ some i.investigationId) :
    T.records i = S.records i := by
  unfold Store.records AuditLog.listForInvestigation
  have hnone : added.filter (fun r => decide (r.tenant = i.tenant ∧
      r.investigationId = some i.investigationId)) = [] :=
    List.filter_eq_nil_iff.mpr fun r hr hdecide => hadded r hr (of_decide_eq_true hdecide).2
  rw [h, List.filter_append, hnone, List.append_nil]

theorem trailed_empty : Trailed Store.empty := by
  constructor
  · intro k j hj
    cases hj
  · intro r hr
    cases hr

end log

/-! ### Creations -/

section creation
variable {F : Type} {S T : Tracked F} {drawn ids : List UUID} {call : CreateCall}
  {id : InvestigationId}

/-- **A creation opens a trail.** -/
theorem Trailed.created (htrailed : Trailed S.store) (hlife : Lifecycle S.store drawn)
    (h : CreateInvestigation.Effect call S id T ids) : Trailed T.store := by
  cases h with
  | replayed => exact htrailed
  | created record job hrecord hjob hkey hnew hnewJob =>
    obtain ⟨-, hr⟩ := CreateInvestigation.investigationRecord_eq_ok.mp hrecord
    obtain ⟨-, hj⟩ := CreateInvestigation.jobRecord_eq_ok.mp hjob
    have hjobId : job.investigationId = record.investigationId := by rw [hj, hr]
    have hevent : call.event = record.createdEvent := by
      rw [hr]
      rfl
    have hpending : ¬ record.status.Over := by
      rw [hr]
      simp [InvestigationStatus.Over]
    -- an investigation that was there is another one
    have hne : ∀ k i, S.store.investigations.get? k = some i →
        k ≠ record.investigationId.value ∧ i.investigationId ≠ record.investigationId := by
      intro k i hi
      constructor
      · rintro rfl
        rw [hnew] at hi
        cases hi
      · intro heq
        have hkey : k = i.investigationId.value := hlife.investigationsKeyed k i hi
        rw [hkey, heq, hnew] at hi
        cases hi
    have hother : ∀ k i, S.store.investigations.get? k = some i →
        (CreateInvestigation.createdStore S.store record job call.event).records i =
          S.store.records i := by
      intro k i hi
      apply records_other rfl
      intro r hmem
      obtain rfl := List.mem_singleton.mp hmem
      rw [hevent]
      intro heq
      exact (hne k i hi).2 (Option.some.inj heq).symm
    have hnone : S.store.records record = [] := by
      apply List.eq_nil_iff_forall_not_mem.mpr
      intro r hmem
      obtain ⟨hmem, -, hid⟩ := mem_records.mp hmem
      obtain ⟨k, i, hi, hown⟩ := htrailed.known r hmem
      obtain ⟨-, -, hid'⟩ := mem_records.mp hown
      exact (hne k i hi).2 (Option.some.inj (hid'.symm.trans hid))
    have hown : (CreateInvestigation.createdStore S.store record job call.event).records record =
        [record.createdEvent] := by
      rw [records_own (S := S.store) (i := record) rfl rfl rfl, hnone, hevent]
      · rfl
      · intro r hmem
        obtain rfl := List.mem_singleton.mp hmem
        rw [hevent]
        exact ⟨rfl, rfl⟩
    constructor
    · intro k j hjob'
      by_cases hk : k = job.jobId.value
      · have hget : (S.store.jobs.set job.jobId.value job).get? k = some job := by
          rw [hk]
          exact Dict.get?_set_self _ _ _
        obtain rfl := Option.some.inj (hget.symm.trans hjob')
        refine ⟨record, ?_, ?_⟩
        · rw [hjobId]
          exact Dict.get?_set_self _ _ _
        · show Trail _ _ _ ((CreateInvestigation.createdStore S.store record job call.event).records
            record)
          rw [hown]
          exact .opened hpending
      · have hold : S.store.jobs.get? k = some j :=
          (Dict.get?_set_ne S.store.jobs job hk).symm.trans hjob'
        obtain ⟨i, hi, htrail⟩ := htrailed.trail k j hold
        refine ⟨i, (Dict.get?_set_ne _ _ (hne _ i hi).1).trans hi, ?_⟩
        show Trail _ _ _ ((CreateInvestigation.createdStore S.store record job call.event).records i)
        rw [hother _ i hi]
        refine htrail.same ⟨?_, ?_, rfl, fun _ _ _ => Iff.rfl⟩
        · apply Dict.get?_set_ne
          exact fun heq => (hne _ i hi).2 (InvestigationId.ext heq)
        · apply Dict.get?_set_ne
          have hkey : k = j.jobId.value := hlife.jobsKeyed k j hold
          rw [← hkey]
          exact hk
    · intro r hmem
      have hmem : r ∈ S.store.audit ++ [call.event] := hmem
      rcases List.mem_append.mp hmem with hmem | hmem
      · obtain ⟨k, i, hi, hrecords⟩ := htrailed.known r hmem
        refine ⟨k, i, (Dict.get?_set_ne _ _ (hne k i hi).1).trans hi, ?_⟩
        show r ∈ (CreateInvestigation.createdStore S.store record job call.event).records i
        rw [hother k i hi]
        exact hrecords
      · refine ⟨_, record, Dict.get?_set_self _ _ _, ?_⟩
        show r ∈ (CreateInvestigation.createdStore S.store record job call.event).records record
        rw [hown, ← hevent]
        exact hmem

end creation

/-! ### Calls of the worker -/

/-- What a call that has claimed a job adds to the log, next to the rows it has written. -/
structure Logs (S T : Store) (j j' : JobRecord) (i i' : InvestigationRecord)
    (added : List AuditRecord) : Prop where
  audit : T.audit = S.audit ++ added
  before : S.investigations.get? j.investigationId.value = some i
  after : T.investigations.get? j.investigationId.value = some i'
  job : T.jobs.get? j.jobId.value = some j'
  jobInvestigation : j'.investigationId = j.investigationId
  same : i'.tenant = i.tenant ∧ i'.investigationId = i.investigationId ∧ i'.createdAt = i.createdAt
  trail : Trail T i' j' (i'.createdEvent :: added)

section worker
variable {F : Type} [PyFloat F] [FloatHex F] [Sha256] {w : Worker F} {env : Environment F}
  {S T : Tracked F} {drawn ids : List UUID}

/-- **The end of an investigation is reported** in the transaction that ends it, and an attempt
    that is retried is not. -/
theorem logs_of_effect (hlife : Lifecycle S.store drawn) (h : w.Effect env S true T ids) :
    ∃ (c : Claim w env S.store) (j' : JobRecord) (i i' : InvestigationRecord)
      (added : List AuditRecord), Logs S.store T.store c.job j' i i' added := by
  -- cases follow the ways a call ends; two of them need an investigation a run does not make
  cases h with
  | orphaned c t hnone =>
    obtain ⟨-, -, i, hi, htenant, -⟩ := c.alive hlife
    rw [InvestigationRepository.find?_eq_some.mpr ⟨hi, htenant⟩] at hnone
    cases hnone
  | cancelled c i t hfind hstatus =>
    obtain ⟨-, -, i', hi, htenant, -, hne, -⟩ := c.alive hlife
    rw [InvestigationRepository.find?_eq_some.mpr ⟨hi, htenant⟩] at hfind
    obtain rfl := Option.some.inj hfind
    exact absurd hstatus hne
  | succeeded c i p rows report t t' hfind hstatus hmade hrows hreport hnone hdup =>
    obtain ⟨hi, htenant⟩ := InvestigationRepository.find?_eq_some.mp hfind
    have hid : i.investigationId = c.job.investigationId :=
      InvestigationId.ext (hlife.investigationsKeyed _ _ hi).symm
    obtain ⟨-, -, -, -, -, hcreated⟩ := hreport
    -- the event carries the moment of the report
    have hevent : w.persistedEvent i (env.clock 2) = (i.withStatus .succeeded t).endedEvent
        w.workerId (CreateInvestigation.literal "report.persisted") none report.createdAt := by
      rw [hcreated]
      rfl
    refine ⟨c, c.row.withStatus .succeeded t', i, i.withStatus .succeeded t,
      [w.persistedEvent i (env.clock 2)], rfl, hi, ?_, Dict.get?_set_self _ _ _, rfl,
      ⟨rfl, rfl, rfl⟩, ?_⟩
    · rw [← hid]
      exact Dict.get?_set_self _ _ _
    · rw [hevent]
      exact .persisted rfl report (Dict.get?_set_self _ _ _) env.attemptId
        (w.attemptRow env c.claimed (env.clock 1) 3 .succeeded none) (Dict.get?_set_self _ _ _)
        rfl rfl
  | failed c i e n store code t t' hfind hstatus hends hexception hterminal hcode hdup =>
    obtain ⟨hi, htenant⟩ := InvestigationRepository.find?_eq_some.mp hfind
    have hid : i.investigationId = c.job.investigationId :=
      InvestigationId.ext (hlife.investigationsKeyed _ _ hi).symm
    obtain ⟨-, -, -, -, haudit⟩ := hends.same
    have hevent : w.failedEvent env c.claimed n code = (i.withStatus .failed t).endedEvent
        w.workerId (CreateInvestigation.literal "investigation.failed") (some code)
        (env.clock (n + 2)) := by
      show (⟨c.job.tenant, some c.job.investigationId, _, _, _, _⟩ : AuditRecord) =
        ⟨i.tenant, some i.investigationId, _, _, _, _⟩
      rw [htenant, hid]
    refine ⟨c, c.row.withStatus .failed t', i, i.withStatus .failed t,
      [w.failedEvent env c.claimed n code], ?_, hi, Dict.get?_set_self _ _ _,
      Dict.get?_set_self _ _ _, rfl, ⟨rfl, rfl, rfl⟩, ?_⟩
    · rw [← haudit]
      rfl
    · rw [hevent]
      refine .failed rfl env.attemptId
        (w.attemptRow env c.claimed (env.clock 1) n .failed (some code)) ?_ ?_ ?_ code ?_ _
      · exact Dict.get?_set_self _ _ _
      · rfl
      · rfl
      · rfl
  | retried c i code t t' hfind hstatus hprepare hleft hdup =>
    obtain ⟨hi, htenant⟩ := InvestigationRepository.find?_eq_some.mp hfind
    refine ⟨c, c.row.withStatus .queued t', i, i.withStatus .running t, [],
      (List.append_nil _).symm, hi, Dict.get?_set_self _ _ _, Dict.get?_set_self _ _ _, rfl,
      ⟨rfl, rfl, rfl⟩, .opened ?_⟩
    -- the trail stays open: the investigation is running
    show ¬ InvestigationStatus.running.Over
    simp [InvestigationStatus.Over]

omit [FloatHex F] [Sha256] in
/-- A store has one job to claim. -/
theorem Claim.job_eq {store : Store} (c c' : Claim w env store) : c.job = c'.job :=
  (c.same c' ⟨rfl, rfl, rfl⟩ rfl).1

/-- **A call of the worker closes a trail at most.** -/
theorem Trailed.ran (htrailed : Trailed S.store) (hlife : Lifecycle S.store drawn)
    (hnodup : (drawn ++ ids).Nodup) (h : w.Effect env S true T ids) : Trailed T.store := by
  obtain ⟨c, j', i, i', added, hlogs⟩ := logs_of_effect hlife h
  obtain ⟨c', j'', i₀, i₀', a, hadvance, rfl⟩ := advance_of_effect hlife h
  rw [c'.job_eq c] at hadvance
  obtain ⟨htenant, hid, -⟩ := hlogs.same
  have hadded : ∀ r ∈ added, r.tenant = i.tenant ∧ r.investigationId = some i.investigationId := by
    intro r hr
    rw [← htenant, ← hid]
    exact hlogs.trail.of_mem (List.mem_cons_of_mem _ hr)
  have hjobId : i.investigationId = c.job.investigationId :=
    InvestigationId.ext (hlife.investigationsKeyed _ _ hlogs.before).symm
  obtain ⟨hjobRow, -, i₁, hi₁, -, halive, -⟩ := c.alive hlife
  rw [hlogs.before] at hi₁
  obtain rfl := Option.some.inj hi₁
  have hfreshAttempt : S.store.attempts.get? a.attemptId.value = none := by
    cases hget : S.store.attempts.get? a.attemptId.value with
    | none => rfl
    | some x =>
      exact absurd List.mem_cons_self
        (List.disjoint_of_nodup_append hnodup (hlife.attemptsDrawn _ _ hget))
  obtain ⟨-, hinvestigations, -, -⟩ := hadvance.other
  -- until now only the creation was reported
  have hown : T.store.records i' = i'.createdEvent :: added := by
    obtain ⟨i₂, hi₂, htrail⟩ := htrailed.trail _ _ hjobRow
    rw [hlogs.before] at hi₂
    obtain rfl := Option.some.inj hi₂
    rw [records_own hlogs.audit htenant hid hadded, htrail.eq_created halive]
    show i.createdEvent :: added = _
    congr 1
    show (⟨_, _, _, _, _, _⟩ : AuditRecord) = ⟨_, _, _, _, _, _⟩
    rw [htenant, hid, hlogs.same.2.2]
  have hother : ∀ x : InvestigationRecord, x.investigationId ≠ i.investigationId →
      T.store.records x = S.store.records x := by
    intro x hx
    apply records_other hlogs.audit
    intro r hr heq
    exact hx (Option.some.inj (heq.symm.trans (hadded r hr).2))
  constructor
  · intro k j hj
    rcases hadvance.job_cases hj with ⟨rfl, rfl⟩ | ⟨hk, hj⟩
    · obtain rfl := Option.some.inj (hlogs.job.symm.trans hj)
      refine ⟨i', ?_, ?_⟩
      · rw [hlogs.jobInvestigation]
        exact hlogs.after
      · rw [hown]
        exact hlogs.trail
    · -- another job has another investigation
      have hne := hadvance.investigation_ne hlife hk hj
      obtain ⟨x, hx, htrail⟩ := htrailed.trail k j hj
      have hxId : x.investigationId = j.investigationId :=
        InvestigationId.ext (hlife.investigationsKeyed _ _ hx).symm
      have hxne : x.investigationId ≠ c.job.investigationId := by
        rw [hxId]
        exact fun heq => hne (congrArg InvestigationId.value heq)
      refine ⟨x, by rw [hinvestigations _ hne, hx], ?_⟩
      rw [hother x (by rw [hjobId]; exact hxne)]
      refine htrail.same (sameRows_of_advance hadvance hxne ?_ hfreshAttempt)
      intro heq
      have hkey : k = j.jobId.value := hlife.jobsKeyed k j hj
      exact hk (hkey.trans (congrArg JobId.value heq))
  · intro r hr
    rw [hlogs.audit] at hr
    rcases List.mem_append.mp hr with hr | hr
    · obtain ⟨k, x, hx, hrecords⟩ := htrailed.known r hr
      by_cases hk : k = c.job.investigationId.value
      · rw [hk, hlogs.before] at hx
        obtain rfl := Option.some.inj hx
        refine ⟨_, i', hlogs.after, ?_⟩
        rw [records_own hlogs.audit htenant hid hadded]
        exact List.mem_append_left _ hrecords
      · refine ⟨k, x, by rw [hinvestigations k hk, hx], ?_⟩
        rw [hother x]
        · exact hrecords
        · rw [hjobId]
          intro heq
          have hkey : k = x.investigationId.value := hlife.investigationsKeyed k x hx
          exact hk (hkey.trans (congrArg InvestigationId.value heq))
    · refine ⟨_, i', hlogs.after, ?_⟩
      rw [hown]
      exact List.mem_cons_of_mem _ hr

/-! ### Runs -/

/-- One call adds to the log and keeps it in order. -/
theorem trailed_commits {call : Call F} (htrailed : Trailed S.store)
    (hlife : Lifecycle S.store drawn) (hnodup : (drawn ++ ids).Nodup)
    (h : Commits S call T ids) : Trailed T.store ∧ S.store.audit <+: T.store.audit := by
  cases h with
  | nothing => exact ⟨htrailed, List.prefix_refl _⟩
  | created call env id _ _ heffect =>
    refine ⟨htrailed.created hlife heffect, ?_⟩
    cases heffect with
    | replayed => exact List.prefix_refl _
    | created => exact List.prefix_append _ _
  | ran worker env r _ _ heffect =>
    cases r with
    | false =>
      obtain rfl := eq_of_effect_false heffect
      exact ⟨htrailed, List.prefix_refl _⟩
    | true =>
      refine ⟨htrailed.ran hlife hnodup heffect, ?_⟩
      obtain ⟨_, _, _, _, added, hlogs⟩ := logs_of_effect hlife heffect
      rw [hlogs.audit]
      exact List.prefix_append _ _

variable [LawfulPyFloat F] {s s' : Service F}

theorem trailed_run {cs : List (Call F)} (hrun : Run (Service.system F) s cs s')
    (hlife : Lifecycle s.committed.store s.drawn) (htrailed : Trailed s.committed.store) :
    Trailed s'.committed.store ∧ s.committed.store.audit <+: s'.committed.store.audit := by
  induction hrun with
  | nil => exact ⟨htrailed, List.prefix_refl _⟩
  | cons hstep _ ih =>
    obtain ⟨ids, -, hnodup, hcommits⟩ :=
      commits_of_step hlife.investigationsKeyed hlife.investigationsDrawn hstep
    obtain ⟨hone, hprefix⟩ := trailed_commits htrailed hlife hnodup hcommits
    obtain ⟨hrest, hprefix'⟩ := ih (lifecycle_step hlife hstep) hone
    exact ⟨hrest, hprefix.trans hprefix'⟩

end worker

section control
variable {F : Type} [PyFloat F] [FloatHex F] [Sha256] [HexInt] [LawfulPyFloat F]
  {app : ControlPlane} {backend : Backend} {s s' : Service F} {events : List (ControlPlane.Event F)}

/-- **The audit log** in every state of the control plane and its workers, over either unit of
    work, whatever is refused or cancelled. The records listed for an investigation are its
    creation, and once it is over one more: by the worker of its last attempt, with the time of
    the stored report or the code of that attempt. Every record of the log is listed for one of
    the investigations there are, and what happens later only appends to the log. -/
theorem audit_trail (h : Reachable (app.system backend) s)
    (hrun : Run (app.system backend) s events s') :
    (∀ i ∈ s.committed.store.investigations.values, ∃ j,
      s.committed.store.jobs.values.filter (fun j => j.investigationId = i.investigationId) = [j] ∧
      Trail s.committed.store i j
        (AuditLog.listForInvestigation s.committed.store i.tenant i.investigationId)) ∧
    (∀ r ∈ s.committed.store.audit, ∃ i ∈ s.committed.store.investigations.values,
      r ∈ AuditLog.listForInvestigation s.committed.store i.tenant i.investigationId) ∧
    s.committed.store.audit <+: s'.committed.store.audit := by
  obtain ⟨m, hm, hmirrors⟩ := ControlPlane.mirrored h
  obtain ⟨cs, m', hrun', hmirrors'⟩ := hmirrors.control hrun
  have hlife := lifecycle_reachable hm
  have htrailed : Trailed m.committed.store := by
    obtain ⟨s₀, cs₀, rfl, hrun₀⟩ := hm
    exact (trailed_run hrun₀ lifecycle_empty trailed_empty).1
  obtain ⟨-, hprefix⟩ := trailed_run hrun' hlife htrailed
  rw [hmirrors.committed] at hlife htrailed hprefix
  rw [hmirrors'.committed] at hprefix
  refine ⟨fun i hi => ?_, fun r hr => ?_, hprefix⟩
  · have hget := hlife.investigationsKeyed.get?_of_mem hi
    obtain ⟨k, j, hj, hji⟩ := hlife.job _ _ hget
    obtain ⟨j₁, hlives⟩ := hlife.lives hi
    have hmem : j ∈ s.committed.store.jobs.values.filter
        (fun j => j.investigationId = i.investigationId) :=
      List.mem_filter.mpr ⟨Dict.mem_values.mpr ⟨k, hj⟩, decide_eq_true hji⟩
    rw [hlives.job] at hmem
    obtain rfl := List.mem_singleton.mp hmem
    obtain ⟨x, hx, htrail⟩ := htrailed.trail k j hj
    rw [hji] at hx
    obtain rfl := Option.some.inj (hget.symm.trans hx)
    exact ⟨j, hlives.job, htrail⟩
  · obtain ⟨k, i, hi, hrecords⟩ := htrailed.known r hr
    exact ⟨i, Dict.mem_values.mpr ⟨k, hi⟩, hrecords⟩

end control

open Demo in
/-- The log of a run that fails, before and after the call of the worker. -/
theorem audit_trail_demo :
    (∀ i ∈ createdService.committed.store.investigations.values, ∃ j,
      createdService.committed.store.jobs.values.filter
        (fun j => j.investigationId = i.investigationId) = [j] ∧
      Trail createdService.committed.store i j (AuditLog.listForInvestigation
        createdService.committed.store i.tenant i.investigationId)) ∧
    createdService.committed.store.audit <+: failedService.committed.store.audit := by
  obtain ⟨htrail, -, hprefix⟩ :=
    audit_trail created_reachable (.single (runOnce_step failedService_step))
  exact ⟨htrail, hprefix⟩

end IncidentEvidence
