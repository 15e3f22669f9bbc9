import IncidentEvidence.Api.Clients
import IncidentEvidence.Api.ReportBodies
import IncidentEvidence.Application.Kept

/-! # What is served

    A report is served exactly when its investigation has succeeded, and its body is
    what was verified and ranked for it (`reports_served`). So no request that
    nothing disturbs is answered with an exception, except by the comparison of a
    token that is not ASCII (`control_answers`).
-/

namespace IncidentEvidence

open Py Py.Action Runs Tickets Serialization

/-! ### The stored reports -/

section stored
variable {F : Type} [PyFloat F] [FloatHex F] [Sha256] [HexInt] {app : ControlPlane}
  {backend : Backend} {s : Service F}

omit [HexInt] in
theorem versioned_callSession {S : Tracked F} (h : S.store.Versioned) (c : Call F) :
    (backend.callSession S c).shared.store.Versioned := by
  have hstart : Session.Both Store.Versioned (Session.start S) := ⟨h, h⟩
  cases backend with
  | memory =>
    cases c with
    | create call env => exact (versioned_execute call _ hstart).1
    | runOnce worker env => exact (versioned_runOnce _ hstart).1
  | postgres =>
    cases c with
    | create call env => exact (versioned_execute call _ hstart).1
    | runOnce worker env => exact (versioned_runOnce _ hstart).1

/-- Every report of the control plane has the schema version of the verifier. -/
theorem ControlPlane.versioned (h : Reachable (app.system backend) s) :
    s.committed.store.Versioned := by
  refine h.invariant (P := fun s : Service F => s.committed.store.Versioned) ?_ ?_
  · rintro s rfl k r hr
    cases hr
  · rintro s event s' hs hstep
    rcases control_step_cases hstep with ⟨-, rfl⟩ | ⟨c, -, hservice⟩
    · exact hs
    · have hcommitted : s'.committed = (backend.callSession s.committed c).shared := by
        cases backend with
        | memory =>
          obtain ⟨-, -, rfl⟩ := hservice
          rfl
        | postgres =>
          obtain ⟨-, -, rfl⟩ := hservice
          rfl
      rw [hcommitted]
      exact versioned_callSession hs c

variable [LawfulPyFloat F]

/-- **What a report rests on**, over either unit of work. -/
theorem ControlPlane.archived (h : Reachable (app.system backend) s) : Archived s.committed := by
  obtain ⟨m, hm, hmirrors⟩ := ControlPlane.mirrored h
  rw [← hmirrors.committed]
  exact (archived_reachable hm).2

end stored

/-! ### Reports -/

/-- The content of a served report. -/
def reportContent (id : InvestigationId) (report baseline : Json) : Json :=
  jsonObj [
    ("investigation_id", .str id.value.str),
    ("schema_version", .str VERIFICATION_SCHEMA_VERSION),
    ("report", report),
    ("baseline_ranking", baseline)]

theorem encodable_reportContent (id : InvestigationId) {report baseline : Json}
    (hreport : report.Encodable) (hbaseline : baseline.Encodable) :
    (reportContent id report baseline).Encodable :=
  ⟨encodable_str _, UUID.encodable_str _, encodable_str _, encodable_str _, encodable_str _, hreport,
    encodable_str _, hbaseline, trivial⟩

section reports
variable {F : Type} [PyFloat F] [FloatHex F] [Sha256] [HexInt] [LawfulPyFloat F]
  [InfinitePyFloat F] {app : ControlPlane} {backend : Backend} {s : Service F} {env : Surroundings}
  {draws : Draws} {authorization : Option Str} {raw : Str} {tenant : TenantId}
  {id : InvestigationId}

omit [Sha256] [HexInt] in
/-- What the progress of a ticket says of the rows. -/
theorem rows_of_succeeded {S : Store} {report : ReportRecord}
    (h : S.progress tenant id = some (.succeeded report)) :
    ∃ i, S.investigations.get? id.value = some i ∧ i.tenant = tenant ∧ i.status = .succeeded ∧
      S.reports.get? i.investigationId.value = some report := by
  unfold Store.progress at h
  obtain ⟨t, ht, hprogress⟩ := Option.map_eq_some_iff.mp h
  obtain ⟨hboard, howner⟩ := Option.filter_eq_some_iff.mp ht
  obtain ⟨i, hi, rfl⟩ := board_eq_some.mp hboard
  have hstatus : i.status.progress (S.reports.get? i.investigationId.value) = .succeeded report :=
    hprogress
  refine ⟨i, hi, of_decide_eq_true howner, ?_⟩
  generalize S.reports.get? i.investigationId.value = o, i.status = status at hstatus ⊢
  cases status with
  | succeeded =>
    cases o with
    | some r =>
      obtain rfl : r = report := Progress.succeeded.inj hstatus
      exact ⟨rfl, rfl⟩
    | none => cases hstatus
  | pending | running | failed | cancelled => cases hstatus

/-- The reply to a read of the report of an investigation that has succeeded. -/
theorem reportReply_of_succeeded (hreachable : Reachable (app.system backend) s)
    (hdepth : 4 ≤ app.depth) {i : InvestigationRecord}
    (hi : s.committed.store.investigations.get? id.value = some i) (htenant : i.tenant = tenant)
    (hstatus : i.status = .succeeded) :
    ∃ p r report baseline, s.committed.provenance.get? id.value = some p ∧
      s.committed.store.reports.get? id.value = some r ∧ Grounds i p r ∧
      verificationPayload p.verification = .ok report ∧ report.Encodable ∧
      baselineRankingPayload p.baseline = .ok baseline ∧ baseline.Encodable ∧
      app.reportReply (s.committed.store.progress tenant id) =
        .ok ⟨200, reportContent id report baseline⟩ := by
  have hlife := ControlPlane.lifecycle hreachable
  obtain ⟨p, r, hp, hr, hgrounds⟩ :=
    (ControlPlane.archived hreachable).of_succeeded hlife hi hstatus
  obtain ⟨report, baseline, hreport, hreportEncodable, hbaseline, hbaselineEncodable, hbody⟩ :=
    report_body_served hdepth hgrounds
  refine ⟨p, r, report, baseline, hp, hr, hgrounds, hreport, hreportEncodable, hbaseline,
    hbaselineEncodable, ?_⟩
  have hid : i.investigationId = id := InvestigationId.ext (hlife.investigationsKeyed _ _ hi).symm
  have hprogress : s.committed.store.progress tenant id = some (.succeeded r) := by
    rw [progress_of_ticket (board_eq_some.mpr ⟨i, hi, rfl⟩) htenant]
    show some (i.status.progress (s.committed.store.reports.get? i.investigationId.value)) = _
    rw [hstatus, hid, hr]
    rfl
  rw [hprogress]
  unfold ControlPlane.reportReply
  simp only [hbody]
  have hversion : r.schemaVersion.1 = VERIFICATION_SCHEMA_VERSION :=
    ControlPlane.versioned hreachable _ _ hr
  unfold servedBody reportContent
  rw [hgrounds.investigationId, hid, hversion]

/-- **What is served as a report.** In every state of the control plane, over either unit of work, a
    read of a report that nothing disturbs is answered with 200 exactly when the tenant's
    investigation has succeeded. The body has the payloads of the verification and of the
    ranking the report was made from, as the serializers wrote them. -/
theorem reports_served (hreachable : Reachable (app.system backend) s) (hcalm : env.Calm)
    (hdepth : 4 ≤ app.depth) (htenant : authenticate app.tokens authorization = .ok tenant)
    (hid : UUID.ofText raw = some id.value) (content : Json) :
    app.reply backend env draws s (.report authorization raw) = .ok ⟨200, content⟩ ↔
      ∃ i p r report baseline, s.committed.store.investigations.get? id.value = some i ∧
        i.tenant = tenant ∧ i.status = .succeeded ∧
        s.committed.provenance.get? id.value = some p ∧
        s.committed.store.reports.get? id.value = some r ∧ Grounds i p r ∧
        verificationPayload p.verification = .ok report ∧
        baselineRankingPayload p.baseline = .ok baseline ∧
        content = reportContent id report baseline := by
  rw [(replies_of_id (ControlPlane.lifecycle hreachable) hcalm htenant hid).2]
  constructor
  · intro h
    unfold ControlPlane.reportReply at h
    split at h
    · rename_i report hprogress
      obtain ⟨i, hi, howner, hstatus, -⟩ := rows_of_succeeded hprogress
      obtain ⟨p, r, report, baseline, hp, hr, hgrounds, hreport, -, hbaseline, -, hreply⟩ :=
        reportReply_of_succeeded hreachable hdepth hi howner hstatus
      refine ⟨i, p, r, report, baseline, hi, howner, hstatus, hp, hr, hgrounds, hreport, hbaseline, ?_⟩
      unfold ControlPlane.reportReply at hreply
      rw [hprogress] at hreply
      exact (Response.mk.inj (Except.ok.inj (h.symm.trans hreply))).2
    · cases h
    · cases h
  · rintro ⟨i, p, r, report, baseline, hi, howner, hstatus, hp, -, -, hreport, hbaseline, rfl⟩
    obtain ⟨p', r', report', baseline', hp', -, -, hreport', -, hbaseline', -, hreply⟩ :=
      reportReply_of_succeeded hreachable hdepth hi howner hstatus
    rw [hp] at hp'
    obtain rfl := Option.some.inj hp'
    rw [hreport] at hreport'
    rw [hbaseline] at hbaseline'
    rw [hreply, Except.ok.inj hreport', Except.ok.inj hbaseline']

end reports

namespace Demo

/-- The investigation of the demonstration when it has succeeded. -/
theorem succeeded_control : Reachable (app.system .memory) succeededService ∧
    ∃ i, succeededService.committed.store.investigations.get? ⟨1, by decide⟩ = some i ∧
      i.tenant = ⟨str "tenant"⟩ ∧ i.status = .succeeded := by
  obtain ⟨_, r, hstep, -, hr, -⟩ := succeededService_step
  have hreachable := created_reachable.step (runOnce_step hstep)
  have hlife := ControlPlane.lifecycle hreachable
  obtain ⟨i, _, hi, -, -⟩ := (ControlPlane.archived hreachable).grounded _ r hr
  refine ⟨hreachable, i, hi, ?_, succeeded_of_report hlife hi hr⟩
  -- a ticket keeps its owner
  obtain ⟨_, -, hact⟩ := control_shows (ControlPlane.lifecycle created_reachable) (runOnce_step hstep)
  obtain ⟨t, ht, howner, -⟩ := Tickets.Step.onward hact ⟨⟨1, by decide⟩⟩ _ rfl
  obtain ⟨i', hi', rfl⟩ := board_eq_some.mp ht
  rw [show succeededService.committed.store.investigations.get? ⟨1, by decide⟩ = some i' from hi'] at hi
  obtain rfl := Option.some.inj hi
  exact howner

end Demo

open Demo in
theorem reports_served_demo : ∃ content,
    app.reply .memory calm draws succeededService (.report header (UUID.str ⟨1, by decide⟩)) =
      .ok ⟨200, content⟩ := by
  obtain ⟨hreachable, i, hi, htenant, hstatus⟩ := succeeded_control
  have hi : succeededService.committed.store.investigations.get?
      (InvestigationId.mk ⟨1, by decide⟩).value = some i := hi
  obtain ⟨p, r, report, baseline, hp, hr, hgrounds, hreport, -, hbaseline, -, -⟩ :=
    reportReply_of_succeeded hreachable (by decide) hi htenant hstatus
  exact ⟨_, (reports_served hreachable calm_calm (by decide) header_tenant (UUID.ofText_str _) _).mpr
    ⟨i, p, r, report, baseline, hi, htenant, hstatus, hp, hr, hgrounds, hreport, hbaseline, rfl⟩⟩

/-! ### No exceptions -/

/-- What a request presents for the comparison with the tokens, when it gets there. -/
def Request.credential : Request → Option Str
  | .health => none
  | .create authorization _ body =>
    match body.read with
    | .ok () => IncidentEvidence.credential authorization
    | .error _ => none
  | .status authorization _ | .report authorization _ => IncidentEvidence.credential authorization

section answers
variable {F : Type} {app : ControlPlane} {backend : Backend} {env : Surroundings} {S : Tracked F}

/-- A creation that nothing disturbs returns, when its ids are new. -/
theorem execute_granted (hcalm : env.Calm) {call : CreateCall} {record : InvestigationRecord}
    {job : JobRecord} (hrecord : call.investigation = .ok record) (hjob : call.job = .ok job)
    (hnew : S.store.investigations.get? record.investigationId.value = none)
    (hnewJob : S.store.jobs.get? job.jobId.value = none) :
    Wp (CreateInvestigation.execute backend env call) (Session.start S) (fun _ _ => True)
      (fun _ _ => False) := by
  have hcommit : ∀ s : Session F, s.aborted = false →
      Wp (commit backend env) s (fun _ _ => True) (fun _ _ => False) :=
    fun s haborted => wp_commit_granted (hcalm.cancelled _) (hcalm.fails _) haborted trivial
  -- what follows the row of the investigation
  have hrest : ∀ (s : Session F) (stored : InvestigationRecord), s.aborted = false →
      s.working.store.jobs = S.store.jobs →
      Wp (do
        if stored.investigationId = call.investigationId then
          let _ ← drawId call.jobId.value
          let job ← lift call.job
          let _ ← statement backend env (onStore (JobQueue.enqueue job))
          recordAudit backend env call.event
        commit backend env
        return stored.investigationId) s (fun _ _ => True) (fun _ _ => False) := by
    intro s stored haborted hjobs
    by_cases hid : stored.investigationId = call.investigationId
    · simp only [if_pos hid]
      unfold drawId
      simp only [wp_bind, wp_modify, wp_pure]
      refine wp_lift_ok hjob ?_
      have henqueue := JobQueue.enqueue_exec job s.working.store
      rw [hjobs, hnewJob, if_neg (by decide)] at henqueue
      refine wp_onStore_granted (hcalm.cancelled _) (hcalm.fails _) haborted henqueue ?_
      refine wp_onStore_granted (hcalm.cancelled _) (hcalm.fails _) haborted
        (AuditLog.record_exec _ _) ?_
      exact hcommit _ haborted
    · simp only [if_neg hid, wp_bind]
      exact hcommit s haborted
  unfold CreateInvestigation.execute
  rw [wp_bind]
  refine wp_drawId fun s₀ h₀ => ?_
  refine wp_scope_granted (hcalm.cancelled _) ?_
  simp only [wp_bind]
  refine wp_lift_ok hrecord ?_
  have hshared : s₀.shared = S := h₀.shared
  have hexec := InvestigationRepository.create_exec record s₀.shared.store
  rw [hshared] at hexec ⊢
  cases hkey : InvestigationRepository.byKey S.store record.tenant record.idempotencyKey with
  | some existing =>
    rw [hkey] at hexec
    refine wp_onStore_granted (hcalm.cancelled _) (hcalm.fails _) rfl hexec ?_
    exact hrest _ existing rfl rfl
  | none =>
    rw [hkey] at hexec
    simp only [hnew, Option.isSome_none, Bool.false_eq_true, if_false] at hexec
    refine wp_onStore_granted (hcalm.cancelled _) (hcalm.fails _) rfl hexec ?_
    exact hrest _ record rfl rfl

/-- The records of a creation that passed the checks. -/
theorem records_of_command {authorization key : Option Str} {body : Body} {draws : Draws}
    {command : CreateInvestigationCommand} (h : app.command authorization key body = .ok command) :
    ∃ record job, (draws.call command).investigation = .ok record ∧
      (draws.call command).job = .ok job ∧ record.investigationId = draws.investigationId ∧
      job.jobId = draws.jobId := by
  obtain ⟨-, hkey⟩ := command_eq_ok h
  have hvisible : ∀ k, key = some k → isBlank k = false := by
    rintro k rfl
    simp only [ControlPlane.command, bind_eq_ok] at h
    obtain ⟨_, -, _, -, _, -, _, hchecked, -⟩ := h
    simp only [checkIdempotencyKey] at hchecked
    split at hchecked
    · cases hchecked
    · rename_i hnot
      exact Bool.eq_false_iff.mpr fun hblank => hnot (Or.inl hblank)
  obtain ⟨t, ht⟩ : ∃ t, CreateInvestigation.checkOptionalText command.idempotencyKey = .ok t := by
    rw [hkey]
    cases key with
    | none => exact ⟨none, rfl⟩
    | some k =>
      exact ⟨some ⟨k, hvisible k rfl⟩, CreateInvestigation.checkOptionalText_eq_ok.mpr rfl⟩
  let record : InvestigationRecord := ⟨draws.investigationId, command.tenant, command.incident,
    command.run, command.window, .pending, t, draws.now, draws.now⟩
  let job : JobRecord := ⟨draws.jobId, draws.investigationId, command.tenant, .queued, draws.now, none,
    none, none, 0, 3, draws.now, draws.now⟩
  refine ⟨record, job, ?_, ?_, rfl, rfl⟩
  · exact CreateInvestigation.investigationRecord_eq_ok.mpr
      ⟨CreateInvestigation.checkOptionalText_eq_ok.mp ht, rfl⟩
  · exact CreateInvestigation.jobRecord_eq_ok.mpr ⟨rfl, rfl⟩

theorem authenticate_incomparable {authorization : Option Str} {token : Str}
    (hcredential : credential authorization = some token) (h : ¬ app.tokens.Comparable token) :
    authenticate app.tokens authorization = .error (.raised .typeError) := by
  rw [TokenRegistry.authenticate_eq, hcredential]
  simp only [TokenRegistry.tenantFor_raises h]

/-- A response of the API, with a content that can be rendered. -/
def Answerable (reply : Except PyException Response) : Prop :=
  ∃ response, reply = .ok response ∧ response.status ∈ [200, 202, 400, 401, 404, 409, 422] ∧
    response.content.Encodable

theorem answerable_ok {status : ℕ} {content : Json}
    (hstatus : status ∈ [200, 202, 400, 401, 404, 409, 422]) (hcontent : content.Encodable) :
    Answerable (.ok ⟨status, content⟩) := ⟨_, rfl, hstatus, hcontent⟩

theorem encodable_errorBody {code : Str} (h : Encodable code) : (errorBody code).Encodable :=
  ⟨encodable_str _, h, trivial⟩

/-- A refusal is answered, unless a token could not be compared. -/
theorem Refusal.answerable {authorization : Option Str} {e : RouteError}
    (h : Refusal app authorization e)
    (hcomparable : ∀ token, credential authorization = some token → app.tokens.Comparable token) :
    Answerable (exceptionHandler e) := by
  cases h with
  | http status code hstatus hcode =>
    refine ⟨_, rfl, ?_, encodable_errorBody hcode⟩
    simp only [List.mem_cons, List.not_mem_nil, or_false] at hstatus ⊢
    omega
  | incomparable token hcredential h => exact absurd (hcomparable token hcredential) h

theorem encodable_ticketBody (id : InvestigationId) (progress : Progress ReportRecord) :
    (ticketBody id progress).Encodable := by
  refine ⟨encodable_str _, UUID.encodable_str _, encodable_str _, ?_, trivial⟩
  cases progress with
  | pending | running | succeeded | failed => exact encodable_str _

variable [PyFloat F] [FloatHex F] [Sha256] [HexInt] [LawfulPyFloat F] [InfinitePyFloat F]
  {s : Service F} {draws : Draws} {request : Request}

omit [PyFloat F] [FloatHex F] [Sha256] [LawfulPyFloat F] [InfinitePyFloat F] in
/-- A token that cannot be compared ends the request. -/
theorem reply_incomparable (hcalm : env.Calm) {token : Str}
    (hcredential : request.credential = some token) (h : ¬ app.tokens.Comparable token) :
    app.reply backend env draws s request = .error .typeError := by
  unfold ControlPlane.reply
  cases request with
  | health => cases hcredential
  | create authorization key body =>
    simp only [Request.credential] at hcredential
    cases hread : body.read with
    | error e =>
      rw [hread] at hcredential
      cases hcredential
    | ok _ =>
      rw [hread] at hcredential
      have hcommand : app.command authorization key body = .error (.raised .typeError) := by
        unfold ControlPlane.command
        rw [hread, authenticate_incomparable hcredential h]
        rfl
      rw [respond_refused hcommand]
      rfl
  | status authorization raw =>
    rw [respond_status hcalm]
    unfold ControlPlane.statusAnswer ControlPlane.lookup
    rw [authenticate_incomparable hcredential h]
    rfl
  | report authorization raw =>
    rw [respond_report hcalm]
    unfold ControlPlane.reportAnswer ControlPlane.lookup
    rw [authenticate_incomparable hcredential h]
    rfl

/-- **Every other request is answered.** -/
theorem reply_answerable (hreachable : Reachable (app.system backend) s) (hcalm : env.Calm)
    (hdepth : 4 ≤ app.depth) (hid : draws.investigationId.value ∉ s.drawn)
    (hjob : draws.jobId.value ∉ s.drawn)
    (hcomparable : ∀ token, request.credential = some token → app.tokens.Comparable token) :
    Answerable (app.reply backend env draws s request) := by
  have hlife := ControlPlane.lifecycle hreachable
  have hnotFound : Answerable (.ok notFoundResponse) :=
    answerable_ok (by decide) (encodable_errorBody (encodable_str _))
  cases request with
  | health => exact answerable_ok (by decide) ⟨encodable_str _, encodable_str _, trivial⟩
  | create authorization key body =>
    unfold ControlPlane.reply
    cases hcommand : app.command authorization key body with
    | ok command =>
      rw [respond_created hcommand]
      obtain ⟨record, job, hrecord, hjobRecord, hrecordId, hjobId⟩ := records_of_command hcommand
      have hreturns : Wp (CreateInvestigation.execute backend env (draws.call command))
          (Session.start s.committed) (fun _ _ => True) (fun _ _ => False) := execute_granted hcalm hrecord hjobRecord
        (by
          rw [hrecordId]
          cases hget : s.committed.store.investigations.get? draws.investigationId.value with
          | none => rfl
          | some i => exact absurd (hlife.investigationsDrawn _ _ hget) hid)
        (by
          rw [hjobId]
          cases hget : s.committed.store.jobs.get? draws.jobId.value with
          | none => rfl
          | some j => exact absurd (hlife.jobsDrawn _ _ hget) hjob)
      rcases hexec : (CreateInvestigation.execute backend env (draws.call command)).exec
        (Session.start s.committed) with ⟨v, t⟩
      cases v with
      | ok id => exact answerable_ok (by decide) ⟨encodable_str _, UUID.encodable_str _, trivial⟩
      | error e => exact (hreturns.of_error hexec).elim
    | error e =>
      rw [respond_refused hcommand]
      -- a body that is not read is refused whatever is presented
      cases hread : body.read with
      | ok _ =>
        refine (command_refused hcommand).answerable fun token htoken => hcomparable token ?_
        simp only [Request.credential, hread]
        exact htoken
      | error e' =>
        obtain rfl : e' = e := by
          unfold ControlPlane.command at hcommand
          rw [hread] at hcommand
          exact Except.error.inj hcommand
        cases body with
        | malformed =>
          obtain rfl := Except.error.inj hread
          exact answerable_ok (by decide) (encodable_errorBody (encodable_str _))
        | unreadable =>
          obtain rfl := Except.error.inj hread
          exact answerable_ok (by decide) (encodable_errorBody (encodable_str _))
        | invalid => cases hread
        | valid request => cases hread
  | status authorization raw =>
    unfold ControlPlane.reply
    rw [respond_status hcalm]
    cases hlookup : app.lookup authorization raw with
    | error e =>
      unfold ControlPlane.statusAnswer
      rw [hlookup]
      exact (lookup_refused hlookup).answerable hcomparable
    | ok found =>
      obtain ⟨tenant, id⟩ := found
      rw [statusAnswer_eq hlife hlookup]
      cases s.committed.store.progress tenant id with
      | none => exact hnotFound
      | some progress => exact answerable_ok (by decide) (encodable_ticketBody id progress)
  | report authorization raw =>
    unfold ControlPlane.reply
    rw [respond_report hcalm]
    cases hlookup : app.lookup authorization raw with
    | error e =>
      unfold ControlPlane.reportAnswer
      rw [hlookup]
      exact (lookup_refused hlookup).answerable hcomparable
    | ok found =>
      obtain ⟨tenant, id⟩ := found
      rw [reportAnswer_eq hlife hlookup]
      cases hprogress : s.committed.store.progress tenant id with
      | none => exact hnotFound
      | some progress =>
        cases progress with
        | succeeded report =>
          obtain ⟨i, hi, howner, hstatus, -⟩ := rows_of_succeeded hprogress
          obtain ⟨_, _, report, baseline, -, -, -, -, hreport, -, hbaseline, hreply⟩ :=
            reportReply_of_succeeded hreachable hdepth hi howner hstatus
          rw [hprogress] at hreply
          rw [hreply]
          exact answerable_ok (by decide) (encodable_reportContent id hreport hbaseline)
        | pending | running | failed =>
          exact answerable_ok (by decide) (encodable_errorBody (encodable_str _))

/-- **The control plane answers.** In every state of the control plane, over either unit of work, a
    request that nothing disturbs is answered with one of seven statuses and a content that
    can be rendered. Only a token that cannot be compared with the registered ones is answered
    with an exception, and then always. -/
theorem control_answers (hreachable : Reachable (app.system backend) s) (hcalm : env.Calm)
    (hdepth : 4 ≤ app.depth) (hid : draws.investigationId.value ∉ s.drawn)
    (hjob : draws.jobId.value ∉ s.drawn) :
    ((∀ token, request.credential = some token → app.tokens.Comparable token) ↔
        Answerable (app.reply backend env draws s request)) ∧
      ∀ e, app.reply backend env draws s request = .error e ↔
        e = .typeError ∧ ∃ token, request.credential = some token ∧ ¬ app.tokens.Comparable token := by
  by_cases h : ∀ token, request.credential = some token → app.tokens.Comparable token
  · have hanswer := reply_answerable hreachable hcalm hdepth hid hjob h
    refine ⟨⟨fun _ => hanswer, fun _ => h⟩, fun e => ⟨fun he => ?_, ?_⟩⟩
    · obtain ⟨response, hresponse, -⟩ := hanswer
      rw [he] at hresponse
      cases hresponse
    · rintro ⟨-, token, htoken, hnot⟩
      exact absurd (h token htoken) hnot
  · push Not at h
    obtain ⟨token, htoken, hnot⟩ := h
    have hraised : app.reply backend env draws s request = .error .typeError :=
      reply_incomparable hcalm htoken hnot
    rw [hraised]
    refine ⟨⟨fun h => absurd (h token htoken) hnot, ?_⟩, fun e => ⟨fun he => ?_, ?_⟩⟩
    · rintro ⟨response, hresponse, -⟩
      cases hresponse
    · exact ⟨(Except.error.inj he).symm, token, htoken, hnot⟩
    · rintro ⟨rfl, -⟩
      rfl

end answers

open Demo in
/-- A token that is not ASCII. -/
theorem control_answers_demo :
    app.reply .memory calm ⟨⟨⟨2, by decide⟩⟩, ⟨⟨4, by decide⟩⟩, ⟨0, by decide⟩⟩ createdService
      (.status (some (str "Bearer é")) []) = .error .typeError := by
  refine ((control_answers created_reachable calm_calm (by decide) (by decide +kernel)
    (by decide +kernel)).2 _).mpr ⟨rfl, str "é", by decide +kernel, ?_⟩
  intro h
  exact absurd (h (str "secret", ⟨str "tenant"⟩) List.mem_cons_self).2 (by decide +kernel)

end IncidentEvidence
