import IncidentEvidence.Api.Board

/-! # What clients rely on

    In every state of the control plane both reads are answered by the ticket of the
    caller's tenant (`reads_show_ticket`). With the board this gives what a client sees
    over a whole run:

    1. After a 202 the investigation is always found, its status moves forward only, and
       an outcome stays with its report (`accepted_then_polled`).
    2. Creations of a run get the same id exactly under the same key of one tenant
       (`accepted_ids_iff`).
-/

namespace IncidentEvidence

open Py Py.Action Runs Tickets

/-! ### Answers by ticket -/

/-- The text of a ticket's progress. -/
def progressText : Progress ReportRecord → Str
  | .pending => str "pending"
  | .running => str "running"
  | .succeeded _ => str "succeeded"
  | .failed => str "failed"

/-- The content of the status of a ticket. -/
def ticketBody (id : InvestigationId) (progress : Progress ReportRecord) : Json :=
  jsonObj [
    ("investigation_id", .str id.value.str),
    ("status", .str (progressText progress))]

/-- The answer to a GET of the status, by the ticket of the tenant. -/
def statusReply (id : InvestigationId) : Option (Progress ReportRecord) → Response
  | some progress => ⟨200, ticketBody id progress⟩
  | none => notFoundResponse

/-- The answer to a GET of the report. -/
def ControlPlane.reportReply (app : ControlPlane) :
    Option (Progress ReportRecord) → Except PyException Response
  | some (.succeeded report) =>
    match app.reportBody report with
    | .ok content => .ok ⟨200, content⟩
    | .error e => exceptionHandler (.raised e)
  | some _ => .ok notReadyResponse
  | none => .ok notFoundResponse

/-- How far the tenant's investigation has come. -/
def Store.progress (S : Store) (tenant : TenantId) (id : InvestigationId) :
    Option (Progress ReportRecord) :=
  ((S.board id).filter fun t => t.owner = tenant).map (·.progress)

theorem progress_of_ticket {S : Store} {tenant : TenantId} {id : InvestigationId}
    {t : Ticket TenantId Str ReportRecord} (h : S.board id = some t) (howner : t.owner = tenant) :
    S.progress tenant id = some t.progress := by
  unfold Store.progress
  rw [h, Option.filter_some, if_pos (decide_eq_true howner)]
  rfl

section answers
variable {S : Store} {drawn : List UUID} [HexInt] {app : ControlPlane} {authorization : Option Str}
  {raw : Str} {tenant : TenantId} {id : InvestigationId}

omit [HexInt] in
/-- The rows of an investigation are its ticket. -/
theorem rows_of_progress (hlife : Lifecycle S drawn) (tenant : TenantId) (id : InvestigationId) :
    match InvestigationRepository.find? S tenant id with
    | none => S.progress tenant id = none
    | some record => record.investigationId = id ∧ ∃ progress, S.progress tenant id = some progress ∧
        record.status.value = progressText progress ∧
        ReportRepository.find? S tenant id =
          (match progress with
            | .succeeded report => some report
            | _ => none) := by
  unfold Store.progress Store.board InvestigationRepository.find? ReportRepository.find?
  cases hget : S.investigations.get? id.value with
  | none => rfl
  | some i =>
    have hid : i.investigationId = id := InvestigationId.ext (hlife.investigationsKeyed _ _ hget).symm
    by_cases htenant : i.tenant = tenant
    · have howner : (ticketOf S i).owner = tenant := htenant
      rw [Option.filter_some, if_pos (decide_eq_true htenant), Option.map_some, Option.filter_some,
        if_pos (decide_eq_true howner)]
      refine ⟨hid, (ticketOf S i).progress, rfl, ?_⟩
      -- the phase of the job says which status goes with which report
      obtain ⟨k, j, hj, hji⟩ := hlife.job _ _ hget
      obtain ⟨i', hi', -, hphase⟩ := hlife.phase k j hj
      rw [hji, hid] at hi' hphase
      rw [hget] at hi'
      obtain rfl := Option.some.inj hi'
      have hreported := hlife.reported id.value
      unfold ticketOf
      simp only [hid]
      generalize S.reports.get? id.value = report, i.status = status, j.status = jobStatus,
        j.attemptCount = count at hphase hreported ⊢
      cases hphase with
      | pending => exact ⟨rfl, rfl⟩
      | waiting => exact ⟨rfl, rfl⟩
      | succeeded n report =>
        obtain ⟨i', hi', hreport⟩ := hreported report rfl
        rw [hget] at hi'
        obtain rfl := Option.some.inj hi'
        refine ⟨rfl, ?_⟩
        rw [Option.filter_some, if_pos (decide_eq_true (hreport.trans htenant))]
        rfl
      | failed => exact ⟨rfl, rfl⟩
    -- neither the row nor the ticket is shown to another tenant
    · have howner : ¬ (ticketOf S i).owner = tenant := htenant
      rw [Option.filter_some, if_neg (by rw [decide_eq_true_iff]; exact htenant), Option.map_some,
        Option.filter_some, if_neg (by rw [decide_eq_true_iff]; exact howner)]
      rfl

theorem statusAnswer_eq (hlife : Lifecycle S drawn)
    (hlookup : app.lookup authorization raw = .ok (tenant, id)) :
    app.statusAnswer S authorization raw = .ok (statusReply id (S.progress tenant id)) := by
  have hrows := rows_of_progress hlife tenant id
  unfold ControlPlane.statusAnswer
  rw [hlookup]
  cases hfind : InvestigationRepository.find? S tenant id with
  | none =>
    rw [hfind] at hrows
    rw [hrows]
    simp only [hfind]
    rfl
  | some record =>
    rw [hfind] at hrows
    obtain ⟨hid, progress, hprogress, htext, -⟩ := hrows
    rw [hprogress]
    simp only [hfind]
    unfold statusBody statusReply ticketBody
    rw [hid, htext]

theorem reportAnswer_eq (hlife : Lifecycle S drawn)
    (hlookup : app.lookup authorization raw = .ok (tenant, id)) :
    app.reportAnswer S authorization raw = app.reportReply (S.progress tenant id) := by
  have hrows := rows_of_progress hlife tenant id
  unfold ControlPlane.reportAnswer
  rw [hlookup]
  cases hfind : InvestigationRepository.find? S tenant id with
  | none =>
    rw [hfind] at hrows
    rw [hrows]
    simp only [hfind]
    rfl
  | some record =>
    rw [hfind] at hrows
    obtain ⟨-, progress, hprogress, -, hreport⟩ := hrows
    rw [hprogress]
    simp only [hfind, hreport]
    cases progress with
    | succeeded report => rfl
    | pending | running | failed => rfl

theorem lookup_eq_ok : app.lookup authorization raw = .ok (tenant, id) ↔
    authenticate app.tokens authorization = .ok tenant ∧ UUID.ofText raw = some id.value := by
  simp only [ControlPlane.lookup, bind_eq_ok, pure_eq_ok]
  constructor
  · rintro ⟨tenant', htenant, id', hid, heq⟩
    obtain ⟨rfl, rfl⟩ := Prod.mk.inj heq
    unfold investigationIdOf at hid
    split at hid
    · rename_i value hvalue
      rw [← Except.ok.inj hid]
      exact ⟨htenant, hvalue⟩
    · cases hid
  · rintro ⟨htenant, hid⟩
    refine ⟨tenant, htenant, id, ?_, rfl⟩
    unfold investigationIdOf
    rw [hid]

end answers

/-! ### Reads -/

section reads
variable {F : Type} [PyFloat F] [FloatHex F] [Sha256] [HexInt] [LawfulPyFloat F]
  {app : ControlPlane} {backend : Backend} {s : Service F} {env : Surroundings} {draws : Draws}
  {authorization : Option Str} {raw : Str} {tenant : TenantId}

/-- What is answered to a request when it is asked next. -/
def ControlPlane.reply (app : ControlPlane) (backend : Backend) (env : Surroundings) (draws : Draws)
    (s : Service F) (request : Request) : Except PyException Response :=
  ((app.respond backend env draws request).exec (Session.start s.committed)).1

omit [PyFloat F] [FloatHex F] [Sha256] [LawfulPyFloat F] in
/-- The replies for an id, by its ticket. -/
theorem replies_of_id (hlife : Lifecycle s.committed.store s.drawn) (hcalm : env.Calm)
    (htenant : authenticate app.tokens authorization = .ok tenant) {value : UUID}
    (hid : UUID.ofText raw = some value) :
    app.reply backend env draws s (.status authorization raw) =
        .ok (statusReply ⟨value⟩ (s.committed.store.progress tenant ⟨value⟩)) ∧
      app.reply backend env draws s (.report authorization raw) =
        app.reportReply (s.committed.store.progress tenant ⟨value⟩) := by
  have hlookup : app.lookup authorization raw = .ok (tenant, ⟨value⟩) :=
    lookup_eq_ok.mpr ⟨htenant, hid⟩
  unfold ControlPlane.reply
  rw [respond_status hcalm, respond_report hcalm]
  exact ⟨statusAnswer_eq hlife hlookup, reportAnswer_eq hlife hlookup⟩

/-- **The reads show the caller's ticket.** In every state of the control plane, over either unit
    of work, a read that nothing disturbs is answered by how far the tenant's investigation has
    come. A text that is no UUID, an id nobody has and one of another tenant are answered
    alike. -/
theorem reads_show_ticket (hreachable : Reachable (app.system backend) s) (hcalm : env.Calm)
    (htenant : authenticate app.tokens authorization = .ok tenant) :
    app.reply backend env draws s (.status authorization raw) =
        .ok (match UUID.ofText raw with
          | some value => statusReply ⟨value⟩ (s.committed.store.progress tenant ⟨value⟩)
          | none => notFoundResponse) ∧
      app.reply backend env draws s (.report authorization raw) =
        (match UUID.ofText raw with
          | some value => app.reportReply (s.committed.store.progress tenant ⟨value⟩)
          | none => .ok notFoundResponse) := by
  cases hid : UUID.ofText raw with
  | some value => exact replies_of_id (ControlPlane.lifecycle hreachable) hcalm htenant hid
  | none =>
    have hlookup : app.lookup authorization raw =
        .error (.http 404 (str "investigation_not_found")) := by
      unfold ControlPlane.lookup investigationIdOf
      rw [htenant, hid]
      rfl
    unfold ControlPlane.reply
    rw [respond_status hcalm, respond_report hcalm]
    unfold ControlPlane.statusAnswer ControlPlane.reportAnswer
    rw [hlookup]
    exact ⟨rfl, rfl⟩

end reads

open Demo in
/-- The status of the investigation that failed. -/
theorem reads_show_ticket_demo :
    app.reply .memory calm draws failedService (.status header (UUID.str ⟨1, by decide⟩)) =
      .ok (statusReply ⟨⟨1, by decide⟩⟩ (some .failed)) := by
  have hread : app.reply .memory calm draws failedService
      (.status header (UUID.str ⟨1, by decide⟩)) = _ :=
    (reads_show_ticket failed_reachable calm_calm header_tenant).1
  rw [hread, UUID.ofText_str]
  rfl

/-! ### Polling -/

section polling
variable {F : Type} [PyFloat F] [FloatHex F] [Sha256] [HexInt] [LawfulPyFloat F] [LawfulHexInt]
  {app : ControlPlane} {backend : Backend} {s s₁ s₂ s₃ s₄ : Service F}
  {events events' : List (ControlPlane.Event F)} {env env' : Surroundings} {draws draws' : Draws}
  {authorization authorization' key key' : Option Str} {body body' : Body} {content content' : Json}

/-- Every read of the tenant that nothing disturbs is answered by this progress. -/
def ControlPlane.Polled (app : ControlPlane) (backend : Backend) (s : Service F) (tenant : TenantId)
    (id : InvestigationId) (progress : Progress ReportRecord) : Prop :=
  ∀ env draws authorization, env.Calm → authenticate app.tokens authorization = .ok tenant →
    app.reply backend env draws s (.status authorization id.value.str) =
        .ok ⟨200, ticketBody id progress⟩ ∧
      app.reply backend env draws s (.report authorization id.value.str) =
        app.reportReply (some progress)

omit [PyFloat F] [FloatHex F] [Sha256] [LawfulPyFloat F] in
theorem polled_of_ticket (hlife : Lifecycle s.committed.store s.drawn) {id : InvestigationId}
    {t : Ticket TenantId Str ReportRecord} (h : s.committed.store.board id = some t) :
    app.Polled backend s t.owner id t.progress := by
  intro env draws authorization hcalm htenant
  have hprogress : s.committed.store.progress t.owner id = some t.progress := progress_of_ticket h rfl
  show app.reply backend env draws s (.status authorization id.value.str) =
        .ok (statusReply id (some t.progress)) ∧
      app.reply backend env draws s (.report authorization id.value.str) =
        app.reportReply (some t.progress)
  rw [← hprogress]
  exact replies_of_id hlife hcalm htenant (UUID.ofText_str id.value)

omit [LawfulHexInt] in
/-- The submission behind a 202. -/
theorem submitted_of_accepted (hlife : Lifecycle s.committed.store s.drawn)
    (h : app.step backend s (.http (.create authorization key body) draws env
      (.ok ⟨202, content⟩)) s₁) :
    ∃ tenant id, authenticate app.tokens authorization = .ok tenant ∧ content = acceptedBody id ∧
      Tickets.Step s.committed.store.board (.submit tenant key id) s₁.committed.store.board := by
  obtain ⟨act, hshows, hact⟩ := control_shows hlife h
  generalize hevent : (ControlPlane.Event.http (.create authorization key body) draws env
    (.ok ⟨202, content⟩) : ControlPlane.Event F) = event at hshows
  cases hshows with
  | accepted authorization₁ key₁ body₁ draws₁ env₁ tenant id htenant =>
    obtain ⟨hrequest, -, -, hanswer⟩ := ControlPlane.Event.http.inj hevent
    obtain ⟨rfl, rfl, rfl⟩ := Request.create.inj hrequest
    obtain ⟨-, rfl⟩ := Response.mk.inj (Except.ok.inj hanswer)
    exact ⟨tenant, id, htenant, rfl, hact⟩
  | silent event hsilent => exact absurd rfl (hsilent _ _ _ _ hevent.symm)

/-- **After a 202** the client is never told that the investigation is not there: at any two later
    moments its reads are answered by a progress that has not gone back in between, and that has
    not changed once it was final. -/
theorem accepted_then_polled (hreachable : Reachable (app.system backend) s)
    (haccepted : app.step backend s (.http (.create authorization key body) draws env
      (.ok ⟨202, content⟩)) s₁)
    (hrun : Run (app.system backend) s₁ events s₂)
    (hrun' : Run (app.system backend) s₂ events' s₃) :
    ∃ tenant id p p', authenticate app.tokens authorization = .ok tenant ∧
      content = acceptedBody id ∧ app.Polled backend s₂ tenant id p ∧
      app.Polled backend s₃ tenant id p' ∧ p ≤ p' ∧ (p.Final → p' = p) := by
  obtain ⟨tenant, id, htenant, hcontent, hsubmit⟩ :=
    submitted_of_accepted (ControlPlane.lifecycle hreachable) haccepted
  obtain ⟨t, ht, howner, -⟩ := Tickets.Step.submitted hsubmit
  have hreachable₁ := hreachable.step haccepted
  have hreachable₂ := hreachable₁.run hrun
  have hreachable₃ := hreachable₂.run hrun'
  -- the ticket at the two later moments
  obtain ⟨_, -, hacts⟩ := control_run_shows hreachable₁ hrun
  obtain ⟨_, -, hacts'⟩ := control_run_shows hreachable₂ hrun'
  obtain ⟨t₂, ht₂, howner₂, -, -⟩ := Tickets.Run.onward hacts id t ht
  obtain ⟨t₃, ht₃, howner₃, -, hle⟩ := Tickets.Run.onward hacts' id t₂ ht₂
  have hpolled₂ : app.Polled backend s₂ t₂.owner id t₂.progress := polled_of_ticket
    (ControlPlane.lifecycle hreachable₂) ht₂
  have hpolled₃ : app.Polled backend s₃ t₃.owner id t₃.progress := polled_of_ticket
    (ControlPlane.lifecycle hreachable₃) ht₃
  rw [howner₂, howner] at hpolled₂
  rw [howner₃, howner₂, howner] at hpolled₃
  exact ⟨tenant, id, t₂.progress, t₃.progress, htenant, hcontent, hpolled₂, hpolled₃, hle,
    fun hfinal => hfinal.eq_of_le hle⟩

end polling

open Demo in
/-- The client polls before and after the call of the worker. -/
theorem accepted_then_polled_demo : ∃ tenant id p p',
    authenticate app.tokens header = .ok tenant ∧
      acceptedBody ⟨⟨1, by decide⟩⟩ = acceptedBody id ∧
      app.Polled .memory createdService tenant id p ∧
      app.Polled .memory failedService tenant id p' ∧ p ≤ p' ∧ (p.Final → p' = p) :=
  accepted_then_polled empty_reachable creation_step (.nil _)
    (.single (runOnce_step failedService_step))

/-! ### Creations -/

section creations
variable {F : Type} [PyFloat F] [FloatHex F] [Sha256] [HexInt]
  {app : ControlPlane} {backend : Backend} {s s₁ s₂ s₃ : Service F}
  {events : List (ControlPlane.Event F)} {env env' : Surroundings} {draws draws' : Draws}
  {authorization authorization' key key' : Option Str} {body body' : Body} {content content' : Json}

omit [Sha256] [HexInt] in
theorem acceptedBody_injective : Function.Injective acceptedBody := by
  intro id id' h
  have htext : id.value.str = id'.value.str := by simpa [acceptedBody, jsonObj] using h
  exact InvestigationId.ext (UUID.str_injective htext)

/-- An accepted creation that is answered with an id that was there has committed nothing. -/
theorem replay_commits_nothing (hlife : Lifecycle s.committed.store s.drawn)
    (h : app.step backend s (.http (.create authorization key body) draws env
      (.ok ⟨202, content⟩)) s₁) {id : InvestigationId} (hcontent : content = acceptedBody id)
    (hid : s.committed.store.board id ≠ none) : s₁.committed = s.committed := by
  cases hcommand : app.command authorization key body with
  | error e =>
    have hanswer : (.ok ⟨202, content⟩ : Except PyException Response) =
        ((app.respond backend env draws (.create authorization key body)).exec
          (Session.start s.committed)).1 := h.1
    rw [respond_refused hcommand] at hanswer
    exact absurd rfl (handled_ne_accepted (command_refused hcommand).ne_accepted hanswer.symm)
  | ok command =>
    rcases created_cases hlife h hcommand with ⟨id', ids, haccepted, heffect⟩ | ⟨e, -, hsame⟩
    · have hbody : content = acceptedBody id' := (Response.mk.inj (Except.ok.inj haccepted)).2
      obtain rfl : id = id' := acceptedBody_injective (hcontent.symm.trans hbody)
      generalize s₁.committed = T at heffect
      cases heffect with
      | replayed record existing hrecord hkey => rfl
      | created record job hrecord hjob hkey hnew hnewJob =>
        -- the id of a new investigation is not on the board
        obtain ⟨-, hmatch⟩ := CreateCall.matches_of_ok hrecord
        rw [hmatch] at hnew
        apply absurd _ hid
        unfold Store.board
        rw [hnew]
        rfl
    · exact hsame

variable [LawfulPyFloat F]

/-- **Two accepted creations of a run** get the same id exactly when they come from one tenant
    under one key, whatever their bodies are. The second one then commits nothing. -/
theorem accepted_ids_iff (hreachable : Reachable (app.system backend) s)
    (hfirst : app.step backend s (.http (.create authorization key body) draws env
      (.ok ⟨202, content⟩)) s₁)
    (hrun : Run (app.system backend) s₁ events s₂)
    (hsecond : app.step backend s₂ (.http (.create authorization' key' body') draws' env'
      (.ok ⟨202, content'⟩)) s₃) :
    (content = content' ↔ ∃ tenant, authenticate app.tokens authorization = .ok tenant ∧
        authenticate app.tokens authorization' = .ok tenant ∧ key = key' ∧ key.isSome = true) ∧
      (content = content' → s₃.committed = s₂.committed) := by
  have hreachable₁ := hreachable.step hfirst
  have hlife₂ := ControlPlane.lifecycle (hreachable₁.run hrun)
  obtain ⟨tenant, id, htenant, hcontent, hsubmit⟩ :=
    submitted_of_accepted (ControlPlane.lifecycle hreachable) hfirst
  obtain ⟨tenant', id', htenant', hcontent', hsubmit'⟩ := submitted_of_accepted hlife₂ hsecond
  obtain ⟨_, -, hacts⟩ := control_run_shows hreachable₁ hrun
  have hkeyed : Keyed s.committed.store.board := by
    obtain ⟨s₀, before, rfl, hbefore⟩ := hreachable
    obtain ⟨acts, -, hacts⟩ := control_run_shows ⟨_, [], rfl, .nil _⟩ hbefore
    exact keyed_of_reachable ⟨_, acts, rfl, hacts⟩
  have hsame : content = content' ↔ id = id' := by
    rw [hcontent, hcontent']
    exact acceptedBody_injective.eq_iff
  obtain ⟨hiff, -⟩ := Tickets.Run.same_ticket_iff hkeyed hsubmit hacts hsubmit'
  rw [hsame, hiff]
  refine ⟨⟨?_, ?_⟩, ?_⟩
  · rintro ⟨rfl, rfl, hsome⟩
    exact ⟨tenant, htenant, htenant', rfl, hsome⟩
  · rintro ⟨tenant₀, h₀, h₀', rfl, hsome⟩
    rw [htenant] at h₀
    rw [htenant'] at h₀'
    exact ⟨(Except.ok.inj h₀).trans (Except.ok.inj h₀').symm, rfl, hsome⟩
  · rintro hall
    -- the ticket of the first creation is still there
    obtain ⟨t, ht, -⟩ := Tickets.Step.submitted hsubmit
    obtain ⟨t', ht', -⟩ := Tickets.Run.onward hacts id t ht
    refine replay_commits_nothing hlife₂ hsecond hcontent' ?_
    rw [← hiff.mpr hall, ht']
    exact nofun

end creations

namespace Demo

/-- The creation again, with new ids. -/
def replay : ControlPlane.Event ExactFloat :=
  .http (.create header (some (str "key")) body) ⟨⟨⟨2, UUID.two_lt⟩⟩, ⟨⟨4, UUID.four_lt⟩⟩, ⟨0, Datetime.zero_lt⟩⟩
    calm (.ok ⟨202, acceptedBody ⟨⟨1, UUID.one_lt⟩⟩⟩)

/-- The service after it. -/
def replayedService : Service ExactFloat :=
  let again := ControlPlane.Event.session app .memory createdService.committed replay
  ⟨again.shared, createdService.drawn ++ again.drawn⟩

theorem replay_step : app.step .memory createdService replay replayedService := by
  refine ⟨?_, ?_, by decide +kernel, rfl⟩
  · show _ = ((app.respond .memory calm _ _).exec (Session.start createdService.committed)).1
    rw [respond_created creation_command]
    rfl
  · intro call hcall
    unfold replay ControlPlane.Event.call? at hcall
    simp only [ControlPlane.creation, creation_command, Option.map_some, Option.some.injEq] at hcall
    obtain rfl := hcall
    show _ ∉ createdService.drawn
    decide +kernel

end Demo

open Demo in
/-- The second creation commits nothing. -/
theorem accepted_ids_iff_demo : replayedService.committed = createdService.committed :=
  (accepted_ids_iff empty_reachable creation_step (.nil _) replay_step).2 rfl

end IncidentEvidence
