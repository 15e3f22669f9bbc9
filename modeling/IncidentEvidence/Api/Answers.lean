import IncidentEvidence.Api.App
import IncidentEvidence.Application.Isolation
import IncidentEvidence.Application.Unrefused

/-! # Answers

    What a request does to the committed tables: a creation that gets as far as the use
    case does what the use case does, and every other request changes nothing
    (`respond_created`, `respond_refused`, `keeps_respond`).

    What is answered when nothing disturbs a read is a function of the rows of the
    tenant, over either unit of work (`respond_status`, `respond_report`).
-/

namespace IncidentEvidence

open Py Py.Action

/-! ### What a request does -/

section effects
variable {F : Type} {backend : Backend} {env : Surroundings} {app : ControlPlane}

/-- What others have of a request: the committed tables and the ids that were drawn. -/
def Session.effects (s : Session F) : Tracked F × List UUID := (s.shared, s.drawn)

theorem effects_statement {α : Type} (x : Action PyException (Tracked F) α) :
    Keeps Session.effects (statement backend env x) := by
  have hawaiting : Keeps Session.effects (awaiting (F := F) env) := by
    intro s
    rw [exec_awaiting]
    rfl
  have hworking : Keeps Session.effects (onWorking x) := fun _ => rfl
  unfold statement
  refine Keeps.get.bind fun before => hawaiting.bind fun _ => ?_
  cases backend with
  | memory => exact hworking
  | postgres =>
    unfold Postgres.statement
    refine Keeps.get.bind fun s => .ite (.throw _) (.ite ?_ ?_)
    · exact Keeps.bind (fun _ => rfl) fun _ => .throw _
    · refine hworking.attempt.bind fun r => ?_
      cases r with
      | ok a => exact .pure a
      | error e => exact .ite (Keeps.bind (fun _ => rfl) fun _ => .throw e) (.throw e)

theorem effects_scope {α : Type} {body : Action PyException (Session F) α}
    (h : Keeps Session.effects body) : Keeps Session.effects (scope env body) := by
  unfold scope
  refine Keeps.bind ?_ fun _ => ?_
  · intro s
    rw [exec_awaiting]
    rfl
  · refine Keeps.bind (fun _ => rfl) fun _ => h.attempt.bind fun result => ?_
    exact Keeps.bind (fun _ => rfl) fun _ => .lift result

theorem effects_status (tenant : TenantId) (id : InvestigationId) :
    Keeps Session.effects (GetInvestigationStatus.execute (F := F) backend env tenant id) := by
  unfold GetInvestigationStatus.execute
  refine effects_scope ((effects_statement _).attempt.bind fun v => ?_)
  split
  · exact .pure _
  · exact .throw _
  · exact .throw _

theorem effects_report (tenant : TenantId) (id : InvestigationId) :
    Keeps Session.effects (GetReport.execute (F := F) backend env tenant id) := by
  unfold GetReport.execute
  refine effects_scope ((effects_statement _).attempt.bind fun v => ?_)
  split
  · refine (effects_statement _).attempt.bind fun r => ?_
    split
    · exact .pure _
    · exact .throw _
    · exact .throw _
  · exact .throw _
  · exact .throw _

theorem exec_useCase {α : Type} (x : Action PyException (Session F) α) (s : Session F) :
    (useCase x).exec s = ((x.exec s).1.mapError .raised, (x.exec s).2) := by
  unfold useCase
  rw [exec_bind, exec_attempt]
  rcases x.exec s with ⟨v, t⟩
  cases v with
  | ok a => rfl
  | error e => rfl

theorem effects_useCase {α : Type} {x : Action PyException (Session F) α}
    (h : Keeps Session.effects x) : Keeps Session.effects (useCase x) := by
  intro s
  rw [exec_useCase]
  exact h s

/-- The content of a 202. -/
def acceptedBody (id : InvestigationId) : Json :=
  jsonObj [("investigation_id", .str id.value.str)]

variable [HexInt] {draws : Draws} {authorization idempotencyKey : Option Str} {body : Body}

/-- A creation that passes the checks. -/
theorem respond_created {command : CreateInvestigationCommand}
    (h : app.command authorization idempotencyKey body = .ok command) (s : Session F) :
    (app.respond backend env draws (.create authorization idempotencyKey body)).exec s =
      match (CreateInvestigation.execute backend env (draws.call command)).exec s with
      | (.ok id, t) => (.ok ⟨202, acceptedBody id⟩, t)
      | (.error e, t) => (exceptionHandler (.raised e), t) := by
  unfold ControlPlane.respond ControlPlane.route ControlPlane.create
  simp only [exec_bind, exec_attempt, exec_lift, exec_useCase, h]
  rcases (CreateInvestigation.execute backend env (draws.call command)).exec s with ⟨v, t⟩
  cases v with
  | ok id => rfl
  | error e => rfl

/-- A creation that is refused before it is one. -/
theorem respond_refused {e : RouteError}
    (h : app.command authorization idempotencyKey body = .error e) (s : Session F) :
    (app.respond backend env draws (.create authorization idempotencyKey body)).exec s =
      (exceptionHandler e, s) := by
  unfold ControlPlane.respond ControlPlane.route ControlPlane.create
  simp only [exec_bind, exec_attempt, exec_lift, h]

/-- The creation behind a request. -/
def ControlPlane.creation (app : ControlPlane) (draws : Draws) : Request → Option CreateCall
  | .create authorization idempotencyKey body =>
    match app.command authorization idempotencyKey body with
    | .ok command => some (draws.call command)
    | .error _ => none
  | _ => none

omit [HexInt] in
/-- **A request that creates nothing** leaves everything as it is. -/
theorem keeps_handled (v : Except RouteError Response) : Keeps (Session.effects (F := F))
    (match v with
      | .ok response => pure response
      | .error e => lift (exceptionHandler e) : Action PyException (Session F) Response) := by
  cases v with
  | ok response => exact .pure response
  | error e => exact .lift _

theorem keeps_respond {request : Request} (h : app.creation draws request = none) :
    Keeps Session.effects (app.respond (F := F) backend env draws request) := by
  cases request with
  | health => exact Keeps.bind (Keeps.attempt (.pure _)) keeps_handled
  | create authorization idempotencyKey body =>
    intro s
    cases hcommand : app.command authorization idempotencyKey body with
    | ok command => simp [ControlPlane.creation, hcommand] at h
    | error e => rw [respond_refused hcommand]
  | status authorization raw =>
    refine Keeps.bind (Keeps.attempt ?_) keeps_handled
    refine Keeps.bind ?_ fun _ => .pure _
    unfold ControlPlane.status
    exact (Keeps.lift _).bind fun _ => (effects_useCase (effects_status _ _)).bind fun _ => .pure _
  | report authorization raw =>
    refine Keeps.bind (Keeps.attempt ?_) keeps_handled
    refine Keeps.bind ?_ fun _ => .pure _
    unfold ControlPlane.report
    refine (Keeps.lift _).bind fun _ => (effects_useCase (effects_report _ _)).bind fun record => ?_
    exact effects_useCase (.lift _)

end effects

/-! ### Refusals -/

section refusals
variable {app : ControlPlane} {authorization : Option Str}

/-- How a request is refused before a use case is called: with a status of the API and a code,
    or because the token that is presented cannot be compared. -/
inductive Refusal (app : ControlPlane) (authorization : Option Str) : RouteError → Prop where
  | http (status : ℕ) (code : Str) (h : status ∈ [400, 401, 404, 422]) (hcode : Encodable code) :
      Refusal app authorization (.http status code)
  | incomparable (token : Str) (hcredential : credential authorization = some token)
      (h : ¬ app.tokens.Comparable token) : Refusal app authorization (.raised .typeError)

theorem authenticate_refused {e : RouteError} (h : authenticate app.tokens authorization = .error e) :
    Refusal app authorization e := by
  rw [TokenRegistry.authenticate_eq] at h
  cases hcredential : credential authorization with
  | none =>
    rw [hcredential] at h
    obtain rfl := Except.error.inj h
    exact .http _ _ (by decide) (encodable_str _)
  | some token =>
    simp only [hcredential] at h
    by_cases hcomparable : app.tokens.Comparable token
    · rw [TokenRegistry.tenantFor_eq_get? hcomparable] at h
      cases hget : app.tokens.tokens.get? token with
      | none =>
        rw [hget] at h
        obtain rfl := Except.error.inj h
        exact .http _ _ (by decide) (encodable_str _)
      | some tenant =>
        rw [hget] at h
        cases h
    · rw [TokenRegistry.tenantFor_raises hcomparable] at h
      obtain rfl := Except.error.inj h
      exact .incomparable token hcredential hcomparable

theorem encodable_code (e : DomainError) : Encodable e.code := by
  cases e <;> exact encodable_str _

/-- The types of a command raise `ValueError`s only. -/
theorem command_valueError {request : CreateInvestigationRequest} {tenant : TenantId}
    {key : Option Str} {e : DomainError} (h : request.command tenant key = .error e) :
    e.isValueError = true := by
  have hutc : ∀ {value : IsoDatetime} {e : DomainError}, toUtc value = .error e →
      e.isValueError = true := by
    intro value e h
    unfold toUtc at h
    split at h
    · obtain rfl := Except.error.inj h
      rfl
    · obtain ⟨-, rfl⟩ := orRaise_eq_error.mp h
      rfl
  have hidentifier : ∀ {ι : Type} [TextIdentifier ι] {value : Str} {e : DomainError},
      TextIdentifier.construct (ι := ι) value = .error e → e.isValueError = true := by
    intro ι _ value e h
    simp only [TextIdentifier.construct, bind_eq_error, require_eq_error, pure_ne_error, and_false,
      exists_false, or_false] at h
    rw [← h.2]
    rfl
  simp only [CreateInvestigationRequest.command, WindowPayload.toWindow, bind_eq_error,
    pure_ne_error, and_false, exists_false, or_false] at h
  rcases h with h | ⟨-, -, h | ⟨-, -, h | ⟨_, -, h | ⟨_, -, h | ⟨_, -, h⟩⟩⟩⟩⟩
  · exact hidentifier h
  · exact hidentifier h
  · exact hutc h
  · exact hutc h
  · exact hutc h
  · simp only [IncidentWindow.construct, bind_eq_error, require_eq_error, pure_ne_error, and_false,
      exists_false, or_false] at h
    rw [← h.2]
    rfl

/-- **A creation that is refused** before the use case is called. -/
theorem command_refused {key : Option Str} {body : Body} {e : RouteError}
    (h : app.command authorization key body = .error e) : Refusal app authorization e := by
  simp only [ControlPlane.command, bind_eq_error] at h
  rcases h with h | ⟨-, -, h | ⟨_, -, h | ⟨request, -, h | ⟨-, -, h⟩⟩⟩⟩
  · cases body with
    | malformed =>
      obtain rfl := Except.error.inj h
      exact .http _ _ (by decide) (encodable_str _)
    | unreadable =>
      obtain rfl := Except.error.inj h
      exact .http _ _ (by decide) (encodable_str _)
    | invalid => cases h
    | valid request => cases h
  · exact authenticate_refused h
  · cases body with
    | valid request => cases h
    | malformed | unreadable | invalid =>
      obtain rfl := Except.error.inj h
      exact .http _ _ (by decide) (encodable_str _)
  · cases key with
    | none => cases h
    | some key =>
      simp only [checkIdempotencyKey] at h
      split at h
      · obtain rfl := Except.error.inj h
        exact .http _ _ (by decide) (encodable_str _)
      · cases h
  · unfold refuseDomain at h
    split at h
    · cases h
    · rename_i e' he'
      rw [if_pos (command_valueError he')] at h
      obtain rfl := Except.error.inj h
      exact .http _ _ (by decide) (encodable_code _)

/-- **A read that is refused** before the use case is called. -/
theorem lookup_refused [HexInt] {raw : Str} {e : RouteError}
    (h : app.lookup authorization raw = .error e) : Refusal app authorization e := by
  simp only [ControlPlane.lookup, bind_eq_error, pure_ne_error, and_false, exists_false,
    or_false] at h
  rcases h with h | ⟨_, -, h⟩
  · exact authenticate_refused h
  · unfold investigationIdOf at h
    split at h
    · cases h
    · obtain rfl := Except.error.inj h
      exact .http _ _ (by decide) (encodable_str _)

/-- What a handler answers is no 202. -/
theorem handled_ne_accepted {e : RouteError} (h : ∀ code, e ≠ .http 202 code) {response : Response}
    (hanswer : exceptionHandler e = .ok response) : response.status ≠ 202 := by
  unfold exceptionHandler at hanswer
  split at hanswer
  · obtain rfl := Except.ok.inj hanswer
    rintro rfl
    exact h _ rfl
  · obtain rfl := Except.ok.inj hanswer
    decide
  · obtain rfl := Except.ok.inj hanswer
    decide
  · cases hanswer

theorem Refusal.ne_accepted {e : RouteError} (h : Refusal app authorization e) (code : Str) :
    e ≠ .http 202 code := by
  rintro rfl
  cases h with
  | http _ _ h _ => exact absurd h (by decide)

/-- Whose a creation is, and its key. -/
theorem command_eq_ok {key : Option Str} {body : Body} {command : CreateInvestigationCommand}
    (h : app.command authorization key body = .ok command) :
    authenticate app.tokens authorization = .ok command.tenant ∧ command.idempotencyKey = key := by
  simp only [ControlPlane.command, bind_eq_ok] at h
  obtain ⟨-, -, tenant, htenant, request, -, -, -, hcommand⟩ := h
  have hcommand : request.command tenant key = .ok command := by
    unfold refuseDomain at hcommand
    split at hcommand
    · rename_i made hmade
      rw [hmade, Except.ok.inj hcommand]
    · cases hcommand
  simp only [CreateInvestigationRequest.command, bind_eq_ok, pure_eq_ok] at hcommand
  obtain ⟨_, -, _, -, _, -, rfl⟩ := hcommand
  exact ⟨htenant, rfl⟩

variable {F : Type} {backend : Backend} {env : Surroundings} [HexInt] {draws : Draws}

/-- A response is what its route returns, or what the handler makes of its exception. -/
theorem respond_exec (request : Request) (s : Session F) :
    ((app.respond backend env draws request).exec s).1 =
      match ((app.route backend env draws request).exec s).1 with
      | .ok response => .ok response
      | .error e => exceptionHandler e := by
  unfold ControlPlane.respond
  rw [exec_bind, exec_attempt]
  simp only
  rcases ((app.route backend env draws request).exec s).1 with e | response
  · rfl
  · rfl

/-- A read is never answered with 202. -/
theorem read_ne_accepted {request : Request} {s : Session F} {response : Response}
    (hread : ∀ authorization key body, request ≠ .create authorization key body)
    (h : ((app.respond backend env draws request).exec s).1 = .ok response) :
    response.status ≠ 202 := by
  rw [respond_exec] at h
  have hroute : Wp (app.route backend env draws request) s (fun r _ => r.status = 200)
      (fun e _ => ∀ code, e ≠ .http 202 code) := by
    -- what a use case raises is no 202
    have huse : ∀ {α : Type} (x : Action PyException (Session F) α) (t : Session F),
        Wp (useCase x) t (fun _ _ => True) (fun e _ => ∀ code, e ≠ .http 202 code) := by
      intro α x t
      unfold Wp
      rw [exec_useCase]
      rcases x.exec t with ⟨v, u⟩
      cases v with
      | ok a => trivial
      | error e => exact fun code => nofun
    cases request with
    | health => exact rfl
    | create authorization key body => exact absurd rfl (hread _ _ _)
    | status authorization raw =>
      simp only [ControlPlane.route, ControlPlane.status, wp_bind, wp_lift, wp_pure]
      refine ⟨fun found _ => ?_, fun e he => (lookup_refused he).ne_accepted⟩
      exact (huse _ _).mono (fun _ _ _ => trivial) fun _ _ he => he
    | report authorization raw =>
      simp only [ControlPlane.route, ControlPlane.report, wp_bind, wp_lift, wp_pure]
      refine ⟨fun found _ => ?_, fun e he => (lookup_refused he).ne_accepted⟩
      refine (huse _ _).mono (fun record t _ => ?_) fun _ _ he => he
      exact (huse _ _).mono (fun _ _ _ => trivial) fun _ _ he => he
  unfold Wp at hroute
  rcases hexec : (app.route backend env draws request).exec s with ⟨v, t⟩
  rw [hexec] at h hroute
  cases v with
  | ok r =>
    obtain rfl := Except.ok.inj h
    rw [show r.status = 200 from hroute]
    decide
  | error e => exact handled_ne_accepted hroute h

end refusals

/-! ### Reads that nothing disturbs -/

section reads
variable {F : Type} {backend : Backend} {env : Surroundings} {p : Store → Prop}

theorem agrees_getReport (hgranted : env.Granted) (tenant : TenantId) (id : InvestigationId) :
    ActsAlike (F := F) p p (statement .memory env (onStore (ReportRepository.get tenant id)))
      (statement .postgres env (onStore (ReportRepository.get tenant id))) := by
  apply agrees_onStore hgranted (fun _ h => h)
  intro S hS
  rw [ReportRepository.get_exec]
  refine ⟨?_, hS⟩
  cases ReportRepository.find? S tenant id with
  | some record => simp [orRaise]
  | none =>
    intro h
    exact notFound_ne_conflict (Except.error.inj h)

/-- Both reads end as over the in-memory store. -/
theorem status_agrees (hgranted : env.Granted) (tenant : TenantId) (id : InvestigationId)
    (s : Session F) : (GetInvestigationStatus.execute .postgres env tenant id).exec s =
      (GetInvestigationStatus.execute .memory env tenant id).exec s := by
  unfold GetInvestigationStatus.execute
  refine scope_endAlike (ActsAlike.endAlike (q := fun S => S = s.shared.store) ?_)
  refine (agrees_getInvestigation hgranted _ _).attempt.bind (fun _ h => h) fun v => ?_
  split
  · exact .same fun _ => rfl
  · exact .throw _
  · exact .throw _

theorem report_agrees (hgranted : env.Granted) (tenant : TenantId) (id : InvestigationId)
    (s : Session F) : (GetReport.execute .postgres env tenant id).exec s =
      (GetReport.execute .memory env tenant id).exec s := by
  unfold GetReport.execute
  refine scope_endAlike (ActsAlike.endAlike (q := fun S => S = s.shared.store) ?_)
  refine (agrees_getInvestigation hgranted _ _).attempt.bind (fun _ h => h) fun v => ?_
  split
  · refine (agrees_getReport hgranted _ _).attempt.bind (fun _ h => h) fun r => ?_
    split
    · exact .same fun _ => rfl
    · exact .throw _
    · exact .throw _
  · exact .throw _
  · exact .throw _

theorem status_granted (hcalm : env.Calm) (S : Tracked F) (tenant : TenantId)
    (id : InvestigationId) :
    ((GetInvestigationStatus.execute backend env tenant id).exec (Session.start S)).1 =
      orRaise (InvestigationRepository.find? S.store tenant id)
        (.application .investigationNotFound) := by
  cases backend with
  | memory => simp [status_answer, hcalm.cancelled]
  | postgres =>
    rw [status_agrees hcalm.fails]
    simp [status_answer, hcalm.cancelled]

theorem report_granted (hcalm : env.Calm) (S : Tracked F) (tenant : TenantId)
    (id : InvestigationId) :
    ((GetReport.execute backend env tenant id).exec (Session.start S)).1 =
      if (InvestigationRepository.find? S.store tenant id).isNone then
        .error (.application .investigationNotFound)
      else orRaise (ReportRepository.find? S.store tenant id) (.application .reportNotReady) := by
  cases backend with
  | memory => simp [report_answer, hcalm.cancelled]
  | postgres =>
    rw [report_agrees hcalm.fails]
    simp [report_answer, hcalm.cancelled]

/-! ### What is answered -/

/-- The content of the status of an investigation. -/
def statusBody (record : InvestigationRecord) : Json :=
  jsonObj [
    ("investigation_id", .str record.investigationId.value.str),
    ("status", .str record.status.value)]

def notFoundResponse : Response := ⟨404, errorBody (str "investigation_not_found")⟩

def notReadyResponse : Response := ⟨409, errorBody (str "report_not_ready")⟩

variable [HexInt] {app : ControlPlane} {draws : Draws} {authorization : Option Str} {raw : Str}

/-- What a GET of the status answers by the committed rows. -/
def ControlPlane.statusAnswer (app : ControlPlane) (S : Store) (authorization : Option Str)
    (raw : Str) : Except PyException Response :=
  match app.lookup authorization raw with
  | .error e => exceptionHandler e
  | .ok (tenant, id) =>
    match InvestigationRepository.find? S tenant id with
    | some record => .ok ⟨200, statusBody record⟩
    | none => .ok notFoundResponse

/-- What a GET of the report answers by them. -/
def ControlPlane.reportAnswer (app : ControlPlane) (S : Store) (authorization : Option Str)
    (raw : Str) : Except PyException Response :=
  match app.lookup authorization raw with
  | .error e => exceptionHandler e
  | .ok (tenant, id) =>
    match InvestigationRepository.find? S tenant id, ReportRepository.find? S tenant id with
    | none, _ => .ok notFoundResponse
    | some _, none => .ok notReadyResponse
    | some _, some report =>
      match app.reportBody report with
      | .ok content => .ok ⟨200, content⟩
      | .error e => exceptionHandler (.raised e)

theorem respond_status (hcalm : env.Calm) (S : Tracked F) :
    ((app.respond backend env draws (.status authorization raw)).exec (Session.start S)).1 =
      app.statusAnswer S.store authorization raw := by
  unfold ControlPlane.respond ControlPlane.route ControlPlane.status ControlPlane.statusAnswer
  simp only [exec_bind, exec_attempt, exec_lift]
  cases app.lookup authorization raw with
  | error e => rfl
  | ok found =>
    obtain ⟨tenant, id⟩ := found
    simp only [exec_useCase, status_granted hcalm]
    cases InvestigationRepository.find? S.store tenant id with
    | some record => rfl
    | none => rfl

theorem respond_report (hcalm : env.Calm) (S : Tracked F) :
    ((app.respond backend env draws (.report authorization raw)).exec (Session.start S)).1 =
      app.reportAnswer S.store authorization raw := by
  unfold ControlPlane.respond ControlPlane.route ControlPlane.report ControlPlane.reportAnswer
  simp only [exec_bind, exec_attempt, exec_lift]
  cases app.lookup authorization raw with
  | error e => rfl
  | ok found =>
    obtain ⟨tenant, id⟩ := found
    simp only [exec_useCase, report_granted hcalm, exec_lift]
    cases InvestigationRepository.find? S.store tenant id with
    | none => rfl
    | some record =>
      cases ReportRepository.find? S.store tenant id with
      | none => rfl
      | some report =>
        simp only [Option.isNone_some, Bool.false_eq_true, if_false, orRaise, Except.mapError]
        cases app.reportBody report with
        | ok content => rfl
        | error e => rfl

end reads

end IncidentEvidence
