import IncidentEvidence.Api.Auth
import IncidentEvidence.Application.UseCases
import IncidentEvidence.Py.Conversions
import IncidentEvidence.Py.JsonMembers
import IncidentEvidence.Py.UuidText

/-! # The control plane

    `api/models.py` and the routes of `api/app.py`. A request is what the framework has
    made of it: a header is there or not, and a body is JSON of the declared shape or
    not. A route returns a response, raises what one of the exception handlers turns
    into a response, or raises something else, which the framework answers with 500.
-/

namespace IncidentEvidence

open Py Py.Action

/-! ### Requests -/

/-- `MAX_IDENTIFIER_LENGTH`. -/
def MAX_IDENTIFIER_LENGTH : ℕ := 200

/-- `WindowPayload`. -/
structure WindowPayload where
  start : IsoDatetime
  injection : IsoDatetime
  «end» : IsoDatetime

/-- `CreateInvestigationRequest`, with what its fields are checked for. -/
structure CreateInvestigationRequest where
  incidentId : Str
  runId : Str
  window : WindowPayload
  incidentIdLength : incidentId.length ≤ MAX_IDENTIFIER_LENGTH
  runIdLength : runId.length ≤ MAX_IDENTIFIER_LENGTH

/-- What the framework makes of the body of a POST. -/
inductive Body where
  /-- Reading it as JSON fails with a `JSONDecodeError`. -/
  | malformed
  /-- Reading it fails with another exception. -/
  | unreadable
  /-- It is no `CreateInvestigationRequest`. -/
  | invalid
  | valid (request : CreateInvestigationRequest)

inductive Request where
  | health
  | create (authorization idempotencyKey : Option Str) (body : Body)
  | status (authorization : Option Str) (investigationId : Str)
  | report (authorization : Option Str) (investigationId : Str)

/-- A JSON response. -/
structure Response where
  status : ℕ
  content : Json

/-! ### Domain types -/

/-- `to_utc` of a `datetime`. -/
def toUtc (value : IsoDatetime) : Except DomainError Datetime :=
  match value.utcoffset with
  | none => .error .invalidTimestamp
  | some offset => orRaise (value.astimezone offset) .invalidTimestamp

/-- `IncidentWindow(start=..., injection=..., end=...)`. -/
def WindowPayload.toWindow (window : WindowPayload) : Except DomainError IncidentWindow := do
  let start ← toUtc window.start
  let injection ← toUtc window.injection
  let «end» ← toUtc window.end
  IncidentWindow.construct start injection «end»

/-- The command of a request. -/
def CreateInvestigationRequest.command (body : CreateInvestigationRequest) (tenant : TenantId)
    (idempotencyKey : Option Str) : Except DomainError CreateInvestigationCommand := do
  let incident ← TextIdentifier.construct body.incidentId
  let run ← TextIdentifier.construct body.runId
  let window ← body.window.toWindow
  return ⟨tenant, incident, run, window, idempotencyKey⟩

/-- The text of a status. -/
def InvestigationStatus.value : InvestigationStatus → Str
  | .pending => str "pending"
  | .running => str "running"
  | .succeeded => str "succeeded"
  | .failed => str "failed"
  | .cancelled => str "cancelled"

/-- The `code` of an error class. -/
def ApplicationError.code : ApplicationError → Str
  | .investigationNotFound => str "investigation_not_found"
  | .reportNotReady => str "report_not_ready"
  | .telemetryUnavailable => str "telemetry_unavailable"

/-! ### Exception handlers -/

/-- The body of an error. -/
def errorBody (code : Str) : Json := jsonObj [("code", .str code)]

/-- The exception handlers of the app. An exception without one stays what it is. -/
def exceptionHandler : RouteError → Except PyException Response
  | .http status code => .ok ⟨status, errorBody code⟩
  | .raised (.application .investigationNotFound) =>
    .ok ⟨404, errorBody (ApplicationError.code .investigationNotFound)⟩
  | .raised (.application .reportNotReady) =>
    .ok ⟨409, errorBody (ApplicationError.code .reportNotReady)⟩
  | .raised e => .error e

/-- `RequestValidationError`, which has a handler of its own. -/
def RouteError.invalidRequest : RouteError := .http 422 (str "invalid_request")

/-- A body that could not be read is refused before the dependencies of the route run. -/
def Body.read : Body → Except RouteError Unit
  | .malformed => .error .invalidRequest
  -- the framework's own 400, whose detail is a text
  | .unreadable => .error (.http 400 (str "http_error"))
  | .invalid | .valid _ => .ok ()

/-- One that has not the declared shape is refused after them. -/
def Body.validated : Body → Except RouteError CreateInvestigationRequest
  | .valid request => .ok request
  | _ => .error .invalidRequest

/-! ### Routes -/

/-- What the use case behind a POST draws. -/
structure Draws where
  investigationId : InvestigationId
  jobId : JobId
  now : Datetime

/-- `create_app`, with the interpreter's limit for nested JSON. -/
structure ControlPlane where
  tokens : TokenRegistry
  depth : ℕ

/-- `_investigation_id`. -/
def investigationIdOf [HexInt] (raw : Str) : Except RouteError InvestigationId :=
  match UUID.ofText raw with
  | some value => .ok ⟨value⟩
  | none => .error (.http 404 (str "investigation_not_found"))

/-- The check of the `Idempotency-Key` header. -/
def checkIdempotencyKey : Option Str → Except RouteError Unit
  | none => .ok ()
  | some key =>
    if isBlank key = true ∨ MAX_IDENTIFIER_LENGTH < key.length then
      .error (.http 422 (str "invalid_idempotency_key"))
    else .ok ()

/-- `except DomainValidationError as exc`. -/
def refuseDomain {α : Type} : Except DomainError α → Except RouteError α
  | .ok a => .ok a
  | .error e => .error (if e.isValueError then .http 422 e.code else .raised (.domain e))

/-- `json.loads` of a stored document. -/
def loadDocument (depth : ℕ) (payload : Str) : Except PyException Json :=
  match loads depth payload with
  | .ok document => .ok document
  | .error .recursion => .error .recursionError
  | .error _ => .error .valueError

section routes
variable {F : Type} (backend : Backend) (env : Surroundings) (app : ControlPlane)

/-- A use case that a route awaits. -/
def useCase {α : Type} (x : Action PyException (Session F) α) : Action RouteError (Session F) α := do
  match ← x.attempt with
  | .ok a => return a
  | .error e => throw (.raised e)

/-- The call of `CreateInvestigation.execute` behind a command. -/
def Draws.call (draws : Draws) (command : CreateInvestigationCommand) : CreateCall where
  command := command
  investigationId := draws.investigationId
  jobId := draws.jobId
  now := draws.now
  maxAttempts := CreateInvestigation.DEFAULT_MAX_ATTEMPTS

/-- What is checked of a POST before the use case is called. -/
def ControlPlane.command (authorization idempotencyKey : Option Str) (body : Body) :
    Except RouteError CreateInvestigationCommand := do
  body.read
  let tenant ← authenticate app.tokens authorization
  let request ← body.validated
  checkIdempotencyKey idempotencyKey
  refuseDomain (request.command tenant idempotencyKey)

/-- `create`. -/
def ControlPlane.create (draws : Draws) (authorization idempotencyKey : Option Str) (body : Body) :
    Action RouteError (Session F) Json := do
  let command ← lift (app.command authorization idempotencyKey body)
  let investigationId ← useCase (CreateInvestigation.execute backend env (draws.call command))
  return jsonObj [("investigation_id", .str investigationId.value.str)]

variable [HexInt]

/-- What is checked of a GET before the use case is called. -/
def ControlPlane.lookup (authorization : Option Str) (investigationId : Str) :
    Except RouteError (TenantId × InvestigationId) := do
  let tenant ← authenticate app.tokens authorization
  let id ← investigationIdOf investigationId
  return (tenant, id)

/-- `status`. -/
def ControlPlane.status (authorization : Option Str) (investigationId : Str) :
    Action RouteError (Session F) Json := do
  let (tenant, id) ← lift (app.lookup authorization investigationId)
  let record ← useCase (GetInvestigationStatus.execute backend env tenant id)
  return jsonObj [
    ("investigation_id", .str record.investigationId.value.str),
    ("status", .str record.status.value)]

/-- The body of a report. -/
def ControlPlane.reportBody (record : ReportRecord) : Except PyException Json := do
  let report ← loadDocument app.depth record.payload.1
  let baselineRanking ← match record.baselinePayload with
    | some payload => loadDocument app.depth payload.1
    | none => pure .null
  return jsonObj [
    ("investigation_id", .str record.investigationId.value.str),
    ("schema_version", .str record.schemaVersion.1),
    ("report", report),
    ("baseline_ranking", baselineRanking)]

/-- `report`. -/
def ControlPlane.report (authorization : Option Str) (investigationId : Str) :
    Action RouteError (Session F) Json := do
  let (tenant, id) ← lift (app.lookup authorization investigationId)
  let record ← useCase (GetReport.execute backend env tenant id)
  useCase (lift (app.reportBody record))

/-- The routes, with the status of what they return. -/
def ControlPlane.route (draws : Draws) : Request → Action RouteError (Session F) Response
  | .health => return ⟨200, jsonObj [("status", .str (str "ok"))]⟩
  | .create authorization idempotencyKey body => do
    return ⟨202, ← app.create backend env draws authorization idempotencyKey body⟩
  | .status authorization investigationId => do
    return ⟨200, ← app.status backend env authorization investigationId⟩
  | .report authorization investigationId => do
    return ⟨200, ← app.report backend env authorization investigationId⟩

/-- A request, answered. -/
def ControlPlane.respond (draws : Draws) (request : Request) :
    Action PyException (Session F) Response := do
  match ← (app.route backend env draws request).attempt with
  | .ok response => return response
  | .error e => lift (exceptionHandler e)

end routes

end IncidentEvidence
