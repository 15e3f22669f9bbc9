import IncidentEvidence.Api.Answers
import IncidentEvidence.Concurrency.Tickets

/-! # The control plane and its workers

    Requests and calls of the worker in any order, over either unit of work, whatever is
    refused or cancelled. The tables are always those of a run of the service
    (`ControlPlane.mirrored`).

    What a client sees is a board of tickets: the system refines `Tickets.system`, and
    an accepted creation is a submission (`control_refines_tickets`).
-/

namespace IncidentEvidence

open Py Py.Action Runs Tickets

/-! ### The system -/

namespace ControlPlane

variable (F : Type) [PyFloat F] in
/-- A request and what it is answered, or a call of a worker. -/
inductive Event where
  | http (request : Request) (draws : Draws) (env : Surroundings)
      (answer : Except PyException Response)
  | runOnce (worker : Worker F) (env : Environment F)

section system
variable {F : Type} [PyFloat F] [FloatHex F] [Sha256] [HexInt] (app : ControlPlane)
  (backend : Backend)

/-- The session in which an event ends. -/
def Event.session (S : Tracked F) : Event F → Session F
  | .http request draws env _ =>
    ((app.respond backend env draws request).exec (Session.start S)).2
  | .runOnce worker env => ((worker.runOnce backend env).exec (Session.start S)).2

/-- A request has the answer that is given to it. -/
def Event.Answered (S : Tracked F) : Event F → Prop
  | .http request draws env answer =>
    answer = ((app.respond backend env draws request).exec (Session.start S)).1
  | .runOnce _ _ => True

omit [FloatHex F] [Sha256] [HexInt] in
/-- The call behind an event. -/
def Event.call? : Event F → Option (Call F)
  | .http request draws env _ => (app.creation draws request).map fun call => .create call env
  | .runOnce worker env => some (.runOnce worker env)

/-- The ids that are drawn are new. -/
def step (s : Service F) (event : Event F) (s' : Service F) : Prop :=
  event.Answered app backend s.committed ∧
    (∀ call, event.call? app = some call → call.Fresh s.drawn) ∧
    (s.drawn ++ (event.session app backend s.committed).drawn).Nodup ∧
    s' = ⟨(event.session app backend s.committed).shared,
      s.drawn ++ (event.session app backend s.committed).drawn⟩

/-- The control plane over an empty database. -/
def system : System (Service F) (Event F) where
  init s := s = ⟨Tracked.empty, []⟩
  step := app.step backend

end system

end ControlPlane

/-! ### The service behind it -/

section mirrors
variable {F : Type} [PyFloat F] [FloatHex F] [Sha256] [HexInt] {app : ControlPlane}
  {backend : Backend} {s s' m : Service F}

omit [HexInt] in
/-- A step of the service over a unit of work. -/
def Backend.serviceStep : Backend → Service F → Call F → Service F → Prop
  | .memory => Service.step
  | .postgres => Service.postgresStep

omit [HexInt] in
/-- The session in which a call ends. -/
def Backend.callSession (S : Tracked F) (c : Call F) : Backend → Session F
  | .memory => c.session S
  | .postgres => c.postgresSession S

theorem event_session {event : ControlPlane.Event F} {c : Call F} (h : event.call? app = some c)
    (S : Tracked F) : event.session app backend S = backend.callSession S c := by
  cases event with
  | runOnce worker env =>
    obtain rfl := Option.some.inj h
    cases backend with
    | memory => rfl
    | postgres => rfl
  | http request draws env answer =>
    cases request with
    | create authorization key body =>
      cases hcommand : app.command authorization key body with
      | error e => simp [ControlPlane.Event.call?, ControlPlane.creation, hcommand] at h
      | ok command =>
        obtain rfl : c = .create (draws.call command) env := by
          simpa [ControlPlane.Event.call?, ControlPlane.creation, hcommand] using h.symm
        show ((app.respond backend env draws _).exec (Session.start S)).2 = _
        rw [respond_created hcommand]
        cases backend with
        | memory =>
          show _ = ((CreateInvestigation.execute .memory env (draws.call command)).exec _).2
          rcases (CreateInvestigation.execute .memory env (draws.call command)).exec
            (Session.start S) with ⟨v, t⟩
          cases v <;> rfl
        | postgres =>
          show _ = ((CreateInvestigation.execute .postgres env (draws.call command)).exec _).2
          rcases (CreateInvestigation.execute .postgres env (draws.call command)).exec
            (Session.start S) with ⟨v, t⟩
          cases v <;> rfl
    | health | status | report => cases h

/-- **What an event does**: nothing, or what the call behind it does. -/
theorem control_step_cases {event : ControlPlane.Event F} (h : app.step backend s event s') :
    (event.call? app = none ∧ s' = s) ∨
      ∃ c, event.call? app = some c ∧ backend.serviceStep s c s' := by
  obtain ⟨-, hfresh, hnodup, rfl⟩ := h
  cases hcall : event.call? app with
  | none =>
    left
    refine ⟨rfl, ?_⟩
    cases event with
    | runOnce worker env => cases hcall
    | http request draws env answer =>
      have hnone : app.creation draws request = none := Option.map_eq_none_iff.mp hcall
      have hkeeps : Keeps (Session.effects (F := F)) (app.respond backend env draws request) :=
        keeps_respond hnone
      have hsame := hkeeps (Session.start s.committed)
      obtain ⟨hshared, hdrawn⟩ := Prod.mk.inj hsame
      show (⟨((app.respond backend env draws request).exec _).2.shared,
        s.drawn ++ ((app.respond backend env draws request).exec _).2.drawn⟩ : Service F) = s
      rw [hshared, hdrawn]
      show (⟨s.committed, s.drawn ++ []⟩ : Service F) = s
      rw [List.append_nil]
  | some c =>
    right
    refine ⟨c, rfl, ?_⟩
    rw [event_session hcall] at hnodup ⊢
    cases backend with
    | memory => exact ⟨hfresh c hcall, hnodup, rfl⟩
    | postgres => exact ⟨hfresh c hcall, hnodup, rfl⟩

omit [HexInt] in
/-- A step over either unit of work is mirrored by the same call, or by none. -/
theorem Mirrors.serviceStep {c : Call F} (h : Mirrors m s) (hstep : backend.serviceStep s c s') :
    Mirrors m s' ∨ ∃ m', Service.step m c m' ∧ Mirrors m' s' := by
  cases backend with
  | postgres => exact h.step hstep
  | memory =>
    obtain ⟨hfresh, hnodup, rfl⟩ := hstep
    right
    refine ⟨⟨(c.session m.committed).shared, m.drawn ++ (c.session m.committed).drawn⟩,
      ⟨hfresh.of_subset h.drawn.subset, ?_, rfl⟩, ?_⟩
    · rw [h.committed]
      exact hnodup.sublist (h.drawn.append_right _)
    · constructor
      · rw [h.committed]
      · rw [h.committed]
        exact h.drawn.append_right _

/-- A run of the control plane is mirrored by a run of the service. -/
theorem Mirrors.control {events : List (ControlPlane.Event F)} (h : Mirrors m s)
    (hrun : Run (app.system backend) s events s') :
    ∃ cs m', Run (Service.system F) m cs m' ∧ Mirrors m' s' := by
  induction hrun generalizing m with
  | nil => exact ⟨[], m, .nil m, h⟩
  | @cons s t u event events hstep _ ih =>
    have hcases : Mirrors m t ∨ ∃ c m₁, Service.step m c m₁ ∧ Mirrors m₁ t := by
      rcases control_step_cases hstep with ⟨-, rfl⟩ | ⟨c, -, hservice⟩
      · exact Or.inl h
      · rcases h.serviceStep hservice with hskip | ⟨m₁, hone, hm₁⟩
        · exact Or.inl hskip
        · exact Or.inr ⟨c, m₁, hone, hm₁⟩
    rcases hcases with hskip | ⟨c, m₁, hone, hm₁⟩
    · exact ih hskip
    · obtain ⟨cs, m', hrun', hm'⟩ := ih hm₁
      exact ⟨c :: cs, m', .cons hone hrun', hm'⟩

/-- **The tables of the control plane** are those of a run of the service. -/
theorem ControlPlane.mirrored (h : Reachable (app.system backend) s) :
    ∃ m, Reachable (Service.system F) m ∧ Mirrors m s := by
  obtain ⟨s₀, events, rfl, hrun⟩ := h
  obtain ⟨cs, m, hrun', hm⟩ := Mirrors.control (m := ⟨Tracked.empty, []⟩) ⟨rfl, .refl _⟩ hrun
  exact ⟨m, ⟨_, cs, rfl, hrun'⟩, hm⟩

theorem ControlPlane.lifecycle [LawfulPyFloat F] (h : Reachable (app.system backend) s) :
    Lifecycle s.committed.store s.drawn := by
  obtain ⟨m, hm, hmirrors⟩ := ControlPlane.mirrored h
  rw [← hmirrors.committed]
  exact (lifecycle_reachable hm).mono hmirrors.drawn.subset

end mirrors

/-! ### A small run -/

namespace Demo

scoped instance : HexInt := ⟨plainInt16⟩

instance : LawfulHexInt where
  digits s ds hne hds := by
    show plainInt16 s = _
    unfold plainInt16
    rw [if_neg hne, hds]
    rfl

/-- Two tenants with a token each. -/
def app : ControlPlane :=
  ⟨⟨⟨[(str "secret", ⟨str "tenant"⟩), (str "hidden", ⟨str "stranger"⟩)], by decide⟩⟩, 1000⟩

def header : Option Str := some (str "Bearer secret")

def body : Body := .valid {
  incidentId := str "incident"
  runId := str "run"
  window := ⟨⟨⟨0, Datetime.zero_lt⟩, some 0⟩, ⟨⟨10, Datetime.ten_lt⟩, some 0⟩, ⟨⟨20, Datetime.twenty_lt⟩, some 0⟩⟩
  incidentIdLength := by decide
  runIdLength := by decide }

def draws : Draws := ⟨⟨⟨1, UUID.one_lt⟩⟩, ⟨⟨3, UUID.three_lt⟩⟩, ⟨0, Datetime.zero_lt⟩⟩

/-- The creation of the demonstration as a request. -/
def creation : ControlPlane.Event ExactFloat :=
  .http (.create header (some (str "key")) body) draws calm
    (.ok ⟨202, acceptedBody ⟨⟨1, UUID.one_lt⟩⟩⟩)

theorem creation_command : app.command header (some (str "key")) body = .ok (createCall true).command := by
  decide +kernel

theorem creation_call : creation.call? app = some (.create (createCall true) calm) := by
  unfold creation ControlPlane.Event.call?
  simp only [ControlPlane.creation, creation_command]
  rfl

theorem creation_step : app.step .memory ⟨Tracked.empty, []⟩ creation createdService := by
  have hsession : creation.session app .memory Tracked.empty =
      Call.session Tracked.empty (.create (createCall true) calm) := event_session creation_call _
  refine ⟨?_, ?_, ?_, ?_⟩
  · show _ = ((app.respond .memory calm draws _).exec (Session.start Tracked.empty)).1
    rw [respond_created creation_command]
    rfl
  · intro call hcall
    rw [creation_call] at hcall
    obtain rfl := Option.some.inj hcall
    exact createdService_step.1
  · rw [hsession]
    exact createdService_step.2.1
  · rw [hsession]
    exact createdService_step.2.2

theorem empty_reachable :
    Reachable (app.system .memory) (⟨Tracked.empty, []⟩ : Service ExactFloat) := ⟨_, [], rfl, .nil _⟩

theorem created_reachable : Reachable (app.system .memory) createdService :=
  empty_reachable.step creation_step

/-- A call of the worker. -/
theorem runOnce_step {env : Environment ExactFloat} {s : Service ExactFloat}
    (h : Service.step createdService (.runOnce worker env) s) :
    app.step .memory createdService (.runOnce worker env) s := by
  obtain ⟨hfresh, hnodup, hs⟩ := h
  refine ⟨trivial, ?_, hnodup, hs⟩
  intro call hcall
  obtain rfl := Option.some.inj hcall
  exact hfresh

theorem control_run : Run (app.system .memory) ⟨Tracked.empty, []⟩
    [creation, .runOnce worker noTelemetry] failedService :=
  .cons creation_step (.single (runOnce_step failedService_step))

theorem failed_reachable : Reachable (app.system .memory) failedService := ⟨_, _, rfl, control_run⟩

theorem calm_calm : calm.Calm := ⟨fun _ => rfl, fun _ => rfl⟩

theorem header_tenant : authenticate app.tokens header = .ok ⟨str "tenant"⟩ := by decide +kernel

end Demo

end IncidentEvidence
