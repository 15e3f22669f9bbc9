import IncidentEvidence.Application.Effects
import IncidentEvidence.Application.UseCases
import IncidentEvidence.Concurrency.Runs
import IncidentEvidence.Py.ExactHex

/-! # Runs of the service

    Calls of `CreateInvestigation.execute` and `Worker.run_once` over one in-memory
    store, in any order and by any workers; the lock of the store runs them one
    after another. The ids that are drawn are all different.

    `commits_of_step` says what a step can do.
-/

namespace IncidentEvidence

open Py Py.Action Runs

section service
variable {F : Type} [PyFloat F] [FloatHex F] [Sha256]

variable (F) in
/-- One call, with what happens around it. -/
inductive Call where
  | create (call : CreateCall) (env : Surroundings)
  | runOnce (worker : Worker F) (env : Environment F)

/-- The committed tables, and the ids drawn so far. -/
structure Service (F : Type) where
  committed : Tracked F
  drawn : List UUID

/-- The session in which a call ends. -/
def Call.session (S : Tracked F) : Call F → Session F
  | .create call env => ((CreateInvestigation.execute .memory env call).exec (Session.start S)).2
  | .runOnce worker env => ((worker.runOnce .memory env).exec (Session.start S)).2

theorem session_runOnce (S : Tracked F) (w : Worker F) (env : Environment F) :
    Call.session S (.runOnce w env) = ((w.runOnce .memory env).exec (Session.start S)).2 := rfl

/-- The id a creation begins with is new. -/
def Call.Fresh (drawn : List UUID) : Call F → Prop
  | .create call _ => call.investigationId.value ∉ drawn
  | .runOnce _ _ => True

namespace Service

def step (s : Service F) (c : Call F) (s' : Service F) : Prop :=
  c.Fresh s.drawn ∧ (s.drawn ++ (c.session s.committed).drawn).Nodup ∧
    s' = ⟨(c.session s.committed).shared, s.drawn ++ (c.session s.committed).drawn⟩

variable (F) in
/-- The service over an empty store. -/
def system : System (Service F) (Call F) where
  init s := s = ⟨Tracked.empty, []⟩
  step := step

end Service

/-- The ids drawn in a run are all different. -/
theorem nodup_drawn {s : Service F} (h : Reachable (Service.system F) s) : s.drawn.Nodup :=
  h.invariant (P := fun s => s.drawn.Nodup)
    (fun s (hinit : (Service.system F).init s) => by
      obtain rfl : s = ⟨Tracked.empty, []⟩ := hinit
      exact List.nodup_nil)
    fun s c s' _ (hstep : Service.step s c s') => by
      obtain ⟨-, hnodup, rfl⟩ := hstep
      exact hnodup

/-- What a call has committed, and ids it drew. -/
inductive Commits (S : Tracked F) : Call F → Tracked F → List UUID → Prop where
  | nothing (c : Call F) (ids : List UUID) : Commits S c S ids
  | created (call : CreateCall) (env : Surroundings) (id : InvestigationId) (T : Tracked F)
      (ids : List UUID) (h : CreateInvestigation.Effect call S id T ids) :
      Commits S (.create call env) T ids
  | ran (worker : Worker F) (env : Environment F) (r : Bool) (T : Tracked F) (ids : List UUID)
      (h : worker.Effect env S r T ids) : Commits S (.runOnce worker env) T ids

/-- Every step commits a change of the two lists. -/
theorem commits_of_step [LawfulPyFloat F] {s s' : Service F} {c : Call F}
    (hkeyed : s.committed.store.investigations.Keyed fun r => r.investigationId.value)
    (hdrawn : ∀ k r, s.committed.store.investigations.get? k = some r → k ∈ s.drawn)
    (h : Service.step s c s') :
    ∃ ids, s'.drawn = s.drawn ++ ids ∧ (s.drawn ++ ids).Nodup ∧
      Commits s.committed c s'.committed ids := by
  obtain ⟨hfresh, hnodup, rfl⟩ := h
  refine ⟨(c.session s.committed).drawn, rfl, hnodup, ?_⟩
  cases c with
  | create call env =>
    -- a drawn id is new, so the store has no row under it
    have hnew : s.committed.store.investigations.get? call.investigationId.value = none := by
      cases hget : s.committed.store.investigations.get? call.investigationId.value with
      | none => rfl
      | some r => exact absurd (hdrawn _ _ hget) hfresh
    have heffect : Wp (CreateInvestigation.execute .memory env call) _ _ _ := execute_effect hkeyed hnew
    unfold Wp at heffect
    show Commits s.committed _ ((CreateInvestigation.execute .memory env call).exec
      (Session.start s.committed)).2.shared ((CreateInvestigation.execute .memory env call).exec
      (Session.start s.committed)).2.drawn
    rcases hexec : (CreateInvestigation.execute .memory env call).exec
      (Session.start s.committed) with ⟨r, t⟩
    rw [hexec] at heffect
    cases r with
    | ok id => exact .created call env id _ _ heffect
    | error e =>
      rw [show t.shared = s.committed from heffect]
      exact .nothing _ _
  | runOnce worker env =>
    have heffect : Wp (worker.runOnce .memory env) _ _ _ := runOnce_effect hkeyed
    unfold Wp at heffect
    show Commits s.committed _ ((worker.runOnce .memory env).exec
      (Session.start s.committed)).2.shared ((worker.runOnce .memory env).exec
      (Session.start s.committed)).2.drawn
    rcases hexec : (worker.runOnce .memory env).exec (Session.start s.committed) with ⟨r, t⟩
    rw [hexec] at heffect
    cases r with
    | ok r => exact .ran worker env r _ _ heffect
    | error e =>
      rw [show t.shared = s.committed from heffect]
      exact .nothing _ _

end service

namespace Demo

/-- Nothing is cancelled and the clocks stand still. -/
def calm : Surroundings where
  clock _ := ⟨0, Datetime.zero_lt⟩
  system _ := ⟨0, Datetime.zero_lt⟩
  cancelled _ := false
  fails _ := false

/-- A call whose telemetry source has nothing. -/
def noTelemetry : Environment ExactFloat where
  toSurroundings := calm
  load := .raises (.application .telemetryUnavailable)
  proposal := .raises .timeoutError
  attemptId := ⟨5, by decide⟩
  limits := ⟨100, 100⟩

theorem worker1_notBlank : isBlank (str "worker-1") = false := by decide

def worker : Worker ExactFloat where
  workerId := ⟨str "worker-1", worker1_notBlank⟩
  lease := 30000000
  maxAttempts := 3
  policy := policy

/-- A creation, and a call of the worker that finds no telemetry. -/
def failingRun : List (Call ExactFloat) :=
  [.create (createCall true) calm, .runOnce worker noTelemetry]

/-- The service after the creation. -/
def createdService : Service ExactFloat :=
  let first := Call.session (F := ExactFloat) Tracked.empty (.create (createCall true) calm)
  ⟨first.shared, [] ++ first.drawn⟩

/-- The job that waits there. -/
def firstClaim (env : Environment ExactFloat) (hclock : env.clock = calm.clock) :
    Claim worker env createdService.committed.store where
  job := (JobQueue.eligible createdService.committed.store (calm.clock 0)).head (by decide +kernel)
  rest := []
  expiry := ⟨30000000, by decide⟩
  first := by
    rw [hclock]
    decide +kernel
  lease := by
    rw [hclock]
    decide +kernel

/-- The service after the call of a worker. -/
def after (w : Worker ExactFloat) (env : Environment ExactFloat) : Service ExactFloat :=
  let second := Call.session (F := ExactFloat) createdService.committed (.runOnce w env)
  ⟨second.shared, createdService.drawn ++ second.drawn⟩

theorem after_step (w : Worker ExactFloat) (env : Environment ExactFloat)
    (h : (createdService.drawn ++ (Call.session createdService.committed (.runOnce w env)).drawn).Nodup) :
    Service.step createdService (.runOnce w env) (after w env) :=
  ⟨trivial, h, rfl⟩

/-- The service after the run. -/
def failedService : Service ExactFloat := after worker noTelemetry

theorem createdService_step :
    Service.step ⟨Tracked.empty, []⟩ (.create (createCall true) calm) createdService :=
  ⟨by simp [Call.Fresh], by decide +kernel, rfl⟩

theorem createdService_reachable : Reachable (Service.system ExactFloat) createdService :=
  ⟨_, _, rfl, .cons createdService_step (.nil _)⟩

theorem failedService_step :
    Service.step createdService (.runOnce worker noTelemetry) failedService :=
  after_step worker noTelemetry (by decide +kernel)

theorem failingRun_run : Run (Service.system ExactFloat) ⟨Tracked.empty, []⟩ failingRun failedService :=
  .cons createdService_step (.cons failedService_step (.nil _))

end Demo

end IncidentEvidence
