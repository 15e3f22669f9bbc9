import IncidentEvidence.Application.Metered
import IncidentEvidence.Application.Stamps
import IncidentEvidence.Py.BoundedFloat

/-! # What token counts decide

    Calls of the use cases and of workers that share one registry. Two runs whose
    calls differ in the token counts of the proposals, and in the system clock, commit
    the same tables up to their stamps, and the registry is rendered after either
    (`token_counts_decide_nothing`), as long as every positive count converts to a
    float and its total stays finite. A count beyond the floats makes the call fail,
    and a total beyond them the metrics page (`token_counts_may_decide`).
-/

namespace IncidentEvidence

open Py Py.Action

section service
variable {F : Type} [PyFloat F] [FloatHex F] [Sha256]

/-! ### Runs with metrics -/

/-- The committed tables, and the registry of the workers. -/
structure MeteredService (F : Type) where
  committed : Tracked F
  metrics : MetricsRegistry F

variable (F) in
/-- One call, with what happens around it. -/
inductive MeteredCall where
  | create (call : CreateCall) (env : Surroundings)
  | runOnce (worker : Worker F) (env : TimedEnvironment F)

/-- What a call of a worker leaves. -/
def Metered.final (w : Worker F) (env : TimedEnvironment F) (s : MeteredService F) : Metered F :=
  ((Metered.runOnce w .memory env).exec ⟨Session.start s.committed, s.metrics, 0⟩).2

/-- The service after a call. -/
def MeteredCall.after (s : MeteredService F) : MeteredCall F → MeteredService F
  | .create call env =>
    { s with committed := (Call.session s.committed (.create call env)).shared }
  | .runOnce w env =>
    ⟨(Metered.final w env s).session.shared, (Metered.final w env s).metrics⟩

/-- The service after a run. -/
def MeteredService.run (s : MeteredService F) (calls : List (MeteredCall F)) : MeteredService F :=
  calls.foldl MeteredCall.after s

/-! ### What two runs have in common -/

/-- Two calls of a worker meet the same, but for the token counts and the clocks of the
    system. -/
structure TimedEnvironment.SameButCounts (env env' : TimedEnvironment F) : Prop extends
    Surroundings.Alike env.toSurroundings env'.toSurroundings where
  load : env.load = env'.load
  attemptId : env.attemptId = env'.attemptId
  limits : env.limits = env'.limits
  proposal : ExceptRel (ExceptRel fun p p' => p.rawJson = p'.rawJson)
    env.proposal.reply env'.proposal.reply

/-- The same call, but for the token counts and the clocks of the system. -/
inductive MeteredCall.SameButCounts : MeteredCall F → MeteredCall F → Prop where
  | create (call : CreateCall) {env env' : Surroundings} (h : env.Alike env') :
      SameButCounts (.create call env) (.create call env')
  | runOnce (w : Worker F) {env env' : TimedEnvironment F} (h : env.SameButCounts env') :
      SameButCounts (.runOnce w env) (.runOnce w env')

/-- The timers read seconds. -/
def MeteredCall.Steady : MeteredCall F → Prop
  | .create _ _ => True
  | .runOnce _ env => env.Steady

/-- The token counts convert to floats, and their totals stay finite. -/
def MeteredCall.Countable (metrics : MetricsRegistry F) : MeteredCall F → Prop
  | .create _ _ => True
  | .runOnce _ env => env.Countable (WorkerMetrics.tokenTotal metrics)

/-- Every call of a run is countable in the registry it finds. -/
def MeteredService.Countable : MeteredService F → List (MeteredCall F) → Prop
  | _, [] => True
  | s, c :: calls => c.Countable s.metrics ∧ Countable (c.after s) calls

/-! ### One call -/

omit [Sha256] in
theorem Outcome.eq_returns {α : Type} {outcome : Outcome α} {a : α}
    (h : outcome.reply = .ok (.ok a)) : outcome = .returns a := by
  cases outcome with
  | returns b => rw [Except.ok.inj (Except.ok.inj h)]
  | illTyped e => cases Except.ok.inj h
  | raises e => cases h

omit [FloatHex F] [Sha256] in
/-- Environments whose counts can be added are alike: the counts are counted alike. -/
theorem TimedEnvironment.SameButCounts.alike {env env' : TimedEnvironment F}
    (h : env.SameButCounts env') {totals totals' : Str → F} (hcount : env.Countable totals)
    (hcount' : env'.Countable totals') : env.toEnvironment.Alike env'.toEnvironment where
  toAlike := h.toAlike
  load := h.load
  attemptId := h.attemptId
  limits := h.limits
  proposal := by
    have hcounted : ∀ p, env.proposal.reply = .ok (.ok p) → countTokens F p = .ok () := by
      intro p hp
      obtain ⟨hprompt, hcompletion⟩ := hcount p (Outcome.eq_returns hp)
      exact Metered.countTokens_eq_ok hprompt hcompletion
    have hcounted' : ∀ p, env'.proposal.reply = .ok (.ok p) → countTokens F p = .ok () := by
      intro p hp
      obtain ⟨hprompt, hcompletion⟩ := hcount' p (Outcome.eq_returns hp)
      exact Metered.countTokens_eq_ok hprompt hcompletion
    have hreply := h.proposal
    generalize env.proposal.reply = r at hreply hcounted
    generalize env'.proposal.reply = r' at hreply hcounted'
    cases hreply with
    | error => exact .error
    | ok hvalue =>
      cases hvalue with
      | error => exact .ok .error
      | ok hraw => exact .ok (.ok ⟨hraw, (hcounted _ rfl).trans (hcounted' _ rfl).symm⟩)

variable [CountingPyFloat F]

/-- What a call with metrics leaves, beside the call without. -/
theorem Metered.final_beside {w : Worker F} {env : TimedEnvironment F} {s : MeteredService F}
    (hready : WorkerMetrics.Ready s.metrics) (hsteady : env.Steady)
    (hcount : env.Countable (WorkerMetrics.tokenTotal s.metrics)) :
    (Metered.final w env s).session =
        ((w.runOnce .memory env.toEnvironment).exec (Session.start s.committed)).2 ∧
      WorkerMetrics.Ready (Metered.final w env s).metrics := by
  have hat : WorkerMetrics.ReadyAt (WorkerMetrics.tokenTotal s.metrics) s.metrics :=
    ⟨hready, fun _ => rfl⟩
  exact (Metered.couples_runOnce hsteady hcount ⟨Session.start s.committed, s.metrics, 0⟩
    (Session.start s.committed) ⟨rfl, hat⟩).2

/-- One call keeps the tables of two runs the same up to their stamps, and both
    registries ready. -/
theorem MeteredCall.SameButCounts.after {c c' : MeteredCall F} (h : c.SameButCounts c')
    {s s' : MeteredService F} (htables : SameTables s.committed s'.committed)
    (hready : WorkerMetrics.Ready s.metrics) (hready' : WorkerMetrics.Ready s'.metrics)
    (hsteady : c.Steady) (hsteady' : c'.Steady) (hcount : c.Countable s.metrics)
    (hcount' : c'.Countable s'.metrics) :
    SameTables (c.after s).committed (c'.after s').committed ∧
      WorkerMetrics.Ready (c.after s).metrics ∧ WorkerMetrics.Ready (c'.after s').metrics := by
  cases h with
  | create call henv =>
    have hsessions := (couples_execute_stamps henv call _ _ htables.start).2
    exact ⟨hsessions.shared, hready, hready'⟩
  | runOnce w henv =>
    obtain ⟨hsession, hnext⟩ := Metered.final_beside (w := w) hready hsteady hcount
    obtain ⟨hsession', hnext'⟩ := Metered.final_beside (w := w) hready' hsteady' hcount'
    have hsessions := (couples_runOnce_stamps (w := w) (henv.alike hcount hcount') _ _
      htables.start).2
    rw [← hsession, ← hsession'] at hsessions
    exact ⟨hsessions.shared, hnext, hnext'⟩

/-! ### Whole runs -/

/-- Two runs from the same tables, up to their stamps. -/
theorem runs_same {calls calls' : List (MeteredCall F)}
    (hcalls : List.Forall₂ MeteredCall.SameButCounts calls calls') {s s' : MeteredService F}
    (htables : SameTables s.committed s'.committed) (hready : WorkerMetrics.Ready s.metrics)
    (hready' : WorkerMetrics.Ready s'.metrics) (hsteady : ∀ c ∈ calls, c.Steady)
    (hsteady' : ∀ c ∈ calls', c.Steady) (hcount : s.Countable calls) (hcount' : s'.Countable calls') :
    SameTables (s.run calls).committed (s'.run calls').committed ∧
      WorkerMetrics.Ready (s.run calls).metrics ∧ WorkerMetrics.Ready (s'.run calls').metrics := by
  induction hcalls generalizing s s' with
  | nil => exact ⟨htables, hready, hready'⟩
  | @cons c c' calls calls' hc _ ih =>
    rw [List.forall_mem_cons] at hsteady hsteady'
    obtain ⟨hnext, hnextReady, hnextReady'⟩ := hc.after htables hready hready' hsteady.1 hsteady'.1
      hcount.1 hcount'.1
    exact ih hnext hnextReady hnextReady' hsteady.2 hsteady'.2 hcount.2 hcount'.2

/-- **Token counts decide nothing while they can be counted.** Two runs from the same
    tables and a new registry, whose calls differ in token counts and in the system
    clock at most, commit the same tables up to their stamps, and both registries are
    rendered. -/
theorem token_counts_decide_nothing [FloatFormat F] [LawfulFloatFormat F] (S : Tracked F)
    {registry : MetricsRegistry F} (hregister : WorkerMetrics.register .empty = .ok registry)
    {calls calls' : List (MeteredCall F)}
    (hcalls : List.Forall₂ MeteredCall.SameButCounts calls calls')
    (hsteady : ∀ c ∈ calls, c.Steady) (hsteady' : ∀ c ∈ calls', c.Steady)
    (hcount : MeteredService.Countable ⟨S, registry⟩ calls)
    (hcount' : MeteredService.Countable ⟨S, registry⟩ calls') :
    SameButStamps (MeteredService.run ⟨S, registry⟩ calls).committed.store
        (MeteredService.run ⟨S, registry⟩ calls').committed.store ∧
      (∃ text, (MeteredService.run ⟨S, registry⟩ calls).metrics.render = .ok text) ∧
      ∃ text, (MeteredService.run ⟨S, registry⟩ calls').metrics.render = .ok text := by
  obtain ⟨r, hr, hready⟩ := WorkerMetrics.register_empty (F := F)
  rw [hregister] at hr
  obtain rfl := Except.ok.inj hr
  have hstart : SameTables (MeteredService.mk S registry).committed
      (MeteredService.mk S registry).committed := ⟨.refl _, rfl⟩
  obtain ⟨htables, hfinal, hfinal'⟩ := runs_same hcalls hstart hready.toReady hready.toReady hsteady hsteady' hcount hcount'
  exact ⟨htables.store, hfinal.sound.exists_render, hfinal'.sound.exists_render⟩

end service

namespace Demo

section counting
variable {F : Type} [PyFloat F]

/-- The model answers nothing that can be parsed, and says how many tokens that took. -/
def counting (attemptId : UUID) (tokens : Option Int) : TimedEnvironment F where
  toSurroundings := calm
  load := .returns []
  proposal := .returns ⟨.ok [], tokens, none⟩
  attemptId := attemptId
  limits := ⟨100, 100⟩
  perfCounter _ := PyFloat.zero

/-- Two investigations, the second without a key. -/
def createOther : CreateCall :=
  { createCall false with command := { (createCall false).command with idempotencyKey := none } }

def countingWorker : Worker F where
  workerId := ⟨str "worker-1", Demo.worker1_notBlank⟩
  lease := 30000000
  maxAttempts := 3
  policy := ⟨2, PyFloat.literal 1 0, PyFloat.zero, PyFloat.zero⟩

/-- Both are worked on, with the same count of tokens. -/
def countingRun (tokens : Option Int) : List (MeteredCall F) :=
  [.create (createCall true) calm, .runOnce countingWorker (counting ⟨5, UUID.five_lt⟩ tokens),
    .create createOther calm, .runOnce countingWorker (counting ⟨6, UUID.six_lt⟩ tokens)]

theorem countingRun_same (tokens tokens' : Option Int) :
    List.Forall₂ MeteredCall.SameButCounts (countingRun (F := F) tokens) (countingRun tokens') := by
  have halike : calm.Alike calm := ⟨rfl, rfl⟩
  have hsame : ∀ id, (counting (F := F) id tokens).SameButCounts (counting id tokens') :=
    fun id => ⟨halike, rfl, rfl, rfl, .ok (.ok rfl)⟩
  exact .cons (.create _ halike) (.cons (.runOnce _ (hsame _)) (.cons (.create _ halike)
    (.cons (.runOnce _ (hsame _)) .nil)))

/-- The timers stand still, which leaves every sum as it is. -/
theorem countingRun_steady (hzero : ∀ s : F, PyFloat.isFinite s = true →
    PyFloat.isFinite (PyFloat.add s (PyFloat.sub PyFloat.zero PyFloat.zero)) = true)
    (tokens : Option Int) : ∀ c ∈ countingRun (F := F) tokens, c.Steady := by
  have hcounting : ∀ id, (counting (F := F) id tokens).Steady := fun _ _ _ s hs => hzero s hs
  intro c hc
  simp only [countingRun, List.mem_cons, List.not_mem_nil, or_false] at hc
  rcases hc with rfl | rfl | rfl | rfl
  · trivial
  · exact hcounting _
  · trivial
  · exact hcounting _

end counting

/-- The registry a worker begins with. -/
def newRegistry (F : Type) [PyFloat F] : MetricsRegistry F :=
  (WorkerMetrics.register .empty).toOption.getD .empty

/-- The service after the run. -/
def counted {F : Type} [PyFloat F] [FloatHex F] (tokens : Option Int) : MeteredService F :=
  MeteredService.run ⟨Tracked.empty, newRegistry F⟩ (countingRun tokens)

/-- Exact numbers can count any tokens. -/
theorem countable_exact (calls : List (MeteredCall ExactFloat))
    (hsame : ∀ c ∈ calls, c.SameButCounts c) (hsteady : ∀ c ∈ calls, c.Steady)
    {s : MeteredService ExactFloat} (hready : WorkerMetrics.Ready s.metrics) : s.Countable calls := by
  induction calls generalizing s with
  | nil => trivial
  | cons c calls ih =>
    rw [List.forall_mem_cons] at hsame hsteady
    have hcountable : c.Countable s.metrics := by
      have hkind : ∀ tokens kind,
          WorkerMetrics.Countable (WorkerMetrics.tokenTotal s.metrics) tokens kind := by
        intro tokens kind i _ _
        obtain ⟨q, hq⟩ := ExactFloat.isFinite_iff.mp
          (hready.sound.finite_total WorkerMetrics.LLM_TOKENS_TOTAL [kind])
        refine ⟨.fin i, rfl, ?_⟩
        rw [WorkerMetrics.tokenTotal, hq]
        rfl
      cases c with
      | create call env => trivial
      | runOnce w env => exact fun p _ => ⟨hkind _ _, hkind _ _⟩
    have hstart : SameTables s.committed s.committed := ⟨.refl _, rfl⟩
    obtain ⟨-, hnext, -⟩ := hsame.1.after hstart hready hready
      hsteady.1 hsteady.1 hcountable hcountable
    exact ⟨hcountable, ih hsame.2 hsteady.2 hnext⟩

theorem newRegistry_eq : WorkerMetrics.register .empty = .ok (newRegistry BoundedFloat) := by
  obtain ⟨r, hr⟩ : ∃ r, WorkerMetrics.register (.empty : MetricsRegistry BoundedFloat) = .ok r :=
    exists_of_isOk (by decide +kernel)
  rw [newRegistry, hr]
  rfl

theorem counted_steady (tokens : Option Int) :
    ∀ c ∈ countingRun (F := BoundedFloat) tokens, c.Steady :=
  countingRun_steady (fun s hs => by rw [BoundedFloat.add_sub_zero hs, hs]) tokens

end Demo

open Demo in
/-- Two investigations with a hundred tokens each are counted as without counts, and either way the
    registry renders. -/
theorem token_counts_decide_nothing_demo :
    SameButStamps (counted (F := ExactFloat) (some 100)).committed.store
        (counted (F := ExactFloat) none).committed.store ∧
      (∃ text, (counted (F := ExactFloat) (some 100)).metrics.render = .ok text) ∧
      ∃ text, (counted (F := ExactFloat) none).metrics.render = .ok text := by
  obtain ⟨registry, hregistry, hready⟩ := WorkerMetrics.register_empty (F := ExactFloat)
  have hnew : newRegistry ExactFloat = registry := by
    rw [newRegistry, hregistry]
    rfl
  have hsteady : ∀ tokens, ∀ c ∈ countingRun (F := ExactFloat) tokens, c.Steady := by
    refine countingRun_steady fun s hs => ?_
    obtain ⟨q, rfl⟩ := ExactFloat.isFinite_iff.mp hs
    simp
  have hcount : ∀ tokens, MeteredService.Countable ⟨Tracked.empty, registry⟩
      (countingRun (F := ExactFloat) tokens) := fun tokens =>
    countable_exact _ (List.forall₂_same.mp (countingRun_same tokens tokens)) (hsteady tokens)
      hready.toReady
  rw [counted, counted, hnew]
  exact token_counts_decide_nothing Tracked.empty hregistry (countingRun_same (some 100) none)
    (hsteady _) (hsteady _) (hcount _) (hcount _)

open Demo in
/-- **A count beyond the floats changes what is committed, and a total beyond them keeps
    the registry from being rendered.** -/
theorem token_counts_may_decide :
    (¬ ∀ (S : Tracked BoundedFloat) (registry : MetricsRegistry BoundedFloat)
      (calls calls' : List (MeteredCall BoundedFloat)),
      WorkerMetrics.register .empty = .ok registry →
      List.Forall₂ MeteredCall.SameButCounts calls calls' →
      (∀ c ∈ calls, c.Steady) → (∀ c ∈ calls', c.Steady) →
      SameButStamps (MeteredService.run ⟨S, registry⟩ calls).committed.store
        (MeteredService.run ⟨S, registry⟩ calls').committed.store) ∧
    ¬ ∀ (S : Tracked BoundedFloat) (registry : MetricsRegistry BoundedFloat)
      (calls : List (MeteredCall BoundedFloat)),
      WorkerMetrics.register .empty = .ok registry → (∀ c ∈ calls, c.Steady) →
      ∃ text, (MeteredService.run ⟨S, registry⟩ calls).metrics.render = .ok text := by
  constructor
  · intro hsame
    have hstores := hsame Tracked.empty _ _ _ newRegistry_eq
      (countingRun_same (some (10 ^ 400)) none) (counted_steady _) (counted_steady _)
    have hcodes := congrArg (fun t => t.values.map (·.errorCode)) hstores.attempts
    exact absurd hcodes (by decide +kernel)
  · intro hrendered
    obtain ⟨text, htext⟩ := hrendered Tracked.empty _ _ newRegistry_eq
      (counted_steady (some (2 ^ 1023)))
    have hraises : (counted (F := BoundedFloat) (some (2 ^ 1023))).metrics.render =
        .error .overflowError := by
      decide +kernel
    rw [counted, htext] at hraises
    cases hraises

end IncidentEvidence
