import IncidentEvidence.Application.Undisturbed
import IncidentEvidence.Llm.Gemini

/-! # The model never sees a value

    The pipeline sends one request at most, and the request names the signals of
    the telemetry and nothing else of it (`pipeline_requests`). So two loads with
    the same signals have the client send the same text (`prompts_blind`).
-/

namespace IncidentEvidence

open Py Py.Action

section prompts
variable {F : Type} [PyFloat F] [FloatHex F] [Sha256]

/-- What a pipeline sends, when it has begun with no request. -/
def Worker.requests (w : Worker F) (backend : Backend) (env : Environment F)
    (investigation : InvestigationRecord) (before : Tracked F) : List HypothesisRequest :=
  ((w.runPipeline backend env investigation).exec (Session.start before)).2.requests

/-- A pipeline sends the client a text. -/
def Worker.Sends (w : Worker F) (backend : Backend) (env : Environment F)
    (investigation : InvestigationRecord) (before : Tracked F) (printable : CodePoint → Bool)
    (client : GeminiLLMClient) (text : Str) : Prop :=
  ∃ request ∈ w.requests backend env investigation before, ∃ order answer,
    Walks order request.allowedSignals ∧
    ∃ call ∈ ((client.proposeMetricHypotheses answer printable request order).exec []).2,
      call.contents = text

variable {w : Worker F} {backend : Backend} {env : Environment F} {i : InvestigationRecord}
  {before : Tracked F}

omit [PyFloat F] [FloatHex F] [Sha256] in
/-- A task that is cancelled does not come back from the await. -/
theorem wp_awaiting_cancelled {s : Session F} {surroundings : Surroundings}
    {ok : Unit → Session F → Prop} {err : PyException → Session F → Prop}
    (hcancelled : surroundings.cancelled s.awaits = true) (herr : err .cancelled s.awaited) :
    Wp (awaiting surroundings) s ok err := by
  unfold awaiting
  simp only [wp_bind, wp_get, wp_set, wp_ite, wp_throw, wp_pure]
  exact ⟨fun _ => herr, fun h => absurd hcancelled h⟩

/-- One request is sent, unless the task is cancelled before. -/
theorem pipeline_requests {T : List (SignalBaselineInput F)} {baseline : BaselineResult F}
    {ledger : MetricEvidenceLedger F} (hload : env.load = .returns T)
    (hstage : baselineStage w.policy i (.ok T) = .ok (baseline, ledger)) :
    w.requests backend env i before =
      if env.cancelled 0 ∨ env.cancelled 1 then [] else [hypothesisRequest i ledger] := by
  generalize hexpected : (if env.cancelled 0 ∨ env.cancelled 1 then []
    else [hypothesisRequest i ledger]) = expected
  have hpipeline : Wp (w.runPipeline backend env i) (Session.start before)
      (fun _ s' => s'.requests = expected) (fun _ s' => s'.requests = expected) := by
    unfold Worker.runPipeline
    rw [wp_bind]
    by_cases h₀ : env.cancelled 0 = true
    · rw [if_pos (Or.inl h₀)] at hexpected
      exact wp_awaiting_cancelled h₀ hexpected
    apply wp_awaiting_granted (Bool.eq_false_iff.mpr h₀)
    have htelemetry : awaited telemetryFailure env.load = .ok (.ok T) := by
      rw [hload]
      rfl
    rw [wp_bind]
    apply wp_lift_ok htelemetry
    rw [wp_bind]
    apply wp_lift_ok hstage
    rw [wp_bind]
    by_cases h₁ : env.cancelled 1 = true
    · rw [if_pos (Or.inr h₁)] at hexpected
      exact wp_awaiting_cancelled h₁ hexpected
    apply wp_awaiting_granted (Bool.eq_false_iff.mpr h₁)
    rw [wp_bind, wp_modify]
    rw [if_neg (not_or.mpr ⟨h₀, h₁⟩)] at hexpected
    -- what follows sends nothing
    refine (Keeps.wp (f := Session.outside) (c := (before, expected)) ?_ ?_).mono (fun _ _ h => congrArg Prod.snd h)
      fun _ _ h => congrArg Prod.snd h
    · refine (Keeps.lift _).bind fun reply => ?_
      refine (Keeps.lift _).bind fun proposal => ?_
      refine (Keeps.lift _).bind fun _ => ?_
      refine (Keeps.lift _).bind fun document => ?_
      exact (Keeps.lift _).bind fun prepared => Worker.keeps_persist i prepared
    · rw [← hexpected]
      rfl
  exact hpipeline.final (fun _ _ h => h) fun _ _ h => h

/-- A task that is not cancelled has a text sent. -/
theorem exists_sends {T : List (SignalBaselineInput F)} (hload : env.load = .returns T)
    (hstage : ∃ r, baselineStage w.policy i (.ok T) = .ok r) (h₀ : env.cancelled 0 = false)
    (h₁ : env.cancelled 1 = false) (printable : CodePoint → Bool) (client : GeminiLLMClient) :
    ∃ text, w.Sends backend env i before printable client text := by
  obtain ⟨⟨baseline, ledger⟩, hstage⟩ := hstage
  have hrequests : w.requests backend env i before = [hypothesisRequest i ledger] := by
    rw [pipeline_requests hload hstage, if_neg (by simp [h₀, h₁])]
  let request := hypothesisRequest i ledger
  let order := request.allowedSignals.toList
  have hwalks : Walks order request.allowedSignals :=
    ⟨Finset.nodup_toList _, Finset.toList_toFinset _⟩
  let answer : ℕ → Except PyException GenerateResponse := fun _ => .error .timeoutError
  obtain ⟨k, hsent, hpos⟩ := client.propose_sent answer printable request order
  refine ⟨buildPrompt printable request order, request, ?_, order, answer, hwalks,
    ⟨client.model, buildPrompt printable request order⟩, ?_, rfl⟩
  · rw [hrequests]
    exact List.mem_singleton_self _
  · rw [hsent]
    exact List.mem_replicate.mpr ⟨Nat.pos_iff_ne_zero.mp hpos, rfl⟩

/-- What is sent is the prompt of the signals. -/
theorem prompt_of_sends [LawfulPyFloat F] {T : List (SignalBaselineInput F)}
    (hload : env.load = .returns T) (hstage : ∃ r, baselineStage w.policy i (.ok T) = .ok r)
    {printable : CodePoint → Bool} {client : GeminiLLMClient} {text : Str}
    (h : w.Sends backend env i before printable client text) :
    ∃ order, Walks order (T.map (·.signal.key)).toFinset ∧
      text = buildPrompt printable ⟨i.tenant, i.incident, i.run, (T.map (·.signal.key)).toFinset⟩
        order := by
  obtain ⟨⟨baseline, ledger⟩, hstage⟩ := hstage
  obtain ⟨request, hrequest, order, answer, hwalks, call, hcall, rfl⟩ := h
  have hone : request = hypothesisRequest i ledger := by
    rw [pipeline_requests hload hstage] at hrequest
    by_cases hcancelled : env.cancelled 0 = true ∨ env.cancelled 1 = true
    · rw [if_pos hcancelled] at hrequest
      cases hrequest
    · rw [if_neg hcancelled] at hrequest
      exact List.mem_singleton.mp hrequest
  have hnamed : request = ⟨i.tenant, i.incident, i.run, (T.map (·.signal.key)).toFinset⟩ := by
    rw [hone, ← baselineStage_allowed hstage]
    rfl
  obtain ⟨k, hsent, -⟩ := client.propose_sent answer printable request order
  rw [hsent] at hcall
  have hcontents : call.contents = buildPrompt printable request order :=
    congrArg GenerateCall.contents (List.eq_of_mem_replicate hcall)
  subst hnamed
  exact ⟨order, hwalks, hcontents⟩

/-- **The model never sees a value.** Two loads with the same signals have the client send the
    same text, whatever was measured and whatever the policy makes of it. -/
theorem prompts_blind [LawfulPyFloat F] {w w' : Worker F} {i i' : InvestigationRecord}
    (htenant : i.tenant = i'.tenant) (hincident : i.incident = i'.incident) (hrun : i.run = i'.run)
    {env env' : Environment F} {T T' : List (SignalBaselineInput F)}
    (hload : env.load = .returns T) (hload' : env'.load = .returns T')
    (hkeys : ∀ key, (∃ input ∈ T, input.signal.key = key) ↔ ∃ input ∈ T', input.signal.key = key)
    (hstage : ∃ r, baselineStage w.policy i (.ok T) = .ok r)
    (hstage' : ∃ r, baselineStage w'.policy i' (.ok T') = .ok r)
    {backend backend' : Backend} {before before' : Tracked F} {printable : CodePoint → Bool}
    {client : GeminiLLMClient} {text text' : Str}
    (h : w.Sends backend env i before printable client text)
    (h' : w'.Sends backend' env' i' before' printable client text') : text = text' := by
  obtain ⟨order, hwalks, rfl⟩ := prompt_of_sends hload hstage h
  obtain ⟨order', hwalks', rfl⟩ := prompt_of_sends hload' hstage' h'
  have hset : (T.map (·.signal.key)).toFinset = (T'.map (·.signal.key)).toFinset := by
    apply Finset.ext
    intro key
    rw [List.mem_toFinset, List.mem_toFinset, List.mem_map, List.mem_map]
    exact hkeys key
  rw [← hset] at hwalks' ⊢
  rw [← htenant, ← hincident, ← hrun]
  exact buildPrompt_congr printable _ hwalks hwalks'

end prompts

namespace Demo

/-- The signals of `latency` and `errors`, with the shift in the other one. -/
def steadyLatency : SignalBaselineInput ExactFloat where
  signal := signal ⟨str "checkout.latency"⟩ latency_valid 1 3 1 3
  absoluteScaleFloor := .fin 9
  finite := rfl
  positive := by decide +kernel

def raisedErrors : SignalBaselineInput ExactFloat where
  signal := signal ⟨str "checkout.errors"⟩ errors_valid 0 0 90 95
  absoluteScaleFloor := .fin (1 / 4)
  finite := rfl
  positive := by decide +kernel

/-- The environments of the two loads. -/
def loading (inputs : List (SignalBaselineInput ExactFloat)) : Environment ExactFloat :=
  { healthy with load := .returns inputs }

theorem staged {inputs : List (SignalBaselineInput ExactFloat)}
    (hkeys : ∀ item ∈ inputs, Encodable item.signal.key.value) (hsize : inputs.length ≤ maxsize)
    (hrank : (rankMetricShifts window inputs policy).isOk = true) :
    ∃ r, baselineStage worker.policy pending (.ok inputs) = .ok r := by
  obtain ⟨baseline, hrank⟩ := exists_of_isOk hrank
  have htenant : TextIdentifier.Valid pending.tenant ∧ Encodable pending.tenant.value :=
    ⟨by decide, encodable_str _⟩
  have hincident : TextIdentifier.Valid pending.incident ∧ Encodable pending.incident.value :=
    ⟨by decide, encodable_str _⟩
  have hrun : TextIdentifier.Valid pending.run ∧ Encodable pending.run.value :=
    ⟨by decide, encodable_str _⟩
  have hwindow : window.Valid := by decide
  obtain ⟨entries, -, -, hcompile⟩ := compile_rank htenant hincident hrun hwindow policy_ok hkeys
    hsize (fun _ => two_lt_limit) hrank
  exact ⟨_, baselineStage_eq_ok.mpr ⟨_, rfl, hrank, hcompile⟩⟩

def client : GeminiLLMClient := ⟨str "gemini-2.5-flash", 2, by decide⟩

end Demo

open Demo in
/-- Two loads in different orders and with different shifts. -/
theorem prompts_blind_demo : ∃ text,
    worker.Sends .memory (loading [latency, errors]) pending Tracked.empty
      (fun _ => true) client text ∧
    worker.Sends .memory (loading [raisedErrors, steadyLatency]) pending Tracked.empty
      (fun _ => true) client text := by
  have hstage : ∃ r, baselineStage worker.policy pending (.ok [latency, errors]) = .ok r :=
    staged (List.forall_mem_cons.mpr ⟨encodable_str _, List.forall_mem_singleton.mpr (encodable_str _)⟩)
      (by decide) (by decide +kernel)
  have hstage' : ∃ r, baselineStage worker.policy pending (.ok [raisedErrors, steadyLatency]) = .ok r :=
    staged (List.forall_mem_cons.mpr ⟨encodable_str _, List.forall_mem_singleton.mpr (encodable_str _)⟩)
      (by decide) (by decide +kernel)
  obtain ⟨text, htext⟩ : ∃ text, worker.Sends .memory (loading [latency, errors]) pending
      Tracked.empty (fun _ => true) client text := exists_sends rfl hstage rfl rfl _ _
  obtain ⟨text', htext'⟩ : ∃ text, worker.Sends .memory (loading [raisedErrors, steadyLatency])
      pending Tracked.empty (fun _ => true) client text := exists_sends rfl hstage' rfl rfl _ _
  have hkeys : ∀ key, (∃ input ∈ [latency, errors], input.signal.key = key) ↔
      ∃ input ∈ [raisedErrors, steadyLatency], input.signal.key = key := by
    intro key
    simp only [List.mem_cons, List.not_mem_nil, or_false, exists_eq_or_imp, exists_eq_left]
    exact or_comm
  have hsame := prompts_blind rfl rfl rfl rfl rfl hkeys hstage hstage' htext htext'
  exact ⟨text, htext, by rw [hsame]; exact htext'⟩

end IncidentEvidence
