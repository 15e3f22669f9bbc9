import IncidentEvidence.Application.Worker
import IncidentEvidence.Py.Repr

/-! # The Gemini client

    `llm/gemini.py`: the prompt, the attempts to have it answered and what is read
    of the answer. A set has no order of its own: the order in which it is walked
    is an argument of `buildPrompt`, and the prompt does not depend on it
    (`buildPrompt_congr`).
-/

namespace IncidentEvidence

open Py Py.Action

/-! ### The prompt -/

/-- `str` of a signal key: the literal of a dataclass. -/
def SignalKey.str (printable : CodePoint → Bool) (key : SignalKey) : Str :=
  Py.str "SignalKey(value=" ++ repr printable key.value ++ Py.str ")"

theorem SignalKey.str_injective (printable : CodePoint → Bool) :
    Function.Injective (SignalKey.str printable) := by
  intro a b h
  unfold SignalKey.str at h
  rw [List.append_left_inj, List.append_right_inj] at h
  have hvalue := repr_injective printable h
  exact congrArg SignalKey.mk hvalue

/-- `"\n".join(lines)`. -/
def joinLines (lines : List Str) : Str := List.intercalate (str "\n") lines

/-- An order in which a set can be walked. -/
def Walks (order : List SignalKey) (keys : Finset SignalKey) : Prop :=
  order.Nodup ∧ order.toFinset = keys

instance (order : List SignalKey) (keys : Finset SignalKey) : Decidable (Walks order keys) :=
  inferInstanceAs (Decidable (_ ∧ _))

section prompt
variable (printable : CodePoint → Bool) (request : HypothesisRequest)

/-- The lines of the allowed signals. -/
def signalLines (order : List SignalKey) : Str :=
  joinLines ((sortedOn (SignalKey.str printable) order).map fun key => str "  - " ++ key.value)

/-- `_build_prompt`, when the allowed signals are walked in this order. -/
@[irreducible] def buildPrompt (order : List SignalKey) : Str :=
  str "You assist an incident investigation. Propose descriptive metric-shift hypotheses " ++
  str "that can be verified against evidence.\n\n" ++
  str "Return ONLY a single JSON object (no markdown fences, no prose) with exactly these " ++
  str "fields:\n" ++
  str "  \"hypothesis_id\": a short non-empty string,\n" ++
  str "  \"tenant_id\": \"" ++ request.tenant.value ++ str "\",\n" ++
  str "  \"incident_id\": \"" ++ request.incident.value ++ str "\",\n" ++
  str "  \"run_id\": \"" ++ request.run.value ++ str "\",\n" ++
  str "  \"semantics\": \"descriptive\",\n" ++
  str "  \"composition\": \"any\",\n" ++
  str "  \"predicates\": a JSON list of 1 to 5 objects, each exactly " ++
  str "\x7b\"predicate_id\": \"<unique non-empty string>\", \"signal_key\": \"<one allowed signal>\", " ++
  str "\"expected_direction\": \"increase\" or \"decrease\"\x7d.\n\n" ++
  str "Strict rules:\n" ++
  str "- Copy tenant_id, incident_id and run_id EXACTLY as shown above.\n" ++
  str "- \"semantics\" must be exactly \"descriptive\".\n" ++
  str "- \"composition\" must be exactly \"all\" or \"any\".\n" ++
  str "- \"expected_direction\" must be exactly \"increase\" or \"decrease\" (lower case).\n" ++
  str "- Every signal_key MUST be copied verbatim from the allowed list below; use no " ++
  str "other names.\n" ++
  str "- Pick the few signals most likely to show the incident\x27s metric shift.\n\n" ++
  str "Allowed signal keys:\n" ++ signalLines printable order ++ str "\n"

/-- The prompt does not depend on how the set is walked: no two keys have one `str`. -/
theorem buildPrompt_congr {order order' : List SignalKey} (h : Walks order request.allowedSignals)
    (h' : Walks order' request.allowedSignals) :
    buildPrompt printable request order = buildPrompt printable request order' := by
  have hperm : order.Perm order' := by
    apply List.perm_of_nodup_nodup_toFinset_eq h.1 h'.1
    rw [h.2, h'.2]
  have hnodup : (order.map (SignalKey.str printable)).Nodup :=
    h.1.map (SignalKey.str_injective printable)
  unfold buildPrompt signalLines
  rw [sortedOn_eq_of_perm hperm hnodup]

end prompt

/-! ### Attempts -/

/-- What the client reads of a response. -/
structure GenerateResponse where
  text : Option Str
  promptTokenCount : Option Int
  candidatesTokenCount : Option Int

/-- The arguments of a call of `generate_content`. -/
structure GenerateCall where
  model : Str
  contents : Str
  deriving DecidableEq

/-- `GeminiLLMClient`. -/
structure GeminiLLMClient where
  model : Str
  maxAttempts : ℕ
  positive : 1 ≤ maxAttempts

namespace GeminiLLMClient

variable (client : GeminiLLMClient) (answer : ℕ → Except PyException GenerateResponse)

/-- The loop of `_generate` with `n` attempts left. The state is what has been sent so far, and
    `answer` what an attempt meets; an attempt past its deadline meets `TimeoutError`. -/
def attempts (prompt : Str) : ℕ → ℕ → Action PyException (List GenerateCall) GenerateResponse
  | 0, _ => throw (.llm .providerUnavailable)
  | n + 1, attempt => do
    modify fun sent => sent ++ [⟨client.model, prompt⟩]
    match answer attempt with
    | .ok response => return response
    | .error e =>
      if e = .timeoutError then throw (.llm .providerTimeout)
      else if e.isException = false then throw e
      else if client.maxAttempts ≤ attempt then throw (.llm .providerUnavailable)
      else attempts prompt n (attempt + 1)

/-- `_generate`. -/
def generate (prompt : Str) : Action PyException (List GenerateCall) GenerateResponse :=
  client.attempts answer prompt client.maxAttempts 1

/-- The loop sends the prompt, once or more, and nothing else. -/
theorem attempts_sent (prompt : Str) (n attempt : ℕ) (sent : List GenerateCall) :
    ∃ k, ((client.attempts answer prompt n attempt).exec sent).2 =
      sent ++ List.replicate k ⟨client.model, prompt⟩ ∧ (0 < n → 0 < k) := by
  induction n generalizing attempt sent with
  | zero => exact ⟨0, (List.append_nil sent).symm, fun h => h⟩
  | succ n ih =>
    -- an attempt that is the last one
    have hlast : ∃ k, sent ++ [⟨client.model, prompt⟩] =
        sent ++ List.replicate k ⟨client.model, prompt⟩ ∧ (0 < n + 1 → 0 < k) :=
      ⟨1, rfl, fun _ => Nat.one_pos⟩
    unfold attempts
    simp only [exec_bind, exec_modify]
    cases answer attempt with
    | ok response => exact hlast
    | error e =>
      by_cases htimeout : e = .timeoutError
      · simp only [if_pos htimeout]
        exact hlast
      · by_cases hexception : e.isException = false
        · simp only [if_neg htimeout, if_pos hexception]
          exact hlast
        · by_cases hattempt : client.maxAttempts ≤ attempt
          · simp only [if_neg htimeout, if_neg hexception, if_pos hattempt]
            exact hlast
          · simp only [if_neg htimeout, if_neg hexception, if_neg hattempt]
            obtain ⟨k, hk, -⟩ := ih (attempt + 1) (sent ++ [⟨client.model, prompt⟩])
            refine ⟨k + 1, ?_, fun _ => Nat.succ_pos k⟩
            rw [hk, List.append_assoc, List.replicate_succ]
            rfl

/-! ### Answers -/

/-- The characters that end a line. -/
def endsLine (c : CodePoint) : Bool :=
  c.ord ∈ [0x0a, 0x0b, 0x0c, 0x0d, 0x1c, 0x1d, 0x1e, 0x85, 0x2028, 0x2029]

/-- `splitlines` after the part `line` of a line; `\r\n` ends one line. -/
def splitLinesFrom (line : Str) : Str → List Str
  | [] => if line = [] then [] else [line]
  | .scalar '\r' :: .scalar '\n' :: rest => line :: splitLinesFrom [] rest
  | c :: rest =>
    if endsLine c then line :: splitLinesFrom [] rest else splitLinesFrom (line ++ [c]) rest

/-- `_unwrap_json`. -/
def unwrapJson (text : Str) : Str :=
  let stripped := strip text
  if (str "```").isPrefixOf stripped = false then stripped
  else
    let lines := splitLinesFrom [] stripped
    let lines := match lines with
      | first :: rest => if (str "```").isPrefixOf first then rest else lines
      | [] => lines
    let lines := match lines.getLast? with
      | some last => if strip last = str "```" then lines.dropLast else lines
      | none => lines
    strip (joinLines lines)

/-- What `propose_metric_hypotheses` makes of a response. -/
def proposalOf (response : GenerateResponse) : Except PyException LLMProposal :=
  match response.text with
  | none => .error (.llm .providerResponse)
  | some text =>
    if isBlank text then .error (.llm .providerResponse)
    else .ok {
      rawJson := .ok (unwrapJson text)
      promptTokens := response.promptTokenCount
      completionTokens := response.candidatesTokenCount }

variable (printable : CodePoint → Bool)

/-- `propose_metric_hypotheses`, when the allowed signals are walked in this order. -/
def proposeMetricHypotheses (request : HypothesisRequest) (order : List SignalKey) :
    Action PyException (List GenerateCall) LLMProposal := do
  let response ← client.generate answer (buildPrompt printable request order)
  lift (proposalOf response)

/-- **A request has its prompt sent** to the model of the client, once or more, and nothing
    else. -/
theorem propose_sent (request : HypothesisRequest) (order : List SignalKey) :
    ∃ k, ((client.proposeMetricHypotheses answer printable request order).exec []).2 =
      List.replicate k ⟨client.model, buildPrompt printable request order⟩ ∧ 0 < k := by
  obtain ⟨k, hk, hpos⟩ := client.attempts_sent answer (buildPrompt printable request order)
    client.maxAttempts 1 []
  refine ⟨k, ?_, hpos client.positive⟩
  rw [List.nil_append] at hk
  rw [← hk]
  unfold proposeMetricHypotheses generate
  rw [exec_bind]
  rcases (client.attempts answer (buildPrompt printable request order) client.maxAttempts 1).exec []
    with ⟨r, sent⟩
  cases r with
  | error e => rfl
  | ok response => rfl

end GeminiLLMClient

end IncidentEvidence
