import IncidentEvidence.Application.Draining
import IncidentEvidence.Application.VerifyStage
import IncidentEvidence.Domain.Verdicts
import IncidentEvidence.Llm.Gemini
import IncidentEvidence.Py.JsonRoundTrip
import Mathlib.Data.Finset.Max

/-! # The smoke client

    `runtime/demo_llm.py`: the client that boots the system without credentials. It proposes
    that the first of the allowed signals increases, and writes that as JSON.

    What it writes goes through the parser of untrusted output like anything else. It is
    accepted exactly when a signal is allowed and the text is not too long
    (`first_signal_accepted_iff`), and an undisturbed call of the worker that asks it
    succeeds (`smoke_run_succeeds`).
-/

namespace IncidentEvidence

open Py Py.Action Runs

namespace FirstSignalLLMClient

/-! ### What it proposes -/

/-- `sorted(key.value for key in request.allowed_signals)`, when they are walked in this order. -/
def signals (order : List SignalKey) : List Str := sortedOn id (order.map SignalKey.value)

/-- `{"predicate_id": "p1", "signal_key": ..., "expected_direction": "increase"}`. -/
def predicate (signal : Str) : Json :=
  jsonObj [("predicate_id", .str (str "p1")), ("signal_key", .str signal),
    ("expected_direction", .str (str "increase"))]

def predicates (order : List SignalKey) : List Json :=
  match signals order with
  | signal :: _ => [predicate signal]
  | [] => []

/-- The members of `payload`. -/
def members (request : HypothesisRequest) (order : List SignalKey) : List (String × Json) := [
  ("hypothesis_id", .str (str "smoke-h1")),
  ("tenant_id", .str request.tenant.value),
  ("incident_id", .str request.incident.value),
  ("run_id", .str request.run.value),
  ("semantics", .str (str "descriptive")),
  ("composition", .str (str "any")),
  ("predicates", .arr (predicates order))]

def payload (request : HypothesisRequest) (order : List SignalKey) : Json :=
  jsonObj (members request order)

/-- `json.dumps(payload)`. -/
def rawJson (request : HypothesisRequest) (order : List SignalKey) : Str :=
  Encoder.default.dumps (payload request order)

/-- `propose_metric_hypotheses`. -/
def proposeMetricHypotheses (request : HypothesisRequest) (order : List SignalKey) : LLMProposal where
  rawJson := .ok (rawJson request order)
  promptTokens := none
  completionTokens := none

variable {request : HypothesisRequest} {order : List SignalKey}

theorem nodup_members : ((members request order).map Prod.fst).Nodup := by
  simp [members]

/-- The first of the allowed signals. -/
def First (keys : Finset SignalKey) (key : SignalKey) : Prop :=
  key ∈ keys ∧ ∀ k ∈ keys, key.value ≤ k.value

/-- The first signal is proposed, whatever the order in which the set is walked. -/
theorem predicates_eq_singleton {key : SignalKey} (hwalks : Walks order request.allowedSignals)
    (h : First request.allowedSignals key) : predicates order = [predicate key.value] := by
  have hmem : ∀ s, s ∈ signals order ↔ ∃ k ∈ request.allowedSignals, k.value = s := by
    intro s
    unfold signals
    rw [mem_sortedOn, List.mem_map, ← hwalks.2]
    simp only [List.mem_toFinset]
  have hsorted : (signals order).Pairwise fun a b => a ≤ b := pairwise_sortedOn id _
  unfold predicates
  cases hsignals : signals order with
  | nil =>
    have hkey := (hmem key.value).mpr ⟨key, h.1, rfl⟩
    rw [hsignals] at hkey
    exact absurd hkey List.not_mem_nil
  | cons s rest =>
    rw [hsignals] at hmem hsorted
    -- the head is a signal, and no signal comes before it
    have hle : key.value ≤ s := by
      obtain ⟨k, hk, rfl⟩ := (hmem s).mp List.mem_cons_self
      exact h.2 k hk
    have hge : s ≤ key.value := by
      rcases List.mem_cons.mp ((hmem key.value).mpr ⟨key, h.1, rfl⟩) with heq | hrest
      · exact le_of_eq heq.symm
      · exact List.rel_of_pairwise_cons hsorted hrest
    rw [le_antisymm hge hle]

theorem predicates_eq_nil (hwalks : Walks order request.allowedSignals)
    (h : request.allowedSignals = ∅) : predicates order = [] := by
  have horder : order = [] := by
    rw [← hwalks.2] at h
    exact List.toFinset_eq_empty_iff order |>.mp h
  rw [horder]
  rfl

/-- A set of signals has a first one. -/
theorem exists_first {keys : Finset SignalKey} (h : keys.Nonempty) : ∃ key, First keys key := by
  obtain ⟨key, hmem, hle⟩ := keys.exists_min_image SignalKey.value h
  exact ⟨key, hmem, hle⟩

/-! ### What is read back -/

/-- The texts of a request can be encoded and are not blank. -/
structure Sendable (request : HypothesisRequest) : Prop where
  tenant : TextIdentifier.Valid request.tenant ∧ Encodable request.tenant.value
  incident : TextIdentifier.Valid request.incident ∧ Encodable request.incident.value
  run : TextIdentifier.Valid request.run ∧ Encodable request.run.value
  keys : ∀ key ∈ request.allowedSignals, TextIdentifier.Valid key ∧ Encodable key.value

theorem writable_jsonObj {fields : List (String × Json)} (hnodup : (fields.map Prod.fst).Nodup)
    (h : ∀ kv ∈ fields, kv.2.Writable Encodable) : (jsonObj fields).Writable Encodable := by
  constructor
  · rw [List.map_map]
    have hkeys := hnodup.map (f := str) fun _ _ h => str_inj.mp h
    rw [List.map_map] at hkeys
    exact hkeys
  · apply writableFields_iff.mpr
    intro kv hkv
    obtain ⟨f, hf, rfl⟩ := List.mem_map.mp hkv
    exact ⟨encodable_str _, h f hf⟩

theorem writable_predicate {signal : Str} (h : Encodable signal) :
    (predicate signal).Writable Encodable := by
  apply writable_jsonObj (by simp)
  simp only [List.forall_mem_cons, List.not_mem_nil, false_implies, implies_true, and_true]
  exact ⟨encodable_str _, h, encodable_str _⟩

theorem writable_payload (h : Sendable request) (hpredicates : ∀ v ∈ predicates order,
    v.Writable Encodable) : (payload request order).Writable Encodable := by
  apply writable_jsonObj nodup_members
  unfold members
  simp only [List.forall_mem_cons, List.not_mem_nil, false_implies, implies_true, and_true]
  exact ⟨encodable_str _, h.tenant.2, h.incident.2, h.run.2, encodable_str _, encodable_str _,
    writableItems_iff.mpr hpredicates⟩

/-- `json.loads` reads the payload back. -/
theorem loads_rawJson (h : Sendable request) (hpredicates : ∀ v ∈ predicates order,
    v.Writable Encodable ∧ v.nesting ≤ 1) {depth : ℕ} (hdepth : 3 ≤ depth) :
    loads depth (rawJson request order) = .ok (payload request order) := by
  have hwritable := writable_payload h fun v hv => (hpredicates v hv).1
  have hnesting : (payload request order).nesting ≤ depth := by
    have hitems : nestingItems (predicates order) ≤ 1 :=
      nestingItems_le.mpr fun v hv => (hpredicates v hv).2
    -- the predicates are the one member that is nested
    have heq : (payload request order).nesting = 1 + (1 + nestingItems (predicates order)) := by
      simp [payload, members, jsonObj, Json.nesting, nestingFields]
    omega
  have hread := Encoder.loads_dumps Encoder.lawful_default hwritable hnesting (Or.inl rfl)
  rw [List.append_nil, Encoder.arrange_unsorted rfl] at hread
  exact hread

/-- The document that is read back. -/
def document (request : HypothesisRequest) (h : Sendable request) {key : SignalKey}
    (hkey : key ∈ request.allowedSignals) : HypothesisDocument where
  hypothesisId := str "smoke-h1"
  tenantId := request.tenant
  incidentId := request.incident
  runId := request.run
  semantics := .descriptive
  composition := .any
  predicates := [⟨str "p1", key, .increase, by decide, (h.keys key hkey).1⟩]
  ok := ⟨by decide, h.tenant.1, h.incident.1, h.run.1, Nat.le_refl 1, Nat.one_le_ofNat,
    List.nodup_singleton _, List.nodup_singleton _⟩

/-- A member of an object is found under its key. -/
theorem getItem_member {fields : List (String × Json)} (hnodup : (fields.map Prod.fst).Nodup)
    {key : String} {v : Json} (h : (key, v) ∈ fields) :
    getItem (fields.map fun kv => (str kv.1, kv.2)) key = .ok v := by
  apply getItem_eq_ok.mpr
  induction fields with
  | nil => exact absurd h List.not_mem_nil
  | cons kv fields ih =>
    obtain ⟨hnew, hnodup⟩ := List.nodup_cons.mp hnodup
    rw [List.map_cons, List.lookup_cons]
    rcases List.mem_cons.mp h with rfl | hmem
    · rw [beq_self_eq_true]
    · have hne : str key ≠ str kv.1 := by
        intro heq
        rw [← str_inj.mp heq] at hnew
        exact hnew (List.mem_map_of_mem hmem)
      rw [beq_eq_false_iff_ne.mpr hne]
      exact ih hnodup hmem

theorem identifierOf_valid {ι : Type} [TextIdentifier ι] {i : ι} (h : TextIdentifier.Valid i) :
    identifierOf ι (.str (TextIdentifier.value i)) = .ok i :=
  identifierOf_eq_ok.mpr ⟨_, rfl, h, (TextIdentifier.make_value i).symm⟩

theorem buildPredicate_predicate {limits : RecursionLimits} {key : SignalKey}
    (hkey : TextIdentifier.Valid key) : buildPredicate limits (predicate key.value) =
      .ok ⟨str "p1", key, .increase, by decide, hkey⟩ := by
  have hdirection : expectedDirection limits (.str (str "increase")) = .ok .increase := rfl
  unfold predicate jsonObj
  simp only [buildPredicate, bind_eq_ok]
  refine ⟨_, getItem_member (by simp) (v := .str (str "p1")) (by simp), _,
    getItem_member (by simp) (v := .str key.value) (by simp), key, identifierOf_valid hkey, _,
    getItem_member (by simp) (v := .str (str "increase")) (by simp), .increase, hdirection, ?_⟩
  apply liftDomain_eq_ok.mpr
  exact dif_pos ⟨by decide, hkey⟩

/-- The builder reaches the constructor with what the client was asked about. -/
theorem buildDocument_members {limits : RecursionLimits} (h : Sendable request)
    {entries : List Json} {objects : List MetricShiftPredicate}
    (hobjects : entries.mapM (buildPredicate limits) = .ok objects) :
    buildDocument limits ((members request order).map fun kv => (str kv.1, kv.2)) entries =
      liftDomain (Document.construct (str "smoke-h1") request.tenant request.incident request.run
        .descriptive .any objects) := by
  have hsemantics : hypothesisSemantics limits (.str (str "descriptive")) = .ok .descriptive := rfl
  have hcomposition : hypothesisComposition limits (.str (str "any")) = .ok .any := rfl
  have hget : ∀ (key : String) (v : Json), (key, v) ∈ members request order →
      getItem ((members request order).map fun kv => (str kv.1, kv.2)) key = .ok v :=
    fun key v => getItem_member nodup_members
  unfold buildDocument
  rw [hobjects, hget "hypothesis_id" (.str (str "smoke-h1")) (by simp [members]),
    hget "tenant_id" (.str request.tenant.value) (by simp [members]),
    hget "incident_id" (.str request.incident.value) (by simp [members]),
    hget "run_id" (.str request.run.value) (by simp [members]),
    hget "semantics" (.str (str "descriptive")) (by simp [members]),
    hget "composition" (.str (str "any")) (by simp [members])]
  have htenant : identifierOf TenantId (.str request.tenant.value) = .ok request.tenant :=
    identifierOf_valid h.tenant.1
  have hincident : identifierOf IncidentId (.str request.incident.value) = .ok request.incident :=
    identifierOf_valid h.incident.1
  have hrun : identifierOf RunId (.str request.run.value) = .ok request.run :=
    identifierOf_valid h.run.1
  simp only [bind, Except.bind, htenant, hincident, hrun, hsemantics, hcomposition]
  -- constructing the document again changes nothing
  cases Document.construct (str "smoke-h1") request.tenant request.incident request.run
      .descriptive .any objects with
  | error e => rfl
  | ok d =>
    show liftDomain (validateDocument d) = liftDomain (.ok d)
    rw [validateDocument_eq]

/-- The boundary reads a proposal that is short enough down to the builder. -/
theorem parse_members (h : Sendable request) {limits : RecursionLimits} (hdepth : 3 ≤ limits.decode)
    (hlength : (rawJson request order).length ≤ MAX_PROPOSAL_CHARS)
    (hpredicates : ∀ v ∈ predicates order, v.Writable Encodable ∧ v.nesting ≤ 1)
    (hbound : (predicates order).length ≤ MAX_PREDICATES) :
    parseMetricHypothesis limits (rawJson request order) request.allowedSignals = do
      let document ← exceptRaise isStructuralRejection (.llm .proposalSchema)
        (buildDocument limits ((members request order).map fun kv => (str kv.1, kv.2))
          (predicates order))
      require (∀ p ∈ document.predicates, p.signalKey ∈ request.allowedSignals)
        (.llm .unauthorizedEntity)
      return document := by
  have hbrace : CodePoint.scalar '\x7b' ∈ rawJson request order := List.mem_cons_self
  have hblank := isBlank_eq_false_of_mem hbrace (by decide)
  have hdecode : decodeProposal limits (rawJson request order) = .ok (payload request order) :=
    decodeProposal_eq_ok.mpr (loads_rawJson h hpredicates hdepth)
  have hlookup : ((members request order).map fun kv => (str kv.1, kv.2)).lookup (str "predicates") =
      some (.arr (predicates order)) :=
    getItem_eq_ok.mp (getItem_member nodup_members (by simp [members]))
  unfold parseMetricHypothesis
  rw [require, if_pos (not_lt.mpr hlength), require, if_pos hblank, hdecode]
  simp only [bind, Except.bind, payload, jsonObj, hlookup]
  rw [require, if_pos (not_lt.mpr hbound)]

/-- **What the boundary makes of the proposal**, when it is short enough and a signal is
    allowed: the document about the first signal. -/
theorem parse_rawJson (h : Sendable request) {limits : RecursionLimits} (hdepth : 3 ≤ limits.decode)
    (hwalks : Walks order request.allowedSignals)
    (hlength : (rawJson request order).length ≤ MAX_PROPOSAL_CHARS) {key : SignalKey}
    (hfirst : First request.allowedSignals key) :
    parseMetricHypothesis limits (rawJson request order) request.allowedSignals =
      .ok (document request h hfirst.1) := by
  have hkey := h.keys key hfirst.1
  have hpredicates := predicates_eq_singleton hwalks hfirst
  have hobjects : (predicates order).mapM (buildPredicate limits) =
      .ok (document request h hfirst.1).predicates := by
    rw [hpredicates, List.mapM_cons, buildPredicate_predicate hkey.1]
    rfl
  have hconstruct : Document.construct (str "smoke-h1") request.tenant request.incident request.run
      .descriptive .any (document request h hfirst.1).predicates =
        .ok (document request h hfirst.1) :=
    Document.construct_eq_ok.mpr ⟨(document request h hfirst.1).ok, rfl⟩
  have hallowed : ∀ p ∈ (document request h hfirst.1).predicates,
      p.signalKey ∈ request.allowedSignals := List.forall_mem_singleton.mpr hfirst.1
  rw [parse_members h hdepth hlength, buildDocument_members h hobjects, hconstruct]
  · show (require _ _ >>= fun _ => _) = _
    rw [require, if_pos hallowed]
    rfl
  · rw [hpredicates]
    exact List.forall_mem_singleton.mpr ⟨writable_predicate hkey.2, le_refl 1⟩
  · rw [hpredicates]
    exact Nat.one_le_ofNat

/-- Without a signal it is rejected. -/
theorem parse_rawJson_empty (h : Sendable request) {limits : RecursionLimits}
    (hdepth : 3 ≤ limits.decode) (hwalks : Walks order request.allowedSignals)
    (hlength : (rawJson request order).length ≤ MAX_PROPOSAL_CHARS)
    (hempty : request.allowedSignals = ∅) :
    parseMetricHypothesis limits (rawJson request order) request.allowedSignals =
      .error (.llm .proposalSchema) := by
  have hpredicates := predicates_eq_nil hwalks hempty
  have hobjects : (predicates order).mapM (buildPredicate limits) = .ok [] := by
    rw [hpredicates]
    rfl
  have hconstruct : Document.construct (P := MetricShiftPredicate) (str "smoke-h1") request.tenant
      request.incident request.run .descriptive .any [] = .error .invalidHypothesis := by
    -- a document has a predicate
    exact dif_neg fun hok => absurd hok.nonempty (by decide)
  rw [parse_members h hdepth hlength, buildDocument_members h hobjects, hconstruct]
  · rfl
  · rw [hpredicates]
    exact fun v hv => absurd hv List.not_mem_nil
  · rw [hpredicates]
    exact Nat.zero_le _

/-- **The parser accepts the client's proposal exactly when a signal is allowed and the text is not
    too long**, and then it is about the first signal. Otherwise it is rejected for its
    length, or for the predicate it does not have. -/
theorem first_signal_accepted_iff (h : Sendable request) {limits : RecursionLimits}
    (hdepth : 3 ≤ limits.decode) (hwalks : Walks order request.allowedSignals) :
    (∀ d, parseMetricHypothesis limits (rawJson request order) request.allowedSignals = .ok d ↔
      (rawJson request order).length ≤ MAX_PROPOSAL_CHARS ∧
        ∃ key, ∃ hfirst : First request.allowedSignals key, d = document request h hfirst.1) ∧
    ∀ e, parseMetricHypothesis limits (rawJson request order) request.allowedSignals = .error e ↔
      (MAX_PROPOSAL_CHARS < (rawJson request order).length ∧ e = .llm .proposalTooLarge ∨
        (rawJson request order).length ≤ MAX_PROPOSAL_CHARS ∧ request.allowedSignals = ∅ ∧
          e = .llm .proposalSchema) := by
  by_cases hlength : (rawJson request order).length ≤ MAX_PROPOSAL_CHARS
  · by_cases hempty : request.allowedSignals = ∅
    · rw [parse_rawJson_empty h hdepth hwalks hlength hempty]
      have hnone : ∀ key, ¬ First request.allowedSignals key := by
        intro key hfirst
        rw [hempty] at hfirst
        exact absurd hfirst.1 (Finset.notMem_empty key)
      refine ⟨fun d => ⟨fun hd => (nomatch hd), fun hd => ?_⟩, fun e => ?_⟩
      · obtain ⟨-, key, hfirst, -⟩ := hd
        exact absurd hfirst (hnone key)
      · rw [Except.error.injEq]
        constructor
        · exact fun he => Or.inr ⟨hlength, hempty, he.symm⟩
        · rintro (⟨hlong, -⟩ | ⟨-, -, rfl⟩)
          · omega
          · rfl
    · obtain ⟨key, hfirst⟩ := exists_first (Finset.nonempty_iff_ne_empty.mpr hempty)
      rw [parse_rawJson h hdepth hwalks hlength hfirst]
      refine ⟨fun d => ?_, fun e => ⟨fun he => (nomatch he), fun he => ?_⟩⟩
      · rw [Except.ok.injEq]
        constructor
        · exact fun hd => ⟨hlength, key, hfirst, hd.symm⟩
        · rintro ⟨-, key', hfirst', rfl⟩
          -- there is one first signal
          have hkey : key = key' := congrArg SignalKey.mk
            (le_antisymm (hfirst.2 key' hfirst'.1) (hfirst'.2 key hfirst.1))
          subst hkey
          rfl
      · rcases he with ⟨hlong, -⟩ | ⟨-, hnone, -⟩
        · omega
        · exact absurd hnone hempty
  · have hlong : MAX_PROPOSAL_CHARS < (rawJson request order).length := by omega
    have herror : parseMetricHypothesis limits (rawJson request order) request.allowedSignals =
        .error (.llm .proposalTooLarge) := by
      unfold parseMetricHypothesis
      rw [require, if_neg (not_not.mpr hlong)]
      rfl
    rw [herror]
    refine ⟨fun d => ⟨fun hd => (nomatch hd), fun hd => absurd hd.1 hlength⟩, fun e => ?_⟩
    rw [Except.error.injEq]
    constructor
    · exact fun he => Or.inl ⟨hlong, he.symm⟩
    · rintro (⟨-, rfl⟩ | ⟨hshort, -⟩)
      · rfl
      · exact absurd hshort hlength

end FirstSignalLLMClient

namespace Demo

/-- What the worker asks about the first investigation of the demonstration. -/
def smokeRequest : HypothesisRequest :=
  ⟨pending.tenant, pending.incident, pending.run, {latency.signal.key}⟩

theorem smokeRequest_sendable : FirstSignalLLMClient.Sendable smokeRequest where
  tenant := ⟨by decide, encodable_str _⟩
  incident := ⟨by decide, encodable_str _⟩
  run := ⟨by decide, encodable_str _⟩
  keys := by
    intro key hkey
    obtain rfl := Finset.mem_singleton.mp hkey
    exact ⟨by decide, encodable_str _⟩

theorem smokeRequest_short : (FirstSignalLLMClient.rawJson smokeRequest [latency.signal.key]).length ≤
    MAX_PROPOSAL_CHARS := by
  decide +kernel

/-- A call that finds telemetry and asks the smoke client. -/
def smoke : Environment ExactFloat :=
  { noTelemetry with
    load := .returns [latency]
    proposal := .returns
      (FirstSignalLLMClient.proposeMetricHypotheses smokeRequest [latency.signal.key]) }

end Demo

open Demo in
theorem first_signal_accepted_iff_demo : ∃ d, parseMetricHypothesis ⟨1000, 1000⟩
    (FirstSignalLLMClient.rawJson smokeRequest [latency.signal.key]) {latency.signal.key} = .ok d := by
  have hwalks : Walks [latency.signal.key] smokeRequest.allowedSignals := by decide
  have hdepth : 3 ≤ (⟨1000, 1000⟩ : RecursionLimits).decode := by decide
  obtain ⟨hok, -⟩ :=
    FirstSignalLLMClient.first_signal_accepted_iff smokeRequest_sendable hdepth hwalks
  have hfirst : FirstSignalLLMClient.First smokeRequest.allowedSignals latency.signal.key :=
    ⟨Finset.mem_singleton_self _, fun k hk => by rw [Finset.mem_singleton.mp hk]⟩
  exact ⟨_, (hok _).mpr ⟨smokeRequest_short, _, hfirst, rfl⟩⟩

/-! ### A call that asks it -/

section call
variable {F : Type} [PyFloat F] [LawfulPyFloat F] [FloatHex F] [Sha256] {w : Worker F}
  {env : Environment F} {S : Tracked F} {investigation : InvestigationRecord} {p : Prepared F}

/-- A call that nothing disturbs files what its stages made. -/
theorem Claim.Healthy.files (hcalm : env.Calm) {claim : Claim w env S.store}
    (h : claim.Healthy investigation p) :
    Wp (w.runOnce .memory env) (Session.start S) (fun _ s' => s'.shared.provenance =
      S.provenance.set investigation.investigationId.value p.toProvenance) (fun _ _ => True) := by
  refine wp_runOnce_entry h.found h.status (fun n _ => hcalm.cancelled n)
    (fun n _ _ => hcalm.fails n) ?_
  unfold Worker.process
  simp only [wp_bind, wp_attempt]
  apply wp_runPipeline_granted h.prepared (hcalm.cancelled _) (hcalm.cancelled _)
  have hcurrent : InvestigationRepository.find? (claim.entry investigation).working.store
      investigation.tenant investigation.investigationId =
        some (investigation.withStatus .running (env.system 0)) := by
    rw [h.filed]
    exact InvestigationRepository.find?_eq_some.mpr ⟨Dict.get?_set_self _ _ _, rfl⟩
  apply (persist_spec (Worker.prepare_eq_ok h.prepared) (by exact hcurrent)).mono
  · intro _ s₁ h₁
    obtain ⟨_, _, _, -, -, -, h₁⟩ := h₁
    have hjob : JobQueue.find? s₁.working.store claim.claimed.tenant claim.claimed.jobId =
        some claim.row := by
      rw [h₁.working]
      exact JobQueue.find?_eq_some.mpr ⟨Dict.get?_set_self _ _ _, rfl⟩
    refine wp_setJobStatus hjob (fun _ _ => trivial) fun t₂ s₂ h₂ => ?_
    apply (recordAttempt_spec .succeeded none).mono
    · intro _ s₃ h₃
      obtain ⟨_, -, -, h₃⟩ := h₃
      rw [← wp_bind]
      refine wp_commitReturn trivial ?_
      show s₃.working.provenance = _
      rw [h₃.working, Tracked.withStore, h₂.working, Tracked.withStore, h₁.working]
      rfl
    · exact fun _ _ _ => trivial
  · intro e s₁ h₁
    obtain ⟨-, rfl | ⟨rows, -, hreport, -⟩⟩ := h₁
    · trivial
    · -- the investigation has no report yet
      have hnone := h.unreported
      rw [← h.filed] at hnone
      exact absurd hreport (Option.not_isSome_iff_eq_none.mpr hnone)

end call

section smoke
variable {F : Type} [PyFloat F] [LawfulPyFloat F] [FloatHex F] [LawfulFloatHex F]
  [Sha256] {w : Worker F} {env : Environment F} {investigation : InvestigationRecord}
  {inputs : List (SignalBaselineInput F)} {baseline : BaselineResult F}
  {ledger : MetricEvidenceLedger F} {order : List SignalKey}

open FirstSignalLLMClient Serialization

omit [LawfulFloatHex F] in
/-- What the worker asks about can be written: the ledger was hashed from it. -/
theorem sendable_request (hstage : baselineStage w.policy investigation (.ok inputs) =
    .ok (baseline, ledger)) (hne : inputs ≠ []) : Sendable (hypothesisRequest investigation ledger) := by
  have hranked := ranked_of_stage hstage
  have haccepted := hranked.accepted
  obtain ⟨_, heq, -, hcompile⟩ := baselineStage_eq_ok.mp hstage
  obtain ⟨-, htenant, hincident, hrun, -⟩ := compile_eq_ok hcompile
  obtain ⟨e₀, he₀⟩ := List.exists_mem_of_ne_nil _ (entries_ne_nil hstage hne)
  have hwritten := Accepted.texts haccepted he₀
  constructor
  · show TextIdentifier.Valid investigation.tenant ∧ Encodable investigation.tenant.value
    rw [← htenant]
    exact ⟨haccepted.tenant, hwritten.tenant⟩
  · show TextIdentifier.Valid investigation.incident ∧ Encodable investigation.incident.value
    rw [← hincident]
    exact ⟨haccepted.incident, hwritten.incident⟩
  · show TextIdentifier.Valid investigation.run ∧ Encodable investigation.run.value
    rw [← hrun]
    exact ⟨haccepted.run, hwritten.run⟩
  · intro key hkey
    obtain ⟨e, he, rfl⟩ := List.mem_map.mp (List.mem_toFinset.mp hkey)
    exact ⟨(haccepted.entries e he).evaluation.key, (Accepted.texts haccepted he).key⟩

/-- What the stages make of the client's proposal. -/
theorem prepare_smoke [InfinitePyFloat F] {key : SignalKey} (hload : env.load = .returns inputs)
    (hne : inputs ≠ [])
    (hstage : baselineStage w.policy investigation (.ok inputs) = .ok (baseline, ledger))
    (hwalks : Walks order (allowedSignals ledger))
    (hproposal : env.proposal =
      .returns (proposeMetricHypotheses (hypothesisRequest investigation ledger) order))
    (hdepth : 3 ≤ env.limits.decode)
    (hlength : (rawJson (hypothesisRequest investigation ledger) order).length ≤ MAX_PROPOSAL_CHARS)
    (hfirst : First (allowedSignals ledger) key) :
    ∃ p, w.prepare env investigation = .ok p ∧
      p.document = document (hypothesisRequest investigation ledger) (sendable_request hstage hne)
        hfirst.1 ∧
      verifyHypothesis p.document ledger = .ok p.verification ∧
      verificationJson p.verification = .ok p.report := by
  have hsendable := sendable_request hstage hne
  have hranked := ranked_of_stage hstage
  obtain ⟨verification, entries, baselineReport, hverified, heq⟩ := verifyStage_eq hranked
    (entries_ne_nil hstage hne) (document (hypothesisRequest investigation ledger) hsendable hfirst.1)
  obtain ⟨report, hreport⟩ : ∃ report, verificationJson verification = .ok report := by
    apply verificationJson_ok hverified (encodable_str _)
    exact List.forall_mem_singleton.mpr (encodable_str _)
  rw [hreport] at heq
  have hparsed : parseStage env.limits
      (proposeMetricHypotheses (hypothesisRequest investigation ledger) order)
      (allowedSignals ledger) = .ok (document _ hsendable hfirst.1) := by
    apply terminalOnValidation_eq_ok.mpr
    exact bind_eq_ok.mpr ⟨_, rfl, parse_rawJson hsendable hdepth hwalks hlength hfirst⟩
  refine ⟨⟨⟨baseline, ledger, document _ hsendable hfirst.1, verification⟩, entries, report,
    baselineReport⟩, ?_, rfl, hverified, hreport⟩
  simp only [Worker.prepare, bind_eq_ok, hload, hproposal]
  exact ⟨.ok inputs, rfl, _, hstage, _, rfl, _, rfl, (), rfl, _, hparsed, heq⟩

omit [LawfulFloatHex F] in
/-- The verdict on the client's document is that on its predicate. -/
theorem verified_smoke {key : SignalKey} {e : MetricShiftEvidence F}
    {v : HypothesisVerificationResult F} (hne : inputs ≠ [])
    (hstage : baselineStage w.policy investigation (.ok inputs) = .ok (baseline, ledger))
    (hkey : key ∈ allowedSignals ledger) (he : e ∈ ledger.entries) (hof : e.signalKey = key)
    (h : verifyHypothesis (document (hypothesisRequest investigation ledger)
      (sendable_request hstage hne) hkey) ledger = .ok v) :
    v.reason = none ∧ v.predicateResults = (document (hypothesisRequest investigation ledger)
      (sendable_request hstage hne) hkey).predicates.map
        fun q => evaluatePredicate q (some e) w.policy.minimumScore := by
  have hranked := ranked_of_stage hstage
  obtain ⟨_, heq, -, hcompile⟩ := baselineStage_eq_ok.mp hstage
  obtain ⟨-, htenant, hincident, hrun, -⟩ := compile_eq_ok hcompile
  obtain ⟨-, rfl⟩ := verifyHypothesis_eq_ok.mp h
  have hgate : documentReason UnknownReason.contextMismatch .causalClaimNotVerifiable
      (document (hypothesisRequest investigation ledger) (sendable_request hstage hne) hkey)
      ledger.tenantId ledger.incidentId ledger.runId = none :=
    documentReason_eq_none.mpr ⟨⟨htenant.symm, hincident.symm, hrun.symm⟩, rfl⟩
  have hentry : bySignal ledger.normalized.entries key = some e := by
    rw [← hranked.normalized]
    exact (bySignal_eq_some hranked.accepted.increasing).mpr ⟨he, hof⟩
  unfold verifyDocument
  rw [hgate]
  refine ⟨rfl, ?_⟩
  show [evaluatePredicate _ (bySignal ledger.normalized.entries key) _] = _
  rw [hentry, hranked.policy]
  rfl

/-- **A call that asks the smoke client succeeds**: it finds telemetry that can be ranked, the proposal
    is within the limits, and nothing disturbs it. The report is about the first signal, and its
    verdict is what the verifier makes of the entry of that signal in the ledger. -/
theorem smoke_run_succeeds [InfinitePyFloat F] {s : Service F}
    (hreachable : Reachable (Service.system F) s) (hcalm : env.Calm)
    (claim : Claim w env s.committed.store)
    (hfound : InvestigationRepository.find? s.committed.store claim.job.tenant
      claim.job.investigationId = some investigation)
    (hload : env.load = .returns inputs) (hne : inputs ≠ [])
    (hstage : baselineStage w.policy investigation (.ok inputs) = .ok (baseline, ledger))
    (hwalks : Walks order (allowedSignals ledger))
    (hproposal : env.proposal =
      .returns (proposeMetricHypotheses (hypothesisRequest investigation ledger) order))
    (hdepth : 3 ≤ env.limits.decode)
    (hlength : (rawJson (hypothesisRequest investigation ledger) order).length ≤ MAX_PROPOSAL_CHARS)
    (hfresh : env.attemptId ∉ s.drawn) :
    ∃ (s' : Service F) (p : Provenance F) (i' : InvestigationRecord) (r : ReportRecord)
      (key : SignalKey) (e : MetricShiftEvidence F),
      Service.step s (.runOnce w env) s' ∧
      s'.committed.store.investigations.get? claim.job.investigationId.value = some i' ∧
      i'.status = .succeeded ∧
      s'.committed.store.reports.get? claim.job.investigationId.value = some r ∧
      verificationJson p.verification = .ok r.payload.1 ∧
      s'.committed.provenance.get? claim.job.investigationId.value = some p ∧
      First (inputs.map (·.signal.key)).toFinset key ∧
      p.document.predicates.map (fun q => (q.signalKey, q.expectedDirection)) = [(key, .increase)] ∧
      e ∈ ledger.entries ∧ e.signalKey = key ∧ p.verification.reason = none ∧
      p.verification.predicateResults =
        p.document.predicates.map fun q => evaluatePredicate q (some e) w.policy.minimumScore := by
  have hlife := lifecycle_reachable hreachable
  obtain ⟨-, -, i, hi, htenant, -, hstatus, hreport⟩ := claim.alive hlife
  obtain ⟨hget, -⟩ := InvestigationRepository.find?_eq_some.mp hfound
  obtain rfl := Option.some.inj (hi.symm.trans hget)
  have hid : i.investigationId = claim.job.investigationId :=
    InvestigationId.ext (hlife.investigationsKeyed _ _ hi).symm
  -- the first of the signals of the telemetry
  have hallowed := baselineStage_allowed hstage
  obtain ⟨item, hitem⟩ := List.exists_mem_of_ne_nil _ hne
  obtain ⟨key, hfirst⟩ : ∃ key, First (allowedSignals ledger) key := by
    apply exists_first
    rw [hallowed]
    exact ⟨item.signal.key, List.mem_toFinset.mpr (List.mem_map_of_mem hitem)⟩
  obtain ⟨p, hprepare, hdocument, hverified, hwritten⟩ :=
    prepare_smoke hload hne hstage hwalks hproposal hdepth hlength hfirst
  have huntried : AttemptRepository.duplicate s.committed.store
      (w.attemptRow env claim.claimed (env.clock 1) 3 .succeeded none) = false := by
    rw [Bool.eq_false_iff]
    intro hdup
    obtain ⟨a, ha, hsame⟩ := List.any_eq_true.mp hdup
    obtain ⟨hjob, hnumber⟩ := Bool.and_eq_true_iff.mp hsame
    exact claim.unnumbered hlife a ha (of_decide_eq_true hjob) (of_decide_eq_true hnumber)
  have hhealthy : claim.Healthy i p := ⟨hfound, hid, hstatus, hprepare, hreport, huntried⟩
  obtain ⟨s', p', rows, r, t, t', hstep, hmade, -, hof, hs'⟩ :=
    exists_step_succeeded hreachable hcalm hhealthy hfresh
  -- what is filed is what the stages made
  have hfiles : s'.committed.provenance =
      s.committed.provenance.set i.investigationId.value p.toProvenance := by
    have hreturns := runOnce_returns (b := .memory) hcalm hhealthy
    have hfiles := hhealthy.files hcalm
    unfold Wp at hreturns hfiles
    rw [hstep.2.2, session_runOnce]
    rcases hexec : (w.runOnce .memory env).exec (Session.start s.committed) with ⟨result, u⟩
    rw [hexec] at hreturns hfiles
    cases result with
    | ok _ => exact hfiles
    | error e => exact hreturns.elim
  have hsame : p'.toProvenance = p.toProvenance := by
    rw [hs'] at hfiles
    have hget := congrArg (fun d => d.get? i.investigationId.value) hfiles
    simp only [Dict.get?_set_self, Option.some.injEq] at hget
    exact hget
  obtain ⟨e, he, hof'⟩ := List.mem_map.mp (List.mem_toFinset.mp hfirst.1)
  obtain ⟨hreason, hresults⟩ : p.verification.reason = none ∧ p.verification.predicateResults =
      p.document.predicates.map fun q => evaluatePredicate q (some e) w.policy.minimumScore := by
    rw [hdocument] at hverified ⊢
    exact verified_smoke hne hstage hfirst.1 he hof' hverified
  have hpayload : verificationJson p.verification = .ok r.payload.1 := by
    rw [hof.2.2.2.1, ← hmade.report, hsame]
  rw [← hid]
  refine ⟨s', p.toProvenance, i.withStatus .succeeded t, r, key, e, hstep, ?_, rfl, ?_, hpayload, ?_,
    hallowed ▸ hfirst, ?_, he, hof', hreason, hresults⟩
  · rw [hs']
    exact Dict.get?_set_self _ _ _
  · rw [hs']
    exact Dict.get?_set_self _ _ _
  · rw [hfiles, Dict.get?_set_self]
  · rw [hdocument]
    rfl

end smoke

open Demo in
/-- The first investigation of the demonstration succeeds. -/
theorem smoke_run_succeeds_demo : ∃ (s' : Service ExactFloat) (p : Provenance ExactFloat),
    Service.step createdService (.runOnce worker smoke) s' ∧
      s'.committed.provenance.get? ⟨1, by decide⟩ = some p ∧ p.verification.reason = none := by
  obtain ⟨baseline, ledger, hrank, hcompile, -, hallowed⟩ := compiled
  have hstage : baselineStage worker.policy pending (.ok [latency]) = .ok (baseline, ledger) :=
    baselineStage_eq_ok.mpr ⟨_, rfl, hrank, hcompile⟩
  have hrequest : hypothesisRequest pending ledger = smokeRequest := by
    unfold hypothesisRequest
    rw [hallowed]
    rfl
  have hwalks : Walks [latency.signal.key] (allowedSignals ledger) := by
    rw [hallowed]
    decide
  have hcalm : smoke.toSurroundings.Calm := ⟨fun _ => rfl, fun _ => rfl⟩
  obtain ⟨s', p, -, -, -, -, hstep, -, -, -, -, hfiled, -, -, -, -, hreason, -⟩ :=
    smoke_run_succeeds createdService_reachable hcalm (firstClaim smoke rfl)
      (by decide +kernel) rfl (List.cons_ne_nil _ _) hstage hwalks (by rw [hrequest]; rfl)
      (by decide) (by rw [hrequest]; exact smokeRequest_short) (by decide +kernel)
  exact ⟨s', p, hstep, hfiled, hreason⟩

end IncidentEvidence
