import IncidentEvidence.Application.Undisturbed

/-! # What the parser accepts and the serializer reports

    The parser takes any text that is not blank for the ids of a hypothesis, and
    `json.loads` makes a lone surrogate of an unpaired escape. The serializer
    refuses what UTF-8 cannot encode. An accepted hypothesis is therefore reported
    exactly when its ids can be encoded (`accepted_reported_iff`).
-/

namespace IncidentEvidence

open Py Serialization

section reporting
variable {F : Type} [PyFloat F] [LawfulPyFloat F] [FloatHex F] [Sha256]

/-- The ids of a hypothesis can be encoded. -/
def HypothesisDocument.IdsEncodable (h : HypothesisDocument) : Prop :=
  Encodable h.hypothesisId ∧ ∀ p ∈ h.predicates, Encodable p.predicateId

/-- A verification names the predicates of its hypothesis. -/
theorem predicateIds_of_verify {h : HypothesisDocument} {l : MetricEvidenceLedger F}
    {result : HypothesisVerificationResult F} (hresult : verifyHypothesis h l = .ok result) :
    result.hypothesisId = h.hypothesisId ∧
      result.predicateResults.map (·.predicateId) = h.predicates.map (·.predicateId) := by
  obtain ⟨-, rfl⟩ := verifyHypothesis_eq_ok.mp hresult
  refine ⟨rfl, ?_⟩
  unfold verifyDocument
  cases documentReason UnknownReason.contextMismatch .causalClaimNotVerifiable h l.tenantId
      l.incidentId l.runId with
  | some reason =>
    show (h.predicates.map _).map _ = _
    rw [List.map_map]
    rfl
  | none =>
    show (h.predicates.map _).map _ = _
    rw [List.map_map]
    exact List.map_congr_left fun p _ => evaluatePredicate_id p _ _

omit [LawfulPyFloat F] [Sha256] in
/-- A predicate's id stands in its payload. -/
theorem encodable_predicateId {child : PredicateVerificationResult F} {payload : Json}
    (h : predicateResultPayload child = .ok payload) (hencodable : payload.Encodable) :
    Encodable child.predicateId := by
  simp only [predicateResultPayload, bind_eq_ok, pure_eq_ok, text_eq_ok] at h
  obtain ⟨traces, -, -, -, minimum, -, predicateId, ⟨-, rfl⟩, rfl⟩ := h
  exact encodable_member hencodable ("predicate_id", .str child.predicateId) (by simp)

/-- A verification that is written names ids that can be encoded. -/
theorem idsEncodable_of_json {h : HypothesisDocument} {l : MetricEvidenceLedger F}
    {result : HypothesisVerificationResult F} (hresult : verifyHypothesis h l = .ok result) {s : Str}
    (hs : verificationJson result = .ok s) : h.IdsEncodable := by
  obtain ⟨hid, hids⟩ := predicateIds_of_verify hresult
  obtain ⟨j, hj, hencodable⟩ := serialize_encodable hs
  simp only [verificationPayload, documentPayload, predicateResults, bind_eq_ok, pure_eq_ok,
    text_eq_ok] at hj
  obtain ⟨predicates, ⟨_, hpayloads, -, -, rfl⟩, -, -, supporting, -, contradicting, -, -, -,
    -, -, -, -, hypothesisId, ⟨-, rfl⟩, rfl⟩ := hj
  have hmember := encodable_member hencodable
  constructor
  · rw [← hid]
    exact hmember ("hypothesis_id", .str result.hypothesisId) (by simp)
  · -- the id of `p` is the id of one of the results, whose payload is one of the members
    intro p hp
    have hmem : p.predicateId ∈ result.predicateResults.map (·.predicateId) := by
      rw [hids]
      exact List.mem_map_of_mem hp
    obtain ⟨child, hchild, hname⟩ := List.mem_map.mp hmem
    obtain ⟨payload, hpayload, hwritten⟩ := mem_of_mapM_eq_ok hpayloads hchild
    have hpredicates := hmember ("predicate_results", .arr predicates) (by simp)
    rw [← hname]
    exact encodable_predicateId hwritten (encodable_arr.mp hpredicates payload hpayload)

/-- **An accepted hypothesis is reported exactly when its ids can be encoded**;
    every other one is refused with the one typed exception of the serializer. -/
theorem accepted_reported_iff [LawfulFloatHex F] (limits : RecursionLimits) (raw : Str)
    {tenant : TenantId} {incident : IncidentId} {run : RunId} {window : IncidentWindow}
    {baseline : BaselineResult F} {ledger : MetricEvidenceLedger F} {h : HypothesisDocument}
    (hcompile : compileMetricShiftLedger tenant incident run window baseline = .ok ledger)
    (_hparse : parseMetricHypothesis limits raw (allowedSignals ledger) = .ok h) :
    ∃ result, verifyHypothesis h ledger = .ok result ∧
      ((∃ s, verificationJson result = .ok s) ↔ h.IdsEncodable) ∧
      (¬ h.IdsEncodable → verificationJson result = .error .canonicalSerialization) := by
  obtain ⟨hvalid, -⟩ := compile_eq_ok hcompile
  obtain ⟨haccepted, -⟩ := validate_eq_ok.mp hvalid
  have hresult := verifyHypothesis_eq_ok (h := h) |>.mpr ⟨haccepted, rfl⟩
  have hiff : (∃ s, verificationJson _ = .ok s) ↔ h.IdsEncodable :=
    ⟨fun ⟨_, hs⟩ => idsEncodable_of_json hresult hs,
      fun ⟨hid, hids⟩ => verificationJson_ok hresult hid hids⟩
  refine ⟨_, hresult, hiff, fun hnot => ?_⟩
  exact serialize_error fun hok => hnot (hiff.mp hok)

end reporting

namespace Demo

/-- A proposal whose hypothesis id is an unpaired surrogate escape. -/
def surrogateProposal : Str :=
  str "\x7b\"hypothesis_id\":\"\\ud800\"," ++ str "\"tenant_id\":\"tenant\"," ++
  str "\"incident_id\":\"incident\"," ++ str "\"run_id\":\"run\"," ++
  str "\"semantics\":\"descriptive\"," ++ str "\"composition\":\"all\"," ++
  str "\"predicates\":[\x7b\"predicate_id\":\"p\"," ++
  str "\"signal_key\":\"checkout.latency\"," ++
  str "\"expected_direction\":\"increase\"\x7d]\x7d"

theorem parsed_surrogate : ∃ h,
    parseMetricHypothesis healthy.limits surrogateProposal {latency.signal.key} = .ok h ∧
    ¬ h.IdsEncodable := by
  have hparse : (parseMetricHypothesis healthy.limits surrogateProposal
      {latency.signal.key}).toOption.any (fun d => d.hypothesisId = [.surrogate 0]) = true := by
    decide +kernel
  obtain ⟨d, hd, hchecked⟩ := exists_ok_of_any hparse
  refine ⟨d, hd, fun hids => ?_⟩
  -- the id is the surrogate itself, which no character encodes
  obtain ⟨c, hc⟩ := hids.1 (.surrogate 0) (by rw [of_decide_eq_true hchecked]; simp)
  cases hc

end Demo

open Demo in
/-- The proposal about the latency is accepted and reported. -/
theorem accepted_reported_iff_demo : ∃ (ledger : MetricEvidenceLedger ExactFloat)
    (h : HypothesisDocument) (result : HypothesisVerificationResult ExactFloat) (s : Str),
    parseMetricHypothesis healthy.limits proposal (allowedSignals ledger) = .ok h ∧
    verifyHypothesis h ledger = .ok result ∧ verificationJson result = .ok s := by
  obtain ⟨baseline, ledger, -, hcompile, -, hallowed⟩ := compiled
  obtain ⟨h, hparse, hids⟩ := parsed
  rw [← hallowed] at hparse
  obtain ⟨result, hresult, hiff, -⟩ := accepted_reported_iff healthy.limits proposal hcompile hparse
  obtain ⟨s, hs⟩ := hiff.mpr hids
  exact ⟨ledger, h, result, s, hparse, hresult, hs⟩

open Demo in
/-- A hypothesis whose id is a lone surrogate is accepted and not reported. -/
theorem accepted_not_reported : ¬ ∀ (limits : RecursionLimits) (raw : Str) (tenant : TenantId)
    (incident : IncidentId) (run : RunId) (window : IncidentWindow)
    (baseline : BaselineResult ExactFloat) (ledger : MetricEvidenceLedger ExactFloat)
    (h : HypothesisDocument),
    compileMetricShiftLedger tenant incident run window baseline = .ok ledger →
    parseMetricHypothesis limits raw (allowedSignals ledger) = .ok h →
    ∃ s, (verifyHypothesis h ledger >>= verificationJson) = .ok s := by
  intro hreported
  obtain ⟨baseline, ledger, -, hcompile, -, hallowed⟩ := compiled
  obtain ⟨h, hparse, hids⟩ := parsed_surrogate
  rw [← hallowed] at hparse
  obtain ⟨s, hs⟩ := hreported _ _ _ _ _ _ _ _ _ hcompile hparse
  obtain ⟨result, hresult, hwritten⟩ := bind_eq_ok.mp hs
  exact hids (idsEncodable_of_json hresult hwritten)

end IncidentEvidence
