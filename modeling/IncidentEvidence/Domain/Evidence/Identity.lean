import IncidentEvidence.Domain.Evidence.ContentId
import IncidentEvidence.Domain.Evidence.Parsing

/-! # The hashed payload of a metric entry

    `evidence/_identity.py`. The payload of an entry names the whole run context,
    the policy, the decision and the evaluation; `entryPayload_inj` reads all of
    them back from it.
-/

namespace IncidentEvidence

open Py

/-! ### Payloads -/

/-- The payload of an incident window. -/
def windowPayload (w : IncidentWindow) : Json :=
  jsonObj [
    ("end", .str (timestamp w.end)),
    ("injection", .str (timestamp w.injection)),
    ("start", .str (timestamp w.start))]

namespace Identity

/-- `_ID_DOMAIN`. -/
def idDomain : List UInt8 := bytes "incident-evidence-compiler.metric-shift-evidence.v1\x00"

section payloads
variable {F : Type} [FloatHex F]

/-- A float as the text of `float.hex`. -/
def hexJson (v : F) : Json := .str (FloatHex.hex v)

/-- `_policy_payload`. -/
def policyPayload (policy : BaselinePolicy F) : Json :=
  jsonObj [
    ("minimum_margin", hexJson policy.minimumMargin),
    ("minimum_points_per_window", .int policy.minimumPointsPerWindow),
    ("minimum_score", hexJson policy.minimumScore),
    ("relative_scale_floor", hexJson policy.relativeScaleFloor)]

/-- `_decision_payload`. -/
def decisionPayload (decision : MetricShiftDecision F) : Json :=
  jsonObj [
    ("abstention_reason", jsonOption (fun r => .str r.value) decision.abstentionReason),
    ("candidate_signal_keys", .arr (decision.candidateSignalKeys.map fun k => .str k.value)),
    ("eligible_signal_count", .int decision.eligibleSignalCount),
    ("kind", .str decision.kind.value),
    ("lead", jsonOption hexJson decision.lead),
    ("second_score", jsonOption hexJson decision.secondScore),
    ("top_score", jsonOption hexJson decision.topScore)]

/-- `_candidate_payload`. -/
def candidatePayload (candidate : SuspicionCandidate F) : Json :=
  jsonObj [
    ("absolute_scale_floor", hexJson candidate.absoluteScaleFloor),
    ("post_median", hexJson candidate.postMedian),
    ("post_point_count", .int candidate.postPointCount),
    ("pre_mad", hexJson candidate.preMad),
    ("pre_median", hexJson candidate.preMedian),
    ("pre_point_count", .int candidate.prePointCount),
    ("relative_scale_floor", hexJson candidate.relativeScaleFloor),
    ("scale", hexJson candidate.scale),
    ("signal_key", .str candidate.signalKey.value),
    ("signed_score", hexJson candidate.signedScore),
    ("suspicion_score", hexJson candidate.suspicionScore)]

/-- `_entry_payload`. -/
def entryPayload (tenant : TenantId) (incident : IncidentId) (run : RunId)
    (window : IncidentWindow) (policy : BaselinePolicy F) (decision : MetricShiftDecision F)
    (evaluation : SignalEvaluation F) : Json :=
  jsonObj [
    ("absolute_scale_floor", hexJson evaluation.absoluteScaleFloor),
    ("candidate", jsonOption candidatePayload evaluation.candidate),
    ("decision", decisionPayload decision),
    ("eligible", .bool evaluation.eligible),
    ("incident_id", .str incident.value),
    ("incident_window", windowPayload window),
    ("policy", policyPayload policy),
    ("post_point_count", .int evaluation.postPointCount),
    ("pre_point_count", .int evaluation.prePointCount),
    ("relative_scale_floor", hexJson policy.relativeScaleFloor),
    ("run_id", .str run.value),
    ("schema_version", .str SCHEMA_VERSION),
    ("signal_key", .str evaluation.signalKey.value),
    ("tenant_id", .str tenant.value)]

/-- `_evidence_id`. -/
def evidenceId [Sha256] (payload : Json) : Except DomainError EvidenceId :=
  orRaise (contentId idDomain payload) .invalidEvidenceLedger

/-- `_evidence_identifier`. -/
def evidenceIdentifier (value : EvidenceId) : Except DomainError EvidenceId := do
  require (wellFormedId value.value = true) .invalidEvidenceLedger
  return ⟨value.value⟩

end payloads

@[simp] theorem evidenceIdentifier_eq_ok {value i : EvidenceId} :
    evidenceIdentifier value = .ok i ↔ wellFormedId value.value = true ∧ i = value := by
  simp [evidenceIdentifier, -bind_pure_comp]

end Identity

/-! ### Reading payloads back -/

theorem AbstentionReason.value_injective : Function.Injective AbstentionReason.value := by
  intro a b h
  cases a <;> cases b <;> first | rfl | exact absurd h (by decide)

theorem MetricShiftDecisionKind.value_injective :
    Function.Injective MetricShiftDecisionKind.value := by
  intro a b h
  cases a <;> cases b <;> first | rfl | exact absurd h (by decide)

/-- A window is read back from its payload. -/
theorem windowPayload_injective : Function.Injective windowPayload := by
  rintro ⟨s, i, e⟩ ⟨s', i', e'⟩ h
  simp only [windowPayload, jsonObj, List.map_cons, List.map_nil, Json.obj.injEq, List.cons.injEq,
    Prod.mk.injEq, Json.str.injEq, true_and, and_true] at h
  obtain ⟨he, hi, hs⟩ := h
  rw [timestamp_injective he, timestamp_injective hi, timestamp_injective hs]

namespace Identity

section inverse
variable {F : Type} [PyFloat F] [FloatHex F] [LawfulFloatHex F]

theorem hexJson_inj {a b : F} (ha : PyFloat.isFinite a = true) (hb : PyFloat.isFinite b = true)
    (h : hexJson a = hexJson b) : a = b :=
  LawfulFloatHex.hex_inj ha hb (Json.str.inj h)

/-- An optional float is absent or finite. -/
def OptionFinite (v : Option F) : Prop := ∀ x, v = some x → PyFloat.isFinite x = true

theorem optionHex_inj {a b : Option F} (ha : OptionFinite a) (hb : OptionFinite b)
    (h : jsonOption hexJson a = jsonOption hexJson b) : a = b :=
  jsonOption_inj (by simp [hexJson]) (fun x y hx hy => hexJson_inj (ha x hx) (hb y hy)) h

theorem policyPayload_inj {p q : BaselinePolicy F} (hp : p.Valid) (hq : q.Valid)
    (h : policyPayload p = policyPayload q) : p = q := by
  simp only [policyPayload, jsonObj, List.map_cons, List.map_nil, Json.obj.injEq, List.cons.injEq,
    Prod.mk.injEq, Json.int.injEq, true_and, and_true] at h
  obtain ⟨hmargin, hpoints, hscore, hfloor⟩ := h
  have h1 := hexJson_inj hp.margin.1 hq.margin.1 hmargin
  have h2 := hexJson_inj hp.score.1 hq.score.1 hscore
  have h3 := hexJson_inj hp.floor.1 hq.floor.1 hfloor
  cases p
  cases q
  simp_all

/-- The numbers of a decision are finite. -/
structure DecisionFinite (d : MetricShiftDecision F) : Prop where
  topScore : OptionFinite d.topScore
  secondScore : OptionFinite d.secondScore
  lead : OptionFinite d.lead

theorem decisionPayload_inj {d e : MetricShiftDecision F} (hd : DecisionFinite d)
    (he : DecisionFinite e) (h : decisionPayload d = decisionPayload e) : d = e := by
  simp only [decisionPayload, jsonObj, List.map_cons, List.map_nil, Json.obj.injEq, List.cons.injEq,
    Prod.mk.injEq, Json.int.injEq, Json.str.injEq, Json.arr.injEq, true_and, and_true] at h
  obtain ⟨hreason, hkeys, hcount, hkind, hlead, hsecond, htop⟩ := h
  have h1 : d.abstentionReason = e.abstentionReason :=
    jsonOption_inj (by simp) (fun _ _ _ _ hxy => AbstentionReason.value_injective
      (Json.str.inj hxy)) hreason
  have h2 : d.candidateSignalKeys = e.candidateSignalKeys := by
    refine List.map_injective_iff.mpr ?_ hkeys
    rintro ⟨a⟩ ⟨b⟩ hab
    simpa using hab
  have h3 := MetricShiftDecisionKind.value_injective hkind
  have h4 := optionHex_inj hd.lead he.lead hlead
  have h5 := optionHex_inj hd.secondScore he.secondScore hsecond
  have h6 := optionHex_inj hd.topScore he.topScore htop
  cases d
  cases e
  simp_all

/-- The numbers of a candidate are finite. -/
structure CandidateFinite (c : SuspicionCandidate F) : Prop where
  preMedian : PyFloat.isFinite c.preMedian = true
  postMedian : PyFloat.isFinite c.postMedian = true
  preMad : PyFloat.isFinite c.preMad = true
  absoluteScaleFloor : PyFloat.isFinite c.absoluteScaleFloor = true
  relativeScaleFloor : PyFloat.isFinite c.relativeScaleFloor = true
  scale : PyFloat.isFinite c.scale = true
  signedScore : PyFloat.isFinite c.signedScore = true
  suspicionScore : PyFloat.isFinite c.suspicionScore = true

theorem candidatePayload_inj {c d : SuspicionCandidate F} (hc : CandidateFinite c)
    (hd : CandidateFinite d) (h : candidatePayload c = candidatePayload d) : c = d := by
  simp only [candidatePayload, jsonObj, List.map_cons, List.map_nil, Json.obj.injEq,
    List.cons.injEq, Prod.mk.injEq, Json.int.injEq, Json.str.injEq, true_and, and_true] at h
  obtain ⟨habs, hpostm, hpost, hmad, hprem, hpre, hrel, hscale, hkey, hsigned, hsusp⟩ := h
  have h1 := hexJson_inj hc.absoluteScaleFloor hd.absoluteScaleFloor habs
  have h2 := hexJson_inj hc.postMedian hd.postMedian hpostm
  have h3 := hexJson_inj hc.preMad hd.preMad hmad
  have h4 := hexJson_inj hc.preMedian hd.preMedian hprem
  have h5 := hexJson_inj hc.relativeScaleFloor hd.relativeScaleFloor hrel
  have h6 := hexJson_inj hc.scale hd.scale hscale
  have h7 := hexJson_inj hc.signedScore hd.signedScore hsigned
  have h8 := hexJson_inj hc.suspicionScore hd.suspicionScore hsusp
  obtain ⟨⟨k⟩, _⟩ := c
  obtain ⟨⟨k'⟩, _⟩ := d
  simp_all

/-- The numbers of an evaluation are finite. -/
structure EvaluationFinite (e : SignalEvaluation F) : Prop where
  floor : PyFloat.isFinite e.absoluteScaleFloor = true
  candidate : ∀ c, e.candidate = some c → CandidateFinite c

/-- **Nothing is left out of the payload**: it determines the run context, the
    policy, the decision and the evaluation. -/
theorem entryPayload_inj {t t' : TenantId} {i i' : IncidentId} {r r' : RunId}
    {w w' : IncidentWindow} {p p' : BaselinePolicy F} {d d' : MetricShiftDecision F}
    {e e' : SignalEvaluation F} (hp : p.Valid) (hp' : p'.Valid) (hd : DecisionFinite d)
    (hd' : DecisionFinite d') (he : EvaluationFinite e) (he' : EvaluationFinite e')
    (h : entryPayload t i r w p d e = entryPayload t' i' r' w' p' d' e') :
    t = t' ∧ i = i' ∧ r = r' ∧ w = w' ∧ p = p' ∧ d = d' ∧ e = e' := by
  simp only [entryPayload, jsonObj, List.map_cons, List.map_nil, Json.obj.injEq, List.cons.injEq,
    Prod.mk.injEq, Json.int.injEq, Json.str.injEq, Json.bool.injEq, true_and, and_true] at h
  obtain ⟨hfloor, hcand, hdec, helig, hinc, hwin, hpol, hpost, hpre, -, hrun, hkey, hten⟩ := h
  have hcand' : e.candidate = e'.candidate :=
    jsonOption_inj (by simp [candidatePayload, jsonObj])
      (fun x y hx hy => candidatePayload_inj (he.candidate x hx) (he'.candidate y hy)) hcand
  have hfloor' := hexJson_inj he.floor he'.floor hfloor
  refine ⟨?_, ?_, ?_, windowPayload_injective hwin, policyPayload_inj hp hp' hpol,
    decisionPayload_inj hd hd' hdec, ?_⟩
  · exact congrArg TenantId.mk hten
  · exact congrArg IncidentId.mk hinc
  · exact congrArg RunId.mk hrun
  · obtain ⟨⟨k⟩, _⟩ := e
    obtain ⟨⟨k'⟩, _⟩ := e'
    simp_all

end inverse

/-! ### Payloads can be written -/

theorem canonical_windowPayload (w : IncidentWindow) : (windowPayload w).Canonical :=
  canonical_jsonObj (by simp only [List.map_cons, List.map_nil]; decide) (by simp)

section writing
variable {F : Type} [FloatHex F]

theorem canonical_hexJson (v : F) : (hexJson v).Canonical := trivial

theorem canonical_policyPayload (p : BaselinePolicy F) : (policyPayload p).Canonical :=
  canonical_jsonObj (by simp only [List.map_cons, List.map_nil]; decide) (by simp [canonical_hexJson])

theorem canonical_decisionPayload (d : MetricShiftDecision F) : (decisionPayload d).Canonical := by
  apply canonical_jsonObj (by simp only [List.map_cons, List.map_nil]; decide)
  have hreason : (jsonOption (fun r : AbstentionReason => .str r.value)
      d.abstentionReason).Canonical := canonical_jsonOption fun _ _ => trivial
  have hhex : ∀ v : Option F, (jsonOption hexJson v).Canonical := fun _ =>
    canonical_jsonOption fun _ _ => trivial
  simp [hreason, hhex]

theorem canonical_candidatePayload (c : SuspicionCandidate F) : (candidatePayload c).Canonical :=
  canonical_jsonObj (by simp only [List.map_cons, List.map_nil]; decide) (by simp [canonical_hexJson])

theorem canonical_entryPayload (t : TenantId) (i : IncidentId) (r : RunId) (w : IncidentWindow)
    (p : BaselinePolicy F) (d : MetricShiftDecision F) (e : SignalEvaluation F) :
    (entryPayload t i r w p d e).Canonical := by
  apply canonical_jsonObj (by simp only [List.map_cons, List.map_nil]; decide)
  have hcand : (jsonOption candidatePayload e.candidate).Canonical :=
    canonical_jsonOption fun c _ => canonical_candidatePayload c
  simp [hcand, canonical_decisionPayload, canonical_policyPayload, canonical_windowPayload,
    canonical_hexJson]

theorem encodable_windowPayload (w : IncidentWindow) : (windowPayload w).Encodable :=
  encodable_jsonObj (by simp)

theorem printable_windowPayload (w : IncidentWindow) : (windowPayload w).printable = true :=
  printable_jsonObj (by simp)

theorem printable_hexJson (v : F) : (hexJson v).printable = true := rfl

theorem printable_policyPayload {p : BaselinePolicy F}
    (hpoints : printableInt p.minimumPointsPerWindow = true) : (policyPayload p).printable = true :=
  printable_jsonObj (by simp [printable_hexJson, hpoints])

theorem printable_decisionPayload {d : MetricShiftDecision F}
    (hcount : printableInt d.eligibleSignalCount = true) : (decisionPayload d).printable = true := by
  have hopt : ∀ v : Option F, (jsonOption hexJson v).printable = true := fun _ =>
    printable_jsonOption fun _ _ => rfl
  have hreason : (jsonOption (fun r : AbstentionReason => .str r.value)
      d.abstentionReason).printable = true := printable_jsonOption fun _ _ => rfl
  exact printable_jsonObj (by simp [hopt, hreason, hcount])

theorem printable_candidate {c : Option (SuspicionCandidate F)}
    (h : ∀ x, c = some x →
      printableInt x.prePointCount = true ∧ printableInt x.postPointCount = true) :
    (jsonOption candidatePayload c).printable = true := by
  refine printable_jsonOption fun x hx => printable_jsonObj ?_
  simp [printable_hexJson, h x hx]

section encodable
variable [PyFloat F] [LawfulFloatHex F]

theorem encodable_hexJson (v : F) : (hexJson v).Encodable := LawfulFloatHex.hex_encodable v

theorem encodable_policyPayload (p : BaselinePolicy F) : (policyPayload p).Encodable :=
  encodable_jsonObj (by simp [encodable_hexJson])

theorem encodable_decisionPayload {d : MetricShiftDecision F}
    (hd : ∀ k ∈ d.candidateSignalKeys, Encodable k.value) : (decisionPayload d).Encodable := by
  have hopt : ∀ v : Option F, (jsonOption hexJson v).Encodable := fun _ =>
    encodable_jsonOption fun v _ => encodable_hexJson v
  have hreason : (jsonOption (fun r : AbstentionReason => .str r.value)
      d.abstentionReason).Encodable := by
    refine encodable_jsonOption fun reason _ => ?_
    cases reason <;> exact encodable_str _
  have hkind : Encodable d.kind.value := by
    cases d.kind <;> exact encodable_str _
  exact encodable_jsonObj (by simpa [hopt, hreason, hkind] using hd)

theorem encodable_candidate {c : Option (SuspicionCandidate F)}
    (h : ∀ x, c = some x → Encodable x.signalKey.value) :
    (jsonOption candidatePayload c).Encodable := by
  refine encodable_jsonOption fun x hx => encodable_jsonObj ?_
  simp [encodable_hexJson, h x hx]

/-- Every string of an entry's payload can be encoded. -/
theorem encodable_entryPayload {t : TenantId} {i : IncidentId}
    {r : RunId} (w : IncidentWindow) (p : BaselinePolicy F) {d : MetricShiftDecision F}
    {e : SignalEvaluation F} (ht : Encodable t.value) (hi : Encodable i.value)
    (hr : Encodable r.value) (hd : ∀ k ∈ d.candidateSignalKeys, Encodable k.value)
    (he : Encodable e.signalKey.value)
    (hc : ∀ c, e.candidate = some c → c.signalKey = e.signalKey) :
    (entryPayload t i r w p d e).Encodable := by
  have hcandidate : (jsonOption candidatePayload e.candidate).Encodable :=
    encodable_candidate fun c hcand => by rwa [hc c hcand]
  exact encodable_jsonObj (by
    simp [encodable_hexJson, hcandidate, encodable_decisionPayload hd, encodable_policyPayload,
      encodable_windowPayload, hi, hr, he, ht, SCHEMA_VERSION])

end encodable

/-- The integers of an entry's payload have few enough digits. -/
theorem printable_entryPayload (t : TenantId) (i : IncidentId) (r : RunId) (w : IncidentWindow)
    {p : BaselinePolicy F} {d : MetricShiftDecision F} {e : SignalEvaluation F}
    (hpoints : printableInt p.minimumPointsPerWindow = true)
    (hcount : printableInt d.eligibleSignalCount = true)
    (hpre : printableInt e.prePointCount = true) (hpost : printableInt e.postPointCount = true)
    (hc : ∀ c, e.candidate = some c →
      c.prePointCount = e.prePointCount ∧ c.postPointCount = e.postPointCount) :
    (entryPayload t i r w p d e).printable = true := by
  have hcandidate : (jsonOption candidatePayload e.candidate).printable = true :=
    printable_candidate fun c hcand => by rw [(hc c hcand).1, (hc c hcand).2]; exact ⟨hpre, hpost⟩
  exact printable_jsonObj (by
    simp [printable_hexJson, hcandidate, printable_decisionPayload hcount,
      printable_policyPayload hpoints, printable_windowPayload, hpre, hpost])

end writing

end Identity

end IncidentEvidence
