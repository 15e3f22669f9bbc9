import IncidentEvidence.Domain.Serialization
import IncidentEvidence.Domain.Verdicts

/-! # Verification documents

    `verification_json` and `change_verification_json`. Their checks are stricter
    than the types of the results, but they never reject what a verifier returns
    for ids that UTF-8 can encode (`verification_json_total`).
-/

namespace IncidentEvidence

open Py PyFloat

namespace Serialization

/-- `VERIFICATION_SCHEMA_VERSION`. -/
def VERIFICATION_SCHEMA_VERSION : Str := str "metric-hypothesis-verification.v1"

/-- `CHANGE_VERIFICATION_SCHEMA_VERSION`. -/
def CHANGE_VERIFICATION_SCHEMA_VERSION : Str := str "change-cooccurrence-verification.v1"

/-! ### Metric verifications -/

/-- The unknown reasons that come without an observed direction. -/
def directionlessReasons : List UnknownReason :=
  [.contextMismatch, .causalClaimNotVerifiable, .signalNotFound, .insufficientEvidence,
    .noDirectionalShift]

/-- The direction that goes with a verdict and its reason. -/
def directionFits (verdict : VerificationVerdict) (reason : Option UnknownReason)
    (observed : Option ObservedDirection) : Prop :=
  match verdict with
  | .unknown => (∀ r ∈ reason, r ∈ directionlessReasons → observed = none) ∧
      (reason = some .weakEvidence → observed ≠ none)
  | .supported | .refuted => observed ≠ none

instance (verdict : VerificationVerdict) (reason : Option UnknownReason)
    (observed : Option ObservedDirection) : Decidable (directionFits verdict reason observed) :=
  match verdict with
  | .unknown => inferInstanceAs (Decidable (_ ∧ _))
  | .supported | .refuted => inferInstanceAs (Decidable (_ ≠ _))

section metric
variable {F : Type} [PyFloat F] [FloatHex F]

/-- `_predicate_result_payload`. -/
def predicateResultPayload (result : PredicateVerificationResult F) : Except DomainError Json := do
  let (supporting, contradicting) ← checkTrace result
  check (directionFits result.verdict result.reason result.observedDirection)
  let minimumScore ← finiteHex result.minimumScore true
  let predicateId ← text result.predicateId
  return jsonObj [
    ("contradicting_evidence_ids", texts contradicting),
    ("minimum_score", .str minimumScore),
    ("observed_direction", jsonOption (fun d => .str d.value) result.observedDirection),
    ("predicate_id", .str predicateId),
    ("reason", jsonOption (fun r => .str r.value) result.reason),
    ("supporting_evidence_ids", texts supporting),
    ("verdict", .str result.verdict.value)]

/-- How metric verifications are written. -/
def metricFormat : VerificationFormat (PredicateVerificationResult F) UnknownReason where
  schemaVersion := VERIFICATION_SCHEMA_VERSION
  reasonValue := UnknownReason.value
  isGate reason := reason = .contextMismatch || reason = .causalClaimNotVerifiable
  observes result := result.observedDirection.isSome
  payload := predicateResultPayload

/-- `_verification_payload`. -/
def verificationPayload (result : HypothesisVerificationResult F) : Except DomainError Json :=
  documentPayload metricFormat result

end metric

/-! ### Change verifications -/

/-- `_change_predicate_result_payload`. -/
def changePredicateResultPayload (result : ChangePredicateVerificationResult) :
    Except DomainError Json := do
  let (supporting, contradicting) ← checkTrace result
  let predicateId ← text result.predicateId
  return jsonObj [
    ("contradicting_evidence_ids", texts contradicting),
    ("phase_constraint", .str result.phaseConstraint.value),
    ("predicate_id", .str predicateId),
    ("reason", jsonOption (fun r => .str r.value) result.reason),
    ("supporting_evidence_ids", texts supporting),
    ("verdict", .str result.verdict.value)]

/-- How change verifications are written; their results record no direction. -/
def changeFormat : VerificationFormat ChangePredicateVerificationResult ChangeUnknownReason where
  schemaVersion := CHANGE_VERIFICATION_SCHEMA_VERSION
  reasonValue := ChangeUnknownReason.value
  isGate reason := reason = .contextMismatch || reason = .causalClaimNotVerifiable
  observes _ := false
  payload := changePredicateResultPayload

/-- `_change_verification_payload`. -/
def changeVerificationPayload (result : ChangeHypothesisVerificationResult) :
    Except DomainError Json :=
  documentPayload changeFormat result

end Serialization

open Serialization

/-- `verification_json`. -/
def verificationJson {F : Type} [PyFloat F] [FloatHex F]
    (result : HypothesisVerificationResult F) : Except DomainError Str :=
  serialize (verificationPayload result)

/-- `change_verification_json`. -/
def changeVerificationJson (result : ChangeHypothesisVerificationResult) :
    Except DomainError Str :=
  serialize (changeVerificationPayload result)

/-! ### The verifiers' results are accepted -/

namespace Serialization

/-- A payload without integers whose strings can be encoded. -/
structure Writable (j : Json) : Prop where
  printable : j.printable = true
  encodable : j.Encodable

theorem writable_str {s : Str} (h : Encodable s) : Writable (.str s) := ⟨rfl, h⟩

theorem writable_texts {ids : List Str} (h : ∀ id ∈ ids, Encodable id) : Writable (texts ids) :=
  ⟨by simp [texts], by simpa [texts] using h⟩

theorem writable_option {α : Type} {payload : α → Json} {a : Option α}
    (h : ∀ x, a = some x → Writable (payload x)) : Writable (jsonOption payload a) :=
  ⟨printable_jsonOption fun x hx => (h x hx).printable,
    encodable_jsonOption fun x hx => (h x hx).encodable⟩

theorem writable_obj {fields : List (String × Json)} (h : ∀ kv ∈ fields, Writable kv.2) :
    Writable (jsonObj fields) :=
  ⟨printable_jsonObj fun kv hkv => (h kv hkv).printable,
    encodable_jsonObj fun kv hkv => (h kv hkv).encodable⟩

theorem writable_arr {vs : List Json} (h : ∀ v ∈ vs, Writable v) : Writable (.arr vs) :=
  ⟨by simpa using fun v hv => (h v hv).printable, by simpa using fun v hv => (h v hv).encodable⟩

theorem writable_ids {ids : List EvidenceId} (h : ∀ id ∈ ids, wellFormedId id.value = true) :
    Writable (texts (ids.map (·.value))) :=
  writable_texts (List.forall_mem_map.mpr fun id hid => wellFormedId_encodable (h id hid))

theorem mapM_writable {R : Type} {payload : R → Except DomainError Json} {rs : List R}
    (h : ∀ r ∈ rs, ∃ j, payload r = .ok j ∧ Writable j) :
    ∃ js, rs.mapM payload = .ok js ∧ ∀ j ∈ js, Writable j := by
  induction rs with
  | nil => exact ⟨[], rfl, by simp⟩
  | cons r rs ih =>
    obtain ⟨⟨j, hj, hjw⟩, hrest⟩ := List.forall_mem_cons.mp h
    obtain ⟨js, hjs, hall⟩ := ih hrest
    refine ⟨j :: js, ?_, List.forall_mem_cons.mpr ⟨hjw, hall⟩⟩
    simp only [List.mapM_cons, bind_eq_ok, pure_eq_ok]
    exact ⟨j, hj, js, hjs, rfl⟩

section documents
variable {P R Reason : Type} [Predicate P] [PredicateTrace R Reason] [DecidableEq Reason]

open PredicateTrace

/-- What a verifier's result of one predicate is, gated or not. -/
structure ChildOk (format : VerificationFormat R Reason) (id : Str) (child : R) : Prop where
  id : predicateId child = id
  trace : TraceOk child
  payload : ∃ j, format.payload child = .ok j ∧ Writable j

omit [DecidableEq Reason] in
theorem map_predicateId {format : VerificationFormat R Reason} {d : Document P} {f : P → R}
    (h : ∀ p ∈ d.predicates, ChildOk format (Predicate.predicateId p) (f p)) :
    (d.predicates.map f).map predicateId = d.predicates.map Predicate.predicateId := by
  rw [List.map_map]
  exact List.map_congr_left fun p hp => (h p hp).id

variable {format : VerificationFormat R Reason} {d : Document P} {gate : Option Reason}
  {unknown : P → Reason → R} {evaluate : P → R}

omit [PredicateTrace R Reason] [DecidableEq Reason] in
theorem predicates_ne_nil (f : P → R) : d.predicates.map f ≠ [] := by
  have hne := List.ne_nil_of_length_pos d.ok.nonempty
  simpa using hne

omit [DecidableEq Reason] in
/-- **The results of a verifier pass the checks of its serializer.** -/
theorem resultOk_verifyDocument
    (hunknown : ∀ p ∈ d.predicates, ∀ reason, gate = some reason →
      ChildOk format (Predicate.predicateId p) (unknown p reason) ∧
        gatedChild format reason (unknown p reason))
    (hgate : ∀ reason, gate = some reason → format.isGate reason = true)
    (hevaluate : ∀ p ∈ d.predicates, ChildOk format (Predicate.predicateId p) (evaluate p) ∧
      ∀ r, reason (evaluate p) = some r → format.isGate r = false) :
    ResultOk format (verifyDocument d gate unknown evaluate) ∧
      ∀ child ∈ (verifyDocument d gate unknown evaluate).predicateResults,
        ∃ j, format.payload child = .ok j ∧ Writable j := by
  cases gate with
  | some gate =>
    have hchildren : ∀ p ∈ d.predicates,
        ChildOk format (Predicate.predicateId p) (unknown p gate) :=
      fun p hp => (hunknown p hp gate rfl).1
    have hgated : ∀ p ∈ d.predicates, gatedChild format gate (unknown p gate) :=
      fun p hp => (hunknown p hp gate rfl).2
    refine ⟨⟨d.ok.notBlank, predicates_ne_nil _, ?_, ?_, rfl, rfl, ?_, ?_, fun h => (by cases h)⟩,
      List.forall_mem_map.mpr fun p hp => (hchildren p hp).payload⟩
    · exact (map_predicateId hchildren).symm ▸ d.ok.distinctIds
    · exact List.forall_mem_map.mpr fun p hp => (hchildren p hp).trace
    · refine (compose_unknown (by simpa [verifyDocument] using predicates_ne_nil (d := d) id) ?_).symm
      simp only [verifyDocument, List.map_map, List.forall_mem_map]
      exact fun p hp => (hgated p hp).1
    · rintro reason hreason
      obtain rfl := Option.some.inj hreason
      exact ⟨hgate _ rfl, rfl, List.forall_mem_map.mpr hgated⟩
  | none =>
    have hchildren : ∀ p ∈ d.predicates,
        ChildOk format (Predicate.predicateId p) (evaluate p) := fun p hp => (hevaluate p hp).1
    refine ⟨⟨d.ok.notBlank, predicates_ne_nil _, ?_, ?_, rfl, rfl, rfl, fun _ h => (by cases h), ?_⟩,
      List.forall_mem_map.mpr fun p hp => (hchildren p hp).payload⟩
    · exact (map_predicateId hchildren).symm ▸ d.ok.distinctIds
    · exact List.forall_mem_map.mpr fun p hp => (hchildren p hp).trace
    · exact fun _ => List.forall_mem_map.mpr fun p hp => (hevaluate p hp).2

/-- A checked result whose children can be written can be written. -/
theorem serialize_documentPayload {result : VerificationResult R Reason}
    (h : ResultOk format result)
    (hchildren : ∀ child ∈ result.predicateResults, ∃ j, format.payload child = .ok j ∧ Writable j)
    (hid : Encodable result.hypothesisId) (hvalue : ∀ r, Encodable (format.reasonValue r))
    (hschema : Encodable format.schemaVersion) :
    ∃ s, serialize (documentPayload format result) = .ok s := by
  obtain ⟨children, hpayloads, hwritable⟩ := mapM_writable hchildren
  obtain ⟨hsupporting, hcontradicting⟩ := h.wellFormed
  have hcomposition : Encodable result.composition.value := by
    cases result.composition <;> exact encodable_str _
  have hverdict : Encodable result.verdict.value := by
    cases result.verdict <;> exact encodable_str _
  have hpayload := documentPayload_ok h hpayloads
  refine (fun hw => serialize_ok hpayload hw.printable hw.encodable) (writable_obj ?_)
  simp only [List.forall_mem_cons]
  exact ⟨writable_str hcomposition, writable_ids hcontradicting, writable_str hid,
    writable_arr hwritable, writable_option fun r _ => writable_str (hvalue r),
    writable_str hschema, writable_ids hsupporting, writable_str hverdict, by simp⟩

end documents

/-! ### Metric results -/

section metric
variable {F : Type} [PyFloat F] [LawfulPyFloat F] [FloatHex F] [LawfulFloatHex F]

/-- A metric result whose trace, direction and threshold fit is written. -/
theorem childOk_metric {r : PredicateVerificationResult F} {id : Str} (hsame : r.predicateId = id)
    (htrace : TraceOk r) (hdirection : directionFits r.verdict r.reason r.observedDirection)
    (hminimum : FiniteNonnegative r.minimumScore) (hblank : isBlank id = false)
    (hid : Encodable id) : ChildOk metricFormat id r := by
  subst hsame
  have hpayload : predicateResultPayload r = .ok (jsonObj [
      ("contradicting_evidence_ids", texts (r.contradictingEvidenceIds.map (·.value))),
      ("minimum_score", .str (FloatHex.hex r.minimumScore)),
      ("observed_direction", jsonOption (fun d => .str d.value) r.observedDirection),
      ("predicate_id", .str r.predicateId),
      ("reason", jsonOption (fun r => .str r.value) r.reason),
      ("supporting_evidence_ids", texts (r.supportingEvidenceIds.map (·.value))),
      ("verdict", .str r.verdict.value)]) := by
    simp only [predicateResultPayload, bind_eq_ok, Prod.exists, checkTrace_eq_ok,
      Prod.mk.injEq, require_eq_ok, text_eq_ok, finiteHex_nonnegative, pure_eq_ok]
    exact ⟨_, _, ⟨htrace, rfl, rfl⟩, (), hdirection, _, ⟨hminimum, rfl⟩, _, ⟨hblank, rfl⟩, rfl⟩
  refine ⟨rfl, htrace, _, hpayload, ?_⟩
  have hobserved : ∀ d : ObservedDirection, Encodable d.value := fun d => by
    cases d <;> exact encodable_str _
  have hreason : ∀ r : UnknownReason, Encodable r.value := fun r => by
    cases r <;> exact encodable_str _
  have hverdict : Encodable r.verdict.value := by
    cases r.verdict <;> exact encodable_str _
  apply writable_obj
  simp only [List.forall_mem_cons]
  exact ⟨writable_ids htrace.contradicting, writable_str (LawfulFloatHex.hex_encodable _),
    writable_option fun d _ => writable_str (hobserved d), writable_str hid,
    writable_option fun r _ => writable_str (hreason r), writable_ids htrace.supporting,
    writable_str hverdict, by simp⟩

/-- Unknown results have no evidence. -/
theorem childOk_unknown {p : MetricShiftPredicate} {reason : UnknownReason} {minimum : F}
    {observed : Option ObservedDirection}
    (hdirection : directionFits .unknown (some reason) observed)
    (hminimum : FiniteNonnegative minimum) (hid : Encodable p.predicateId) :
    ChildOk metricFormat p.predicateId (unknown p reason minimum observed) := by
  have htrace : TraceOk (unknown p reason minimum observed) :=
    ⟨by simp [PredicateTrace.supportingEvidenceIds, unknown],
      by simp [PredicateTrace.contradictingEvidenceIds, unknown], by simp [PredicateTrace.reason,
        unknown], rfl, rfl⟩
  exact childOk_metric rfl htrace hdirection hminimum p.notBlank hid

/-- A decided predicate cites its entry on one side. -/
theorem childOk_decided {p : MetricShiftPredicate} {observed : ObservedDirection} {minimum : F}
    {id : EvidenceId} (agrees : Bool) (hevidence : wellFormedId id.value = true)
    (hminimum : FiniteNonnegative minimum) (hid : Encodable p.predicateId) :
    ChildOk metricFormat p.predicateId
      { predicateId := p.predicateId
        verdict := if agrees then .supported else .refuted
        reason := none
        observedDirection := some observed
        minimumScore := minimum
        supportingEvidenceIds := if agrees then [id] else []
        contradictingEvidenceIds := if agrees then [] else [id] } := by
  cases agrees with
  | true =>
    refine childOk_metric rfl ⟨?_, ?_, ?_⟩ ?_ hminimum p.notBlank hid
    · exact List.forall_mem_singleton.mpr hevidence
    · exact fun _ h => absurd h List.not_mem_nil
    · exact ⟨rfl, List.cons_ne_nil _ _, rfl⟩
    · exact Option.some_ne_none observed
  | false =>
    refine childOk_metric rfl ⟨?_, ?_, ?_⟩ ?_ hminimum p.notBlank hid
    · exact fun _ h => absurd h List.not_mem_nil
    · exact List.forall_mem_singleton.mpr hevidence
    · exact ⟨rfl, rfl, List.cons_ne_nil _ _⟩
    · exact Option.some_ne_none observed

/-- The verifier's result of a predicate on an entry is written. -/
theorem childOk_evaluatePredicate {p : MetricShiftPredicate}
    {entry : Option (MetricShiftEvidence F)} {minimum : F}
    (hentry : ∀ e, entry = some e → wellFormedId e.evidenceId.value = true)
    (hminimum : FiniteNonnegative minimum) (hid : Encodable p.predicateId) :
    ChildOk metricFormat p.predicateId (evaluatePredicate p entry minimum) ∧
      ∀ r, (evaluatePredicate p entry minimum).reason = some r →
        (metricFormat (F := F)).isGate r = false := by
  have hunknown : ∀ {reason : UnknownReason} {observed : Option ObservedDirection},
      directionFits .unknown (some reason) observed → (metricFormat (F := F)).isGate reason = false →
      ChildOk metricFormat p.predicateId (unknown p reason minimum observed) ∧
        ∀ r, (unknown p reason minimum observed).reason = some r →
          (metricFormat (F := F)).isGate r = false := by
    intro reason observed hdirection hgate
    refine ⟨childOk_unknown hdirection hminimum hid, fun r hr => ?_⟩
    obtain rfl := Option.some.inj hr
    exact hgate
  unfold evaluatePredicate
  split
  · exact hunknown (by decide) rfl
  · next e =>
    have hevidence := hentry e rfl
    split
    · exact hunknown (by decide) rfl
    · exact hunknown (by decide) rfl
    · split
      · exact hunknown (by decide) rfl
      · dsimp only
        split
        · split
          · exact hunknown (by decide) rfl
          · exact hunknown (by decide) rfl
        · exact ⟨childOk_decided _ hevidence hminimum hid, nofun⟩

/-- A gate of the metric verifier. -/
theorem documentReason_cases {P Reason : Type} [Predicate P] {contextMismatch causal r : Reason}
    {d : Document P} {tenant : TenantId} {incident : IncidentId} {run : RunId}
    (h : documentReason contextMismatch causal d tenant incident run = some r) :
    r = contextMismatch ∨ r = causal := by
  unfold documentReason at h
  split at h
  · exact Or.inl (Option.some.inj h).symm
  · split at h
    · exact Or.inr (Option.some.inj h).symm
    · cases h

/-- **Metric verifications are serialized.** -/
theorem verificationJson_ok [Sha256] {h : HypothesisDocument} {l : MetricEvidenceLedger F}
    {result : HypothesisVerificationResult F} (hresult : verifyHypothesis h l = .ok result)
    (hid : Encodable h.hypothesisId) (hids : ∀ p ∈ h.predicates, Encodable p.predicateId) :
    ∃ s, serialize (verificationPayload result) = .ok s := by
  obtain ⟨hacc, rfl⟩ := verifyHypothesis_eq_ok.mp hresult
  have hminimum : FiniteNonnegative l.policy.minimumScore := hacc.policy.score
  have hentry : ∀ key e, bySignal l.normalized.entries key = some e →
      wellFormedId e.evidenceId.value = true := by
    intro key e he
    have hmem := List.mem_reverse.mp (List.mem_of_find?_eq_some he)
    exact (hacc.normalized.entries e hmem).evidenceId
  have hgates : ∀ reason, documentReason UnknownReason.contextMismatch .causalClaimNotVerifiable h
      l.tenantId l.incidentId l.runId = some reason →
      directionFits .unknown (some reason) none ∧ (metricFormat (F := F)).isGate reason = true := by
    intro reason hreason
    rcases documentReason_cases hreason with rfl | rfl <;> exact ⟨by decide, rfl⟩
  obtain ⟨hok, hchildren⟩ := resultOk_verifyDocument (d := h)
    (fun p hp reason hreason => ⟨childOk_unknown (hgates reason hreason).1 hminimum (hids p hp),
      rfl, rfl, rfl, rfl, rfl⟩)
    (fun reason hreason => (hgates reason hreason).2)
    (fun p hp => childOk_evaluatePredicate (hentry p.signalKey) hminimum (hids p hp))
  exact serialize_documentPayload hok hchildren hid
    (fun r => by cases r <;> exact encodable_str _) (encodable_str _)

end metric

/-! ### Change results -/

section change

/-- A change result whose trace fits is written. -/
theorem childOk_change {r : ChangePredicateVerificationResult} {id : Str}
    (hsame : r.predicateId = id) (htrace : TraceOk r) (hblank : isBlank id = false)
    (hid : Encodable id) : ChildOk changeFormat id r := by
  subst hsame
  have hpayload : changePredicateResultPayload r = .ok (jsonObj [
      ("contradicting_evidence_ids", texts (r.contradictingEvidenceIds.map (·.value))),
      ("phase_constraint", .str r.phaseConstraint.value),
      ("predicate_id", .str r.predicateId),
      ("reason", jsonOption (fun r => .str r.value) r.reason),
      ("supporting_evidence_ids", texts (r.supportingEvidenceIds.map (·.value))),
      ("verdict", .str r.verdict.value)]) := by
    simp only [changePredicateResultPayload, bind_eq_ok, Prod.exists, checkTrace_eq_ok,
      Prod.mk.injEq, text_eq_ok, pure_eq_ok]
    exact ⟨_, _, ⟨htrace, rfl, rfl⟩, _, ⟨hblank, rfl⟩, rfl⟩
  refine ⟨rfl, htrace, _, hpayload, ?_⟩
  have hphase : Encodable r.phaseConstraint.value := by
    cases r.phaseConstraint <;> exact encodable_str _
  have hreason : ∀ r : ChangeUnknownReason, Encodable r.value := fun r => by
    cases r <;> exact encodable_str _
  have hverdict : Encodable r.verdict.value := by
    cases r.verdict <;> exact encodable_str _
  apply writable_obj
  simp only [List.forall_mem_cons]
  exact ⟨writable_ids htrace.contradicting, writable_str hphase, writable_str hid,
    writable_option fun r _ => writable_str (hreason r), writable_ids htrace.supporting,
    writable_str hverdict, by simp⟩

theorem childOk_changeUnknown {p : ChangeCooccurrencePredicate} {reason : ChangeUnknownReason}
    (hid : Encodable p.predicateId) :
    ChildOk changeFormat p.predicateId (ChangeEvidence.unknown p reason) := by
  have htrace : TraceOk (ChangeEvidence.unknown p reason) :=
    ⟨by simp [PredicateTrace.supportingEvidenceIds, ChangeEvidence.unknown],
      by simp [PredicateTrace.contradictingEvidenceIds, ChangeEvidence.unknown],
      by simp [PredicateTrace.reason, ChangeEvidence.unknown], rfl, rfl⟩
  exact childOk_change rfl htrace p.notBlank hid

/-- The verifier's result of a change predicate is written. -/
theorem childOk_evaluateChange {p : ChangeCooccurrencePredicate}
    {entries : List ChangeEventEvidence}
    (hentries : ∀ e ∈ entries, wellFormedId e.evidenceId.value = true)
    (hid : Encodable p.predicateId) :
    ChildOk changeFormat p.predicateId (ChangeEvidence.evaluatePredicate p entries) ∧
      ∀ r, (ChangeEvidence.evaluatePredicate p entries).reason = some r →
        changeFormat.isGate r = false := by
  obtain ⟨chosen, hchosen⟩ : ∃ chosen, chosen = entries.filter fun entry =>
    entry.eventKey = p.eventKey && entry.kind = p.kind := ⟨_, rfl⟩
  have hids : ∀ kept : List ChangeEventEvidence, kept.Sublist chosen →
      ∀ id ∈ kept.map (·.evidenceId), wellFormedId id.value = true := by
    intro kept hkept
    refine List.forall_mem_map.mpr fun e he => hentries e ?_
    exact List.mem_of_mem_filter (hchosen ▸ hkept.mem he)
  unfold ChangeEvidence.evaluatePredicate
  simp only [← hchosen]
  split
  · refine ⟨childOk_changeUnknown hid, fun r hr => ?_⟩
    obtain rfl := Option.some.inj hr
    rfl
  · next hne =>
    split
    · refine ⟨childOk_change rfl ⟨?_, ?_, ?_⟩ p.notBlank hid, nofun⟩
      · exact fun _ h => absurd h List.not_mem_nil
      · exact hids _ (List.Sublist.refl _)
      · exact ⟨rfl, rfl, by simpa [PredicateTrace.contradictingEvidenceIds] using hne⟩
    · next hsome =>
      refine ⟨childOk_change rfl ⟨?_, ?_, ?_⟩ p.notBlank hid, nofun⟩
      · exact hids _ List.filter_sublist
      · exact fun _ h => absurd h List.not_mem_nil
      · exact ⟨rfl, by simpa [PredicateTrace.supportingEvidenceIds] using hsome, rfl⟩

/-- **Change verifications are serialized.** -/
theorem changeVerificationJson_ok [Sha256] {h : ChangeHypothesisDocument} {l : ChangeEventLedger}
    {result : ChangeHypothesisVerificationResult} (hresult : verifyChangeHypothesis h l = .ok result)
    (hid : Encodable h.hypothesisId) (hids : ∀ p ∈ h.predicates, Encodable p.predicateId) :
    ∃ s, serialize (changeVerificationPayload result) = .ok s := by
  obtain ⟨hacc, rfl⟩ := verifyChangeHypothesis_eq_ok.mp hresult
  have hentries : ∀ e ∈ l.entries, wellFormedId e.evidenceId.value = true := fun e he =>
    contentId_wellFormed (hacc.ids e he)
  have hgates : ∀ reason, documentReason ChangeUnknownReason.contextMismatch
      .causalClaimNotVerifiable h l.tenantId l.incidentId l.runId = some reason →
      changeFormat.isGate reason = true := by
    intro reason hreason
    rcases documentReason_cases hreason with rfl | rfl <;> rfl
  obtain ⟨hok, hchildren⟩ := resultOk_verifyDocument (d := h)
    (fun p hp reason hreason => ⟨childOk_changeUnknown (hids p hp), rfl, rfl, rfl, rfl, rfl⟩)
    hgates (fun p hp => childOk_evaluateChange hentries (hids p hp))
  exact serialize_documentPayload hok hchildren hid
    (fun r => by cases r <;> exact encodable_str _) (encodable_str _)

end change

end Serialization

/-- **The serializers never reject a verifier's own output**, as long as the ids of
    the hypothesis can be encoded. -/
theorem verification_json_total {F : Type} [PyFloat F] [LawfulPyFloat F] [FloatHex F]
    [LawfulFloatHex F] [Sha256] :
    (∀ (h : HypothesisDocument) (l l' : MetricEvidenceLedger F),
      validateMetricEvidenceLedger l = .ok l' → Encodable h.hypothesisId →
      (∀ p ∈ h.predicates, Encodable p.predicateId) →
      ∃ result s, verifyHypothesis h l = .ok result ∧ verificationJson result = .ok s) ∧
    (∀ (h : ChangeHypothesisDocument) (l l' : ChangeEventLedger),
      validateChangeEventLedger l = .ok l' → Encodable h.hypothesisId →
      (∀ p ∈ h.predicates, Encodable p.predicateId) →
      ∃ result s, verifyChangeHypothesis h l = .ok result ∧
        changeVerificationJson result = .ok s) := by
  constructor
  · intro h l l' hvalid hid hids
    have hresult := verifyHypothesis_eq_ok (h := h) |>.mpr ⟨(validate_eq_ok.mp hvalid).1, rfl⟩
    obtain ⟨s, hs⟩ := verificationJson_ok hresult hid hids
    exact ⟨_, s, hresult, hs⟩
  · intro h l l' hvalid hid hids
    have hresult := verifyChangeHypothesis_eq_ok (h := h) |>.mpr
      ⟨(validateChange_eq_ok.mp hvalid).1, rfl⟩
    obtain ⟨s, hs⟩ := changeVerificationJson_ok hresult hid hids
    exact ⟨_, s, hresult, hs⟩

namespace Demo

/-- A ledger of a run in which nothing was changed. -/
def noChanges : ChangeEventLedger :=
  ⟨ChangeEvidence.SCHEMA_VERSION, tenant, incident, run, window, []⟩

theorem noChanges_accepted : noChanges.Accepted :=
  ⟨rfl, by decide, by decide, by decide, by decide, nofun, nofun, .nil, nofun⟩

/-- A deployment of the checkout service was seen before the injection. -/
def changeHypothesis : ChangeHypothesisDocument where
  hypothesisId := str "h-2"
  tenantId := tenant
  incidentId := incident
  runId := run
  semantics := .descriptive
  composition := .any
  predicates := [⟨str "c-1", ⟨str "checkout"⟩, .deployment, .preInjection, by decide, checkout_valid⟩]
  ok := by decide

end Demo

open Demo in
/-- Both documents of the small incident are serialized. -/
theorem verification_json_total_demo : ∃ (ledger : MetricEvidenceLedger ExactFloat) (s s' : Str),
    rankAndCompile tenant incident run window [latency, errors] policy = .ok ledger ∧
    (verifyHypothesis hypothesis ledger >>= verificationJson) = .ok s ∧
    (verifyChangeHypothesis changeHypothesis noChanges >>= changeVerificationJson) = .ok s' := by
  obtain ⟨hmetric, hchange⟩ := verification_json_total (F := ExactFloat)
  obtain ⟨ledger, hledger⟩ := exists_ledger
  obtain ⟨hvalid, -⟩ := rankAndCompile_eq_ok hledger
  obtain ⟨result, s, hresult, hs⟩ := hmetric hypothesis ledger ledger hvalid (encodable_str _)
    (List.forall_mem_cons.mpr ⟨encodable_str _, List.forall_mem_singleton.mpr (encodable_str _)⟩)
  obtain ⟨result', s', hresult', hs'⟩ := hchange changeHypothesis noChanges noChanges
    (validateChange_eq_ok.mpr ⟨noChanges_accepted, rfl⟩) (encodable_str _)
    (List.forall_mem_singleton.mpr (encodable_str _))
  exact ⟨ledger, s, s', hledger, bind_eq_ok.mpr ⟨result, hresult, hs⟩,
    bind_eq_ok.mpr ⟨result', hresult', hs'⟩⟩

end IncidentEvidence
