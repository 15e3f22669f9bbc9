import IncidentEvidence.Domain.Verifier

/-! # Canonical serialization

    `serialization.py`. A serializer checks an artifact again, field by field,
    before it writes canonical JSON; whatever fails is a
    `CanonicalSerializationError`.

    The two verification serializers are `documentPayload` with the format of
    their predicate results. `documentPayload_eq_ok` says which results they
    accept.
-/

namespace IncidentEvidence

open Py PyFloat

namespace Serialization

/-! ### Checked values -/

/-- `if not condition: _fail()`. -/
abbrev check (p : Prop) [Decidable p] : Except DomainError Unit :=
  require p .canonicalSerialization

/-- `_text`. -/
def text (value : Str) : Except DomainError Str := do
  check (isBlank value = false)
  return value

/-- `_count`. -/
def count (value : Int) (positive : Bool := false) : Except DomainError Int := do
  check (¬ value < if positive then 1 else 0)
  return value

section numbers
variable {F : Type} [PyFloat F] [FloatHex F]

/-- `_finite_hex`. -/
def finiteHex (value : F) (nonnegative : Bool := false) (positive : Bool := false) :
    Except DomainError Str := do
  check (isFinite value = true)
  check (¬ (nonnegative = true ∧ lt value zero = true))
  check (¬ (positive = true ∧ le value zero = true))
  return FloatHex.hex value

theorem finiteHex_nonnegative [LawfulPyFloat F] {value : F} {s : Str} :
    finiteHex value true = .ok s ↔ FiniteNonnegative value ∧ s = FloatHex.hex value := by
  simp only [finiteHex, bind_eq_ok, require_eq_ok, pure_eq_ok,
    Parsing.finiteNonnegative_iff]
  constructor
  · rintro ⟨_, hfinite, _, hnonneg, _, -, rfl⟩
    exact ⟨⟨hfinite, by simpa using hnonneg⟩, rfl⟩
  · rintro ⟨⟨hfinite, hnonneg⟩, rfl⟩
    exact ⟨(), hfinite, (), by simp [hnonneg], (), by simp, rfl⟩

/-- `_optional_finite_hex`. -/
def optionalFiniteHex (value : Option F) (nonnegative : Bool := false) :
    Except DomainError (Option Str) :=
  match value with
  | none => return none
  | some value => some <$> finiteHex value nonnegative

end numbers

/-- `_evidence_id`. -/
def evidenceId (value : EvidenceId) : Except DomainError Str := do
  let raw ← text value.value
  check (wellFormedId raw = true)
  return raw

/-- `_evidence_ids`. -/
def evidenceIds (values : List EvidenceId) : Except DomainError (List Str) :=
  values.mapM evidenceId

/-- A list of texts as JSON. -/
def texts (values : List Str) : Json := .arr (values.map .str)

/-- `_canonical_json`. -/
def canonicalJson (payload : Json) : Except DomainError Str := do
  let encoded ← orRaise (jsonDumps payload) .canonicalSerialization
  let serialized := encoded ++ str "\n"
  let _ ← orRaise (encodeUtf8 serialized) .canonicalSerialization
  return serialized

/-- The wrapper of every serializer: no other exception leaves. -/
def serialize (payload : Except DomainError Json) : Except DomainError Str :=
  replaceError .canonicalSerialization (payload >>= canonicalJson)

theorem text_eq_ok {value t : Str} : text value = .ok t ↔ isBlank value = false ∧ t = value := by
  simp [text, -bind_pure_comp]

theorem evidenceId_eq_ok {value : EvidenceId} {t : Str} :
    evidenceId value = .ok t ↔ wellFormedId value.value = true ∧ t = value.value := by
  simp only [evidenceId, bind_eq_ok, text_eq_ok, require_eq_ok, pure_eq_ok]
  constructor
  · rintro ⟨_, ⟨-, rfl⟩, _, hid, rfl⟩
    exact ⟨hid, rfl⟩
  · rintro ⟨hid, rfl⟩
    exact ⟨_, ⟨wellFormedId_not_blank hid, rfl⟩, (), hid, rfl⟩

theorem evidenceIds_eq_ok {values : List EvidenceId} {ts : List Str} :
    evidenceIds values = .ok ts ↔
      (∀ v ∈ values, wellFormedId v.value = true) ∧ ts = values.map (·.value) :=
  mapM_eq_ok_of fun _ _ _ => evidenceId_eq_ok

/-- Payloads whose integers and strings can be written are serialized. -/
theorem canonicalJson_ok {payload : Json} (hprintable : payload.printable = true)
    (hencodable : payload.Encodable) : ∃ s, canonicalJson payload = .ok s := by
  have hdumps : jsonDumps payload = some (dumps payload) := jsonDumps_eq_some.mpr ⟨hprintable, rfl⟩
  have hencoded : Encodable (dumps payload ++ str "\n") :=
    encodable_append.mpr ⟨encodable_dumps payload hencodable, encodable_str _⟩
  obtain ⟨b, hb⟩ := encodeUtf8_isSome.mpr hencoded
  exact ⟨_, by
    simp only [canonicalJson, bind_eq_ok, orRaise_eq_ok, pure_eq_ok]
    exact ⟨_, hdumps, b, hb, rfl⟩⟩

theorem canonicalJson_text {payload : Json} {s : Str} (h : canonicalJson payload = .ok s) :
    payload.printable = true ∧ s = dumps payload ++ str "\n" := by
  simp only [canonicalJson, bind_eq_ok, orRaise_eq_ok, jsonDumps_eq_some, pure_eq_ok] at h
  obtain ⟨_, ⟨hprintable, rfl⟩, _, -, rfl⟩ := h
  exact ⟨hprintable, rfl⟩

/-- A document is the canonical text of its payload. -/
theorem serialize_text {payload : Except DomainError Json} {s : Str} (h : serialize payload = .ok s) :
    ∃ j, payload = .ok j ∧ j.printable = true ∧ s = dumps j ++ str "\n" := by
  simp only [serialize, replaceError_eq_ok, bind_eq_ok] at h
  obtain ⟨j, hj, hs⟩ := h
  exact ⟨j, hj, canonicalJson_text hs⟩

/-- A document can be encoded, and so can what is written in it. -/
theorem serialize_encodable {payload : Except DomainError Json} {s : Str}
    (h : serialize payload = .ok s) : ∃ j, payload = .ok j ∧ j.Encodable := by
  simp only [serialize, replaceError_eq_ok, bind_eq_ok] at h
  obtain ⟨j, hj, hs⟩ := h
  simp only [canonicalJson, bind_eq_ok, orRaise_eq_ok, jsonDumps_eq_some, pure_eq_ok] at hs
  obtain ⟨_, ⟨-, rfl⟩, b, hb, -⟩ := hs
  have hencoded : Encodable (dumps j ++ str "\n") := encodeUtf8_isSome.mp ⟨b, hb⟩
  exact ⟨j, hj, encodable_of_dumps j (encodable_append.mp hencoded).1⟩

/-- The one exception of a serializer. -/
theorem serialize_error {payload : Except DomainError Json} (h : ¬ ∃ s, serialize payload = .ok s) :
    serialize payload = .error .canonicalSerialization := by
  unfold serialize replaceError at h ⊢
  cases hp : payload >>= canonicalJson with
  | ok s => exact absurd ⟨s, by rw [hp]⟩ h
  | error e => rfl

theorem serialize_ok {payload : Except DomainError Json} {j : Json} (h : payload = .ok j)
    (hprintable : j.printable = true) (hencodable : j.Encodable) :
    ∃ s, serialize payload = .ok s := by
  obtain ⟨s, hs⟩ := canonicalJson_ok hprintable hencodable
  exact ⟨s, by simp [serialize, h, hs]⟩

/-! ### Verification results -/

/-- How a serializer writes the results of one verifier. -/
structure VerificationFormat (R Reason : Type) where
  schemaVersion : Str
  reasonValue : Reason → Str
  /-- The reasons that gate a whole document. -/
  isGate : Reason → Bool
  /-- A result that records an observed direction. -/
  observes : R → Bool
  /-- The checked payload of one predicate result. -/
  payload : R → Except DomainError Json

/-- The serializers' own composition of the child verdicts. -/
def expectedVerdict (composition : HypothesisComposition)
    (childVerdicts : List VerificationVerdict) : VerificationVerdict :=
  if composition = .all then
    if .refuted ∈ childVerdicts then .refuted
    else if .unknown ∈ childVerdicts then .unknown
    else .supported
  else
    if .supported ∈ childVerdicts then .supported
    else if .unknown ∈ childVerdicts then .unknown
    else .refuted

/-- It agrees with the composition of the verifiers. -/
theorem expectedVerdict_eq (composition : HypothesisComposition)
    (childVerdicts : List VerificationVerdict) :
    expectedVerdict composition childVerdicts = compose composition childVerdicts := by
  cases composition <;> rfl

section verification
variable {R Reason : Type} [PredicateTrace R Reason]

open PredicateTrace

/-- The reason and the evidence that go with each verdict. -/
def verdictFits (verdict : VerificationVerdict) (reason : Option Reason)
    (supporting contradicting : List Str) : Prop :=
  match verdict with
  | .unknown => reason ≠ none ∧ supporting = [] ∧ contradicting = []
  | .supported => reason = none ∧ supporting ≠ [] ∧ contradicting = []
  | .refuted => reason = none ∧ supporting = [] ∧ contradicting ≠ []

instance (verdict : VerificationVerdict) (reason : Option Reason)
    (supporting contradicting : List Str) :
    Decidable (verdictFits verdict reason supporting contradicting) :=
  match verdict with
  | .unknown => inferInstanceAs (Decidable (_ ∧ _ ∧ _))
  | .supported => inferInstanceAs (Decidable (_ ∧ _ ∧ _))
  | .refuted => inferInstanceAs (Decidable (_ ∧ _ ∧ _))

/-- The checks both predicate serializers make on verdict, reason and evidence, and
    the evidence as text. -/
def checkTrace (result : R) : Except DomainError (List Str × List Str) := do
  let supporting ← evidenceIds (supportingEvidenceIds result)
  let contradicting ← evidenceIds (contradictingEvidenceIds result)
  check (∀ id ∈ supporting, id ∉ contradicting)
  check (verdictFits (verdict result) (reason result) supporting contradicting)
  return (supporting, contradicting)

/-- What `checkTrace` accepts. -/
structure TraceOk (result : R) : Prop where
  supporting : ∀ id ∈ supportingEvidenceIds result, wellFormedId id.value = true
  contradicting : ∀ id ∈ contradictingEvidenceIds result, wellFormedId id.value = true
  fits : verdictFits (verdict result) (reason result)
    ((supportingEvidenceIds result).map (·.value)) ((contradictingEvidenceIds result).map (·.value))

theorem checkTrace_eq_ok {result : R} {ts : List Str × List Str} :
    checkTrace result = .ok ts ↔ TraceOk result ∧
      ts = ((supportingEvidenceIds result).map (·.value),
        (contradictingEvidenceIds result).map (·.value)) := by
  simp only [checkTrace, bind_eq_ok, evidenceIds_eq_ok, require_eq_ok, pure_eq_ok]
  constructor
  · rintro ⟨_, ⟨hsupporting, rfl⟩, _, ⟨hcontradicting, rfl⟩, _, -, _, hfits, rfl⟩
    exact ⟨⟨hsupporting, hcontradicting, hfits⟩, rfl⟩
  · rintro ⟨⟨hsupporting, hcontradicting, hfits⟩, rfl⟩
    refine ⟨_, ⟨hsupporting, rfl⟩, _, ⟨hcontradicting, rfl⟩, (), ?_, (), hfits, rfl⟩
    -- one of the two lists is empty
    cases hverdict : verdict result <;> simp_all [verdictFits]

/-- `_predicate_results` and `_change_predicate_results`. -/
def predicateResults (format : VerificationFormat R Reason) (results : List R) :
    Except DomainError (List Json) := do
  let serialized ← results.mapM format.payload
  check (results.map predicateId).Nodup
  return serialized

variable [DecidableEq Reason]

/-- A child of a gated document is gated for the same reason and has no evidence. -/
def gatedChild (format : VerificationFormat R Reason) (gate : Reason) (child : R) : Prop :=
  verdict child = .unknown ∧ reason child = some gate ∧ format.observes child = false ∧
    supportingEvidenceIds child = [] ∧ contradictingEvidenceIds child = []

instance (format : VerificationFormat R Reason) (gate : Reason) (child : R) :
    Decidable (gatedChild format gate child) :=
  inferInstanceAs (Decidable (_ ∧ _ ∧ _ ∧ _ ∧ _))

/-- The last check of a verification: a gated document has gated children only, and
    any other document none. -/
def checkGate (format : VerificationFormat R Reason) (result : VerificationResult R Reason) :
    Except DomainError Unit :=
  match result.reason with
  | some gate => check (format.isGate gate = true ∧ result.verdict = .unknown ∧
      result.supportingEvidenceIds = [] ∧ result.contradictingEvidenceIds = [] ∧
      ∀ child ∈ result.predicateResults, gatedChild format gate child)
  | none => check (∀ child ∈ result.predicateResults, ∀ r, reason child = some r →
      format.isGate r = false)

/-- `_verification_payload` and `_change_verification_payload`. -/
def documentPayload (format : VerificationFormat R Reason) (result : VerificationResult R Reason) :
    Except DomainError Json := do
  let predicates ← predicateResults format result.predicateResults
  check (predicates ≠ [])
  let supporting ← evidenceIds result.supportingEvidenceIds
  let contradicting ← evidenceIds result.contradictingEvidenceIds
  check (supporting = (result.predicateResults.flatMap supportingEvidenceIds).map (·.value) ∧
    contradicting = (result.predicateResults.flatMap contradictingEvidenceIds).map (·.value))
  check (result.verdict =
    expectedVerdict result.composition (result.predicateResults.map verdict))
  checkGate format result
  let hypothesisId ← text result.hypothesisId
  return jsonObj [
    ("composition", .str result.composition.value),
    ("contradicting_evidence_ids", texts contradicting),
    ("hypothesis_id", .str hypothesisId),
    ("predicate_results", .arr predicates),
    ("reason", jsonOption (fun r => .str (format.reasonValue r)) result.reason),
    ("schema_version", .str format.schemaVersion),
    ("supporting_evidence_ids", texts supporting),
    ("verdict", .str result.verdict.value)]

/-- What `documentPayload` accepts. -/
structure ResultOk (format : VerificationFormat R Reason) (result : VerificationResult R Reason) :
    Prop where
  notBlank : isBlank result.hypothesisId = false
  nonempty : result.predicateResults ≠ []
  distinct : (result.predicateResults.map predicateId).Nodup
  evidence : ∀ child ∈ result.predicateResults, TraceOk child
  supporting : result.supportingEvidenceIds =
    result.predicateResults.flatMap supportingEvidenceIds
  contradicting : result.contradictingEvidenceIds =
    result.predicateResults.flatMap contradictingEvidenceIds
  verdict : result.verdict = compose result.composition (result.predicateResults.map verdict)
  gated : ∀ gate, result.reason = some gate → format.isGate gate = true ∧
    result.verdict = .unknown ∧ ∀ child ∈ result.predicateResults, gatedChild format gate child
  ungated : result.reason = none → ∀ child ∈ result.predicateResults, ∀ r,
    reason child = some r → format.isGate r = false

omit [DecidableEq Reason] in
/-- A document cites what its children cite. -/
theorem ResultOk.wellFormed {format : VerificationFormat R Reason}
    {result : VerificationResult R Reason} (h : ResultOk format result) :
    (∀ id ∈ result.supportingEvidenceIds, wellFormedId id.value = true) ∧
      ∀ id ∈ result.contradictingEvidenceIds, wellFormedId id.value = true := by
  constructor
  · intro id hid
    rw [h.supporting] at hid
    obtain ⟨child, hchild, hmem⟩ := List.mem_flatMap.mp hid
    exact (h.evidence child hchild).supporting id hmem
  · intro id hid
    rw [h.contradicting] at hid
    obtain ⟨child, hchild, hmem⟩ := List.mem_flatMap.mp hid
    exact (h.evidence child hchild).contradicting id hmem

/-- The payload of a result whose children have payloads. -/
theorem documentPayload_ok {format : VerificationFormat R Reason}
    {result : VerificationResult R Reason} (h : ResultOk format result)
    {children : List Json} (hchildren : result.predicateResults.mapM format.payload = .ok children) :
    documentPayload format result = .ok (jsonObj [
      ("composition", .str result.composition.value),
      ("contradicting_evidence_ids", texts (result.contradictingEvidenceIds.map (·.value))),
      ("hypothesis_id", .str result.hypothesisId),
      ("predicate_results", .arr children),
      ("reason", jsonOption (fun r => .str (format.reasonValue r)) result.reason),
      ("schema_version", .str format.schemaVersion),
      ("supporting_evidence_ids", texts (result.supportingEvidenceIds.map (·.value))),
      ("verdict", .str result.verdict.value)]) := by
  have hchildrenNe : children ≠ [] := by
    rintro rfl
    have hlength := (mapM_eq_ok.mp hchildren).length_eq
    exact h.nonempty (List.length_eq_zero_iff.mp hlength)
  obtain ⟨hsupporting, hcontradicting⟩ := h.wellFormed
  have hgate : checkGate format result = .ok () := by
    unfold checkGate
    split
    · next gate hreason =>
      obtain ⟨hgate, hunknown, hchildren⟩ := h.gated gate hreason
      have hempty : ∀ f : R → List EvidenceId, (∀ c ∈ result.predicateResults, f c = []) →
          result.predicateResults.flatMap f = [] := fun f hf => by simpa using hf
      rw [require_eq_ok]
      refine ⟨hgate, hunknown, ?_, ?_, hchildren⟩
      · rw [h.supporting]
        exact hempty _ fun c hc => (hchildren c hc).2.2.2.1
      · rw [h.contradicting]
        exact hempty _ fun c hc => (hchildren c hc).2.2.2.2
    · next hreason => exact require_eq_ok.mpr (h.ungated hreason)
  simp only [documentPayload, predicateResults, bind_eq_ok, require_eq_ok, evidenceIds_eq_ok,
    text_eq_ok, pure_eq_ok, expectedVerdict_eq]
  exact ⟨_, ⟨_, hchildren, (), h.distinct, rfl⟩, (), hchildrenNe, _, ⟨hsupporting, rfl⟩, _,
    ⟨hcontradicting, rfl⟩, (), ⟨by rw [h.supporting], by rw [h.contradicting]⟩, (), h.verdict,
    (), hgate, _, ⟨h.notBlank, rfl⟩, rfl⟩

end verification

end Serialization

end IncidentEvidence
