import IncidentEvidence.Domain.Serialization
import IncidentEvidence.Domain.VerificationJson

/-! # Ledger, baseline and entry documents

    `ledger_json`, `baseline_ranking_json`, `metric_evidence_entry_json` and
    `change_ledger_json`. A serializer renders each field and then compares
    rendered fields, so a document is refused when two equal numbers have
    different renderings. `entryPayload_eq_ok` and `candidatePayload_eq_ok` say
    which values have a payload, and which one.
-/

namespace IncidentEvidence

open Py PyFloat

namespace Serialization

/-- `BASELINE_RANKING_SCHEMA_VERSION`. -/
def BASELINE_RANKING_SCHEMA_VERSION : Str := str "baseline-ranking.v1"

/-! ### Payloads -/

/-- `_window_payload`. -/
def windowPayload (window : IncidentWindow) : Except DomainError Json := do
  check (window.start ≤ window.injection ∧ window.injection < window.end)
  return jsonObj [
    ("end", .str (timestamp window.end)),
    ("injection", .str (timestamp window.injection)),
    ("start", .str (timestamp window.start))]

/-- `_signal_key`. -/
def signalKey (key : SignalKey) : Except DomainError Str := text key.value

/-- `_signal_keys`. -/
def signalKeys (keys : List SignalKey) : Except DomainError (List Str) := do
  let serialized ← keys.mapM signalKey
  check serialized.Nodup
  return serialized

/-- `if keys != sorted(keys) or len(set(keys)) != len(keys): _fail()`. -/
def checkOrder {κ : Type} [LinearOrder κ] (keys : List κ) : Except DomainError Unit :=
  check (keys = sortedOn id keys ∧ keys.Nodup)

section payloads
variable {F : Type} [PyFloat F] [FloatHex F]

/-- `_policy_payload`. -/
def policyPayload (policy : BaselinePolicy F) : Except DomainError Json := do
  let minimumMargin ← finiteHex policy.minimumMargin true
  let minimumPointsPerWindow ← count policy.minimumPointsPerWindow true
  let minimumScore ← finiteHex policy.minimumScore true
  let relativeScaleFloor ← finiteHex policy.relativeScaleFloor true
  return jsonObj [
    ("minimum_margin", .str minimumMargin),
    ("minimum_points_per_window", .int minimumPointsPerWindow),
    ("minimum_score", .str minimumScore),
    ("relative_scale_floor", .str relativeScaleFloor)]

/-- `_decision_payload`. -/
def decisionPayload (decision : MetricShiftDecision F) : Except DomainError Json := do
  check (decision.kind = .ranking ↔ decision.abstentionReason = none)
  let candidateSignalKeys ← signalKeys decision.candidateSignalKeys
  let eligibleSignalCount ← count decision.eligibleSignalCount
  check (eligibleSignalCount = candidateSignalKeys.length)
  let lead ← optionalFiniteHex decision.lead true
  let secondScore ← optionalFiniteHex decision.secondScore true
  let topScore ← optionalFiniteHex decision.topScore true
  return jsonObj [
    ("abstention_reason", jsonOption (fun r => .str r.value) decision.abstentionReason),
    ("candidate_signal_keys", texts candidateSignalKeys),
    ("eligible_signal_count", .int eligibleSignalCount),
    ("kind", .str decision.kind.value),
    ("lead", jsonOption .str lead),
    ("second_score", jsonOption .str secondScore),
    ("top_score", jsonOption .str topScore)]

/-- `_candidate_payload`. -/
def candidatePayload (candidate : SuspicionCandidate F) : Except DomainError Json := do
  let absoluteScaleFloor ← finiteHex candidate.absoluteScaleFloor false true
  let postMedian ← finiteHex candidate.postMedian
  let postPointCount ← count candidate.postPointCount
  let preMad ← finiteHex candidate.preMad true
  let preMedian ← finiteHex candidate.preMedian
  let prePointCount ← count candidate.prePointCount
  let relativeScaleFloor ← finiteHex candidate.relativeScaleFloor true
  let scale ← finiteHex candidate.scale false true
  let signalKey ← signalKey candidate.signalKey
  let signedScore ← finiteHex candidate.signedScore
  let suspicionScore ← finiteHex candidate.suspicionScore true
  return jsonObj [
    ("absolute_scale_floor", .str absoluteScaleFloor),
    ("post_median", .str postMedian),
    ("post_point_count", .int postPointCount),
    ("pre_mad", .str preMad),
    ("pre_median", .str preMedian),
    ("pre_point_count", .int prePointCount),
    ("relative_scale_floor", .str relativeScaleFloor),
    ("scale", .str scale),
    ("signal_key", .str signalKey),
    ("signed_score", .str signedScore),
    ("suspicion_score", .str suspicionScore)]

/-- `None if candidate is None else _candidate_payload(candidate)`. -/
def optionalCandidate (candidate : Option (SuspicionCandidate F)) :
    Except DomainError (Option Json) :=
  match candidate with
  | none => return none
  | some candidate => some <$> candidatePayload candidate

/-- A candidate repeats what its entry says, as rendered. -/
def candidateFits (candidate : SuspicionCandidate F) (signalKey : Str)
    (prePointCount postPointCount : Int) (absoluteScaleFloor relativeScaleFloor : Str) : Prop :=
  candidate.signalKey.value = signalKey ∧ candidate.prePointCount = prePointCount ∧
    candidate.postPointCount = postPointCount ∧
    FloatHex.hex candidate.absoluteScaleFloor = absoluteScaleFloor ∧
    FloatHex.hex candidate.relativeScaleFloor = relativeScaleFloor

instance (candidate : SuspicionCandidate F) (signalKey : Str) (prePointCount postPointCount : Int)
    (absoluteScaleFloor relativeScaleFloor : Str) :
    Decidable (candidateFits candidate signalKey prePointCount postPointCount absoluteScaleFloor
      relativeScaleFloor) :=
  inferInstanceAs (Decidable (_ ∧ _ ∧ _ ∧ _ ∧ _))

/-- `_entry_payload`. -/
def entryPayload (entry : MetricShiftEvidence F) : Except DomainError Json := do
  let candidate ← optionalCandidate entry.candidate
  let signalKey ← signalKey entry.signalKey
  let prePointCount ← count entry.prePointCount
  let postPointCount ← count entry.postPointCount
  let absoluteScaleFloor ← finiteHex entry.absoluteScaleFloor false true
  let relativeScaleFloor ← finiteHex entry.relativeScaleFloor true
  check (entry.eligible = candidate.isSome)
  check (∀ c ∈ entry.candidate, candidateFits c signalKey prePointCount postPointCount
    absoluteScaleFloor relativeScaleFloor)
  let evidenceId ← evidenceId entry.evidenceId
  return jsonObj [
    ("absolute_scale_floor", .str absoluteScaleFloor),
    ("candidate", jsonOption id candidate),
    ("eligible", .bool entry.eligible),
    ("evidence_id", .str evidenceId),
    ("post_point_count", .int postPointCount),
    ("pre_point_count", .int prePointCount),
    ("relative_scale_floor", .str relativeScaleFloor),
    ("signal_key", .str signalKey)]

/-- `_entries_payload`. -/
def entriesPayload (entries : List (MetricShiftEvidence F)) : Except DomainError (List Json) := do
  let serialized ← entries.mapM entryPayload
  checkOrder (entries.map (·.signalKey.value))
  return serialized

/-- `_ledger_payload`. -/
def ledgerPayload [Sha256] (value : MetricEvidenceLedger F) : Except DomainError Json := do
  let ledger ← replaceError .canonicalSerialization (validateMetricEvidenceLedger value)
  let schemaVersion ← text ledger.schemaVersion
  check (schemaVersion = SCHEMA_VERSION)
  let policy ← policyPayload ledger.policy
  let entries ← entriesPayload ledger.entries
  check (∀ e ∈ ledger.entries,
    FloatHex.hex e.relativeScaleFloor = FloatHex.hex ledger.policy.relativeScaleFloor)
  let decision ← decisionPayload ledger.decision
  let incidentId ← text ledger.incidentId.value
  let incidentWindow ← windowPayload ledger.window
  let runId ← text ledger.runId.value
  let tenantId ← text ledger.tenantId.value
  return jsonObj [
    ("decision", decision),
    ("entries", .arr entries),
    ("incident_id", .str incidentId),
    ("incident_window", incidentWindow),
    ("policy", policy),
    ("run_id", .str runId),
    ("schema_version", .str schemaVersion),
    ("tenant_id", .str tenantId)]

/-- `_baseline_ranking_payload`. -/
def baselineRankingPayload : BaselineResult F → Except DomainError Json
  | .ranking value => do
    let candidates ← value.candidates.mapM candidatePayload
    let lead ← (if isFinite value.lead then some <$> finiteHex value.lead true else return none :
      Except DomainError (Option Str))
    let policy ← policyPayload value.policy
    let secondScore ← optionalFiniteHex (value.candidates[1]?.map (·.suspicionScore)) true
    let top ← orRaise value.candidates[0]? .canonicalSerialization
    let topScore ← finiteHex top.suspicionScore true
    return jsonObj [
      ("abstention_reason", .null),
      ("candidates", .arr candidates),
      ("kind", .str (str "ranking")),
      ("lead", jsonOption .str lead),
      ("policy", policy),
      ("schema_version", .str BASELINE_RANKING_SCHEMA_VERSION),
      ("second_score", jsonOption .str secondScore),
      ("top_score", .str topScore)]
  | .abstention value => do
    let candidates ← value.evaluatedCandidates.mapM candidatePayload
    let policy ← policyPayload value.policy
    let secondScore ← optionalFiniteHex value.secondScore true
    let topScore ← optionalFiniteHex value.topScore true
    return jsonObj [
      ("abstention_reason", .str value.reason.value),
      ("candidates", .arr candidates),
      ("kind", .str (str "abstention")),
      ("lead", .null),
      ("policy", policy),
      ("schema_version", .str BASELINE_RANKING_SCHEMA_VERSION),
      ("second_score", jsonOption .str secondScore),
      ("top_score", jsonOption .str topScore)]

end payloads

/-- `_change_entry_payload`. -/
def changeEntryPayload (entry : ChangeEventEvidence) : Except DomainError Json := do
  let eventKey ← text entry.eventKey.value
  let evidenceId ← evidenceId entry.evidenceId
  return jsonObj [
    ("event_key", .str eventKey),
    ("evidence_id", .str evidenceId),
    ("kind", .str entry.kind.value),
    ("occurred_at", .str (timestamp entry.occurredAt)),
    ("phase", .str entry.phase.value)]

/-- What `_change_entries_payload` orders the entries by. -/
def renderedOrder (entry : ChangeEventEvidence) : Str ×ₗ (Str ×ₗ Str) :=
  toLex (timestamp entry.occurredAt, toLex (entry.kind.value, entry.eventKey.value))

/-- `_change_entries_payload`. -/
def changeEntriesPayload (entries : List ChangeEventEvidence) : Except DomainError (List Json) := do
  let serialized ← entries.mapM changeEntryPayload
  checkOrder (entries.map renderedOrder)
  return serialized

/-- `_change_ledger_payload`. -/
def changeLedgerPayload [Sha256] (value : ChangeEventLedger) : Except DomainError Json := do
  let ledger ← replaceError .canonicalSerialization (validateChangeEventLedger value)
  let schemaVersion ← text ledger.schemaVersion
  check (schemaVersion = ChangeEvidence.SCHEMA_VERSION)
  let entries ← changeEntriesPayload ledger.entries
  let incidentId ← text ledger.incidentId.value
  let incidentWindow ← windowPayload ledger.window
  let runId ← text ledger.runId.value
  let tenantId ← text ledger.tenantId.value
  return jsonObj [
    ("entries", .arr entries),
    ("incident_id", .str incidentId),
    ("incident_window", incidentWindow),
    ("run_id", .str runId),
    ("schema_version", .str schemaVersion),
    ("tenant_id", .str tenantId)]

end Serialization

open Serialization

section documents
variable {F : Type} [PyFloat F] [FloatHex F]

/-- `ledger_json`. -/
def ledgerJson [Sha256] (ledger : MetricEvidenceLedger F) : Except DomainError Str :=
  serialize (ledgerPayload ledger)

/-- `baseline_ranking_json`. -/
def baselineRankingJson (baseline : BaselineResult F) : Except DomainError Str :=
  serialize (baselineRankingPayload baseline)

/-- `metric_evidence_entry_json`. -/
def metricEvidenceEntryJson (entry : MetricShiftEvidence F) : Except DomainError Str :=
  serialize (entryPayload entry)

/-- `change_ledger_json`. -/
def changeLedgerJson [Sha256] (ledger : ChangeEventLedger) : Except DomainError Str :=
  serialize (changeLedgerPayload ledger)

end documents

/-! ### Which values have a payload -/

namespace Serialization

theorem checkOrder_eq_ok {κ : Type} [LinearOrder κ] {keys : List κ} {u : Unit} :
    checkOrder keys = .ok u ↔ keys.Pairwise (· < ·) := by
  unfold checkOrder
  rw [require_eq_ok]
  constructor
  · intro h
    obtain ⟨hsorted, hnodup⟩ := h
    rw [hsorted]
    exact strict_sortedOn (hnodup.map fun _ _ heq => heq)
  · intro h
    exact ⟨(sortedOn_eq_self (h.imp fun hab => le_of_lt hab)).symm, h.imp fun hab => ne_of_lt hab⟩

theorem windowPayload_eq_ok {window : IncidentWindow} {j : Json} :
    windowPayload window = .ok j ↔ window.Valid ∧ j = IncidentEvidence.windowPayload window := by
  simp only [windowPayload, bind_eq_ok, require_eq_ok, pure_eq_ok, exists_const]
  exact Iff.rfl

theorem count_eq_ok {value n : Int} : count value = .ok n ↔ 0 ≤ value ∧ n = value := by
  simp [count, -bind_pure_comp]

theorem signalKey_eq_ok {key : SignalKey} {t : Str} :
    signalKey key = .ok t ↔ TextIdentifier.Valid key ∧ t = key.value :=
  text_eq_ok

theorem signalKeys_eq_ok {keys : List SignalKey} {ts : List Str} :
    signalKeys keys = .ok ts ↔ (∀ k ∈ keys, TextIdentifier.Valid k) ∧
      (keys.map SignalKey.value).Nodup ∧ ts = keys.map SignalKey.value := by
  have hmap : ∀ {l : List Str}, keys.mapM signalKey = .ok l ↔
      (∀ k ∈ keys, TextIdentifier.Valid k) ∧ l = keys.map SignalKey.value :=
    fun {_} => mapM_eq_ok_of fun _ _ _ => signalKey_eq_ok
  simp only [signalKeys, bind_eq_ok, hmap, require_eq_ok, pure_eq_ok]
  constructor
  · rintro ⟨_, ⟨hvalid, rfl⟩, _, hnodup, rfl⟩
    exact ⟨hvalid, hnodup, rfl⟩
  · rintro ⟨hvalid, hnodup, rfl⟩
    exact ⟨_, ⟨hvalid, rfl⟩, (), hnodup, rfl⟩

section characterizations
variable {F : Type} [PyFloat F] [FloatHex F]

theorem finiteHex_eq_ok {value : F} {s : Str} :
    finiteHex value = .ok s ↔ isFinite value = true ∧ s = FloatHex.hex value := by
  simp [finiteHex, -bind_pure_comp]

theorem finiteHex_positive {value : F} {s : Str} : finiteHex value false true = .ok s ↔
    (isFinite value = true ∧ le value zero = false) ∧ s = FloatHex.hex value := by
  simp [finiteHex, -bind_pure_comp, and_assoc]

variable [LawfulPyFloat F]

theorem optionalFiniteHex_eq_ok {value : Option F} {o : Option Str} :
    optionalFiniteHex value true = .ok o ↔
      (∀ x, value = some x → FiniteNonnegative x) ∧ o = value.map FloatHex.hex := by
  cases value with
  | none => simp [optionalFiniteHex]
  | some x =>
    simp only [optionalFiniteHex, map_eq_ok, finiteHex_nonnegative]
    constructor
    · rintro ⟨_, ⟨hx, rfl⟩, rfl⟩
      exact ⟨fun y hy => Option.some.inj hy ▸ hx, rfl⟩
    · rintro ⟨hx, rfl⟩
      exact ⟨_, ⟨hx x rfl, rfl⟩, rfl⟩

omit [PyFloat F] [LawfulPyFloat F] in
theorem jsonOption_hex (value : Option F) :
    jsonOption .str (value.map FloatHex.hex) = jsonOption Identity.hexJson value := by
  cases value <;> rfl

theorem policyPayload_eq_ok {policy : BaselinePolicy F} {j : Json} :
    policyPayload policy = .ok j ↔ policy.Valid ∧ j = Identity.policyPayload policy := by
  simp only [policyPayload, count, bind_eq_ok, finiteHex_nonnegative, require_eq_ok, pure_eq_ok]
  constructor
  · rintro ⟨_, ⟨hmargin, rfl⟩, _, ⟨_, hpoints, rfl⟩, _, ⟨hscore, rfl⟩, _, ⟨hfloor, rfl⟩, rfl⟩
    exact ⟨⟨not_lt.mp hpoints, hscore, hmargin, hfloor⟩, rfl⟩
  · rintro ⟨⟨hpoints, hscore, hmargin, hfloor⟩, rfl⟩
    exact ⟨_, ⟨hmargin, rfl⟩, _, ⟨(), not_lt.mpr hpoints, rfl⟩, _, ⟨hscore, rfl⟩, _,
      ⟨hfloor, rfl⟩, rfl⟩

/-- The decisions `_decision_payload` accepts. -/
structure DecisionWritable (d : MetricShiftDecision F) : Prop where
  kind : d.kind = .ranking ↔ d.abstentionReason = none
  keys : ∀ k ∈ d.candidateSignalKeys, TextIdentifier.Valid k
  distinct : (d.candidateSignalKeys.map SignalKey.value).Nodup
  count : d.eligibleSignalCount = d.candidateSignalKeys.length
  lead : ∀ x, d.lead = some x → FiniteNonnegative x
  secondScore : ∀ x, d.secondScore = some x → FiniteNonnegative x
  topScore : ∀ x, d.topScore = some x → FiniteNonnegative x

theorem decisionPayload_eq_ok {d : MetricShiftDecision F} {j : Json} :
    decisionPayload d = .ok j ↔ DecisionWritable d ∧ j = Identity.decisionPayload d := by
  have hjson : jsonObj [
      ("abstention_reason", jsonOption (fun r => .str r.value) d.abstentionReason),
      ("candidate_signal_keys", texts (d.candidateSignalKeys.map SignalKey.value)),
      ("eligible_signal_count", .int d.eligibleSignalCount), ("kind", .str d.kind.value),
      ("lead", jsonOption .str (d.lead.map FloatHex.hex)),
      ("second_score", jsonOption .str (d.secondScore.map FloatHex.hex)),
      ("top_score", jsonOption .str (d.topScore.map FloatHex.hex))] =
        Identity.decisionPayload d := by
    rw [jsonOption_hex, jsonOption_hex, jsonOption_hex, texts, List.map_map]
    rfl
  simp only [decisionPayload, bind_eq_ok, require_eq_ok, signalKeys_eq_ok, count_eq_ok,
    optionalFiniteHex_eq_ok, pure_eq_ok]
  constructor
  · rintro ⟨_, hkind, _, ⟨hkeys, hdistinct, rfl⟩, _, ⟨-, rfl⟩, _, hcount, _, ⟨hlead, rfl⟩, _,
      ⟨hsecond, rfl⟩, _, ⟨htop, rfl⟩, rfl⟩
    rw [List.length_map] at hcount
    exact ⟨⟨hkind, hkeys, hdistinct, hcount, hlead, hsecond, htop⟩, hjson⟩
  · rintro ⟨⟨hkind, hkeys, hdistinct, hcount, hlead, hsecond, htop⟩, rfl⟩
    refine ⟨(), hkind, _, ⟨hkeys, hdistinct, rfl⟩, _, ⟨?_, rfl⟩, (), ?_, _, ⟨hlead, rfl⟩, _,
      ⟨hsecond, rfl⟩, _, ⟨htop, rfl⟩, hjson.symm⟩
    · rw [hcount]
      exact Int.natCast_nonneg _
    · rw [List.length_map]
      exact hcount

/-- The candidates `_candidate_payload` accepts. -/
structure CandidateWritable (c : SuspicionCandidate F) : Prop where
  absoluteFloor : isFinite c.absoluteScaleFloor = true ∧ le c.absoluteScaleFloor zero = false
  postMedian : isFinite c.postMedian = true
  postCount : 0 ≤ c.postPointCount
  preMad : FiniteNonnegative c.preMad
  preMedian : isFinite c.preMedian = true
  preCount : 0 ≤ c.prePointCount
  relativeFloor : FiniteNonnegative c.relativeScaleFloor
  scale : isFinite c.scale = true ∧ le c.scale zero = false
  key : TextIdentifier.Valid c.signalKey
  signedScore : isFinite c.signedScore = true
  suspicionScore : FiniteNonnegative c.suspicionScore

theorem candidatePayload_eq_ok {c : SuspicionCandidate F} {j : Json} :
    candidatePayload c = .ok j ↔ CandidateWritable c ∧ j = Identity.candidatePayload c := by
  simp only [candidatePayload, bind_eq_ok, finiteHex_eq_ok, finiteHex_nonnegative,
    finiteHex_positive, count_eq_ok, signalKey_eq_ok, pure_eq_ok]
  constructor
  · rintro ⟨_, ⟨h1, rfl⟩, _, ⟨h2, rfl⟩, _, ⟨h3, rfl⟩, _, ⟨h4, rfl⟩, _, ⟨h5, rfl⟩, _, ⟨h6, rfl⟩, _,
      ⟨h7, rfl⟩, _, ⟨h8, rfl⟩, _, ⟨h9, rfl⟩, _, ⟨h10, rfl⟩, _, ⟨h11, rfl⟩, rfl⟩
    exact ⟨⟨h1, h2, h3, h4, h5, h6, h7, h8, h9, h10, h11⟩, rfl⟩
  · rintro ⟨⟨h1, h2, h3, h4, h5, h6, h7, h8, h9, h10, h11⟩, rfl⟩
    exact ⟨_, ⟨h1, rfl⟩, _, ⟨h2, rfl⟩, _, ⟨h3, rfl⟩, _, ⟨h4, rfl⟩, _, ⟨h5, rfl⟩, _, ⟨h6, rfl⟩, _,
      ⟨h7, rfl⟩, _, ⟨h8, rfl⟩, _, ⟨h9, rfl⟩, _, ⟨h10, rfl⟩, _, ⟨h11, rfl⟩, rfl⟩

theorem optionalCandidate_eq_ok {c : Option (SuspicionCandidate F)} {o : Option Json} :
    optionalCandidate c = .ok o ↔
      (∀ x, c = some x → CandidateWritable x) ∧ o = c.map Identity.candidatePayload := by
  cases c with
  | none => simp [optionalCandidate]
  | some x =>
    simp only [optionalCandidate, map_eq_ok, candidatePayload_eq_ok]
    constructor
    · rintro ⟨_, ⟨hx, rfl⟩, rfl⟩
      exact ⟨fun y hy => Option.some.inj hy ▸ hx, rfl⟩
    · rintro ⟨hx, rfl⟩
      exact ⟨_, ⟨hx x rfl, rfl⟩, rfl⟩

/-- The entries `_entry_payload` accepts. -/
structure EntryWritable (e : MetricShiftEvidence F) : Prop where
  candidate : ∀ c, e.candidate = some c → CandidateWritable c
  key : TextIdentifier.Valid e.signalKey
  preCount : 0 ≤ e.prePointCount
  postCount : 0 ≤ e.postPointCount
  absoluteFloor : isFinite e.absoluteScaleFloor = true ∧ le e.absoluteScaleFloor zero = false
  relativeFloor : FiniteNonnegative e.relativeScaleFloor
  eligible : e.eligible = e.candidate.isSome
  fits : ∀ c ∈ e.candidate, candidateFits c e.signalKey.value e.prePointCount e.postPointCount
    (FloatHex.hex e.absoluteScaleFloor) (FloatHex.hex e.relativeScaleFloor)
  evidenceId : wellFormedId e.evidenceId.value = true

/-- The document of an entry. -/
def entryJson (e : MetricShiftEvidence F) : Json :=
  jsonObj [
    ("absolute_scale_floor", Identity.hexJson e.absoluteScaleFloor),
    ("candidate", jsonOption Identity.candidatePayload e.candidate),
    ("eligible", .bool e.eligible),
    ("evidence_id", .str e.evidenceId.value),
    ("post_point_count", .int e.postPointCount),
    ("pre_point_count", .int e.prePointCount),
    ("relative_scale_floor", Identity.hexJson e.relativeScaleFloor),
    ("signal_key", .str e.signalKey.value)]

theorem entryPayload_eq_ok {e : MetricShiftEvidence F} {j : Json} :
    entryPayload e = .ok j ↔ EntryWritable e ∧ j = entryJson e := by
  have hcandidate : jsonOption id (e.candidate.map Identity.candidatePayload) =
      jsonOption Identity.candidatePayload e.candidate := by
    cases e.candidate <;> rfl
  simp only [entryPayload, bind_eq_ok, optionalCandidate_eq_ok, signalKey_eq_ok, count_eq_ok,
    finiteHex_positive, finiteHex_nonnegative, require_eq_ok, evidenceId_eq_ok, pure_eq_ok]
  constructor
  · rintro ⟨_, ⟨h1, rfl⟩, _, ⟨h2, rfl⟩, _, ⟨h3, rfl⟩, _, ⟨h4, rfl⟩, _, ⟨h5, rfl⟩, _, ⟨h6, rfl⟩, _,
      h7, _, h8, _, ⟨h9, rfl⟩, rfl⟩
    rw [Option.isSome_map] at h7
    exact ⟨⟨h1, h2, h3, h4, h5, h6, h7, h8, h9⟩, by rw [hcandidate]; rfl⟩
  · rintro ⟨⟨h1, h2, h3, h4, h5, h6, h7, h8, h9⟩, rfl⟩
    refine ⟨_, ⟨h1, rfl⟩, _, ⟨h2, rfl⟩, _, ⟨h3, rfl⟩, _, ⟨h4, rfl⟩, _, ⟨h5, rfl⟩, _, ⟨h6, rfl⟩, (),
      ?_, (), h8, _, ⟨h9, rfl⟩, by rw [hcandidate]; rfl⟩
    rw [Option.isSome_map]
    exact h7

theorem entriesPayload_eq_ok {entries : List (MetricShiftEvidence F)} {js : List Json} :
    entriesPayload entries = .ok js ↔ (∀ e ∈ entries, EntryWritable e) ∧
      (entries.map (·.signalKey.value)).Pairwise (· < ·) ∧ js = entries.map entryJson := by
  have hmap : ∀ {l : List Json}, entries.mapM entryPayload = .ok l ↔
      (∀ e ∈ entries, EntryWritable e) ∧ l = entries.map entryJson :=
    fun {_} => mapM_eq_ok_of fun _ _ _ => entryPayload_eq_ok
  simp only [entriesPayload, bind_eq_ok, hmap, checkOrder_eq_ok, pure_eq_ok]
  constructor
  · rintro ⟨_, ⟨hall, rfl⟩, _, hkeys, rfl⟩
    exact ⟨hall, hkeys, rfl⟩
  · rintro ⟨hall, hkeys, rfl⟩
    exact ⟨_, ⟨hall, rfl⟩, (), hkeys, rfl⟩

end characterizations

end Serialization

end IncidentEvidence
