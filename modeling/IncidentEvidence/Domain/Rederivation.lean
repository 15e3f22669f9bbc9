import IncidentEvidence.Domain.CanonicalLedgers
import IncidentEvidence.Domain.ChangeVerdicts
import IncidentEvidence.Py.JsonMembers

/-! # Identifiers re-derived from the published JSON

    `_identity._entry_payload` and `serialization._ledger_payload` are written
    apart from one another. An entry object of a ledger document, without its
    `evidence_id` and with the ledger-level members of the same document, encodes
    to the bytes that were hashed for the entry (`ids_rederivable`).
-/

namespace IncidentEvidence

open Py PyFloat Serialization

/-! ### Re-derivation -/

/-- The entry object without its identifier, with ledger-level members of its document. -/
def rederived (levels : List String) (document object : Json) : Json :=
  (object.without "evidence_id").withMembers document levels

/-- The ledger-level members that a metric identifier commits to. -/
def metricLevels : List String :=
  ["decision", "incident_id", "incident_window", "policy", "run_id", "schema_version", "tenant_id"]

/-- The ledger-level members that a change identifier commits to. -/
def changeLevels : List String :=
  ["incident_id", "incident_window", "run_id", "schema_version", "tenant_id"]

/-- The identifier in an entry object is the hash of what is re-derived from the document,
    which is what was hashed for the entry. -/
structure Rederives [Sha256] (domain : List UInt8) (levels : List String) (document object : Json)
    (payload : Json) (id : EvidenceId) : Prop where
  member : object.get "evidence_id" = some (.str id.value)
  hashed : ∃ canonical, encodeUtf8 (dumps (rederived levels document object)) = some canonical ∧
    contentMessage domain payload = some (domain ++ canonical) ∧
    id = ⟨str "sha256:" ++ (Sha256.digest (domain ++ canonical)).hex⟩

/-- Texts that encode the same canonical bytes. -/
theorem rederives_of_dumps [Sha256] {domain : List UInt8} {levels : List String}
    {document object payload : Json} {id : EvidenceId}
    (hmember : object.get "evidence_id" = some (.str id.value))
    (hdumps : dumps (rederived levels document object) = dumps payload)
    (hid : contentId domain payload = some id) :
    Rederives domain levels document object payload id := by
  obtain ⟨m, hm, rfl⟩ := Option.map_eq_some_iff.mp hid
  obtain ⟨-, canonical, hcanonical, rfl⟩ := contentMessage_eq_some.mp hm
  exact ⟨hmember, canonical, by rw [hdumps]; exact hcanonical, hm, rfl⟩

/-! ### Metric ledgers -/

section metric
variable {F : Type} [FloatHex F]

/-- **The two encoders agree on every field of a metric entry.** -/
theorem dumps_rederived {l : MetricEvidenceLedger F} {e : MetricShiftEvidence F}
    (hschema : l.schemaVersion = SCHEMA_VERSION)
    (hfloor : e.relativeScaleFloor = l.policy.relativeScaleFloor) :
    dumps (rederived metricLevels (ledgerDocument l) (entryJson e)) =
      dumps (l.payload e.evaluation) := by
  have hfields : rederived metricLevels (ledgerDocument l) (entryJson e) = jsonObj [
      ("absolute_scale_floor", Identity.hexJson e.absoluteScaleFloor),
      ("candidate", jsonOption Identity.candidatePayload e.candidate),
      ("eligible", .bool e.eligible),
      ("post_point_count", .int e.postPointCount),
      ("pre_point_count", .int e.prePointCount),
      ("relative_scale_floor", Identity.hexJson l.policy.relativeScaleFloor),
      ("signal_key", .str e.signalKey.value),
      ("decision", Identity.decisionPayload l.decision),
      ("incident_id", .str l.incidentId.value),
      ("incident_window", windowPayload l.window),
      ("policy", Identity.policyPayload l.policy),
      ("run_id", .str l.runId.value),
      ("schema_version", .str SCHEMA_VERSION),
      ("tenant_id", .str l.tenantId.value)] := by
    simp [rederived, metricLevels, ledgerDocument, entryJson, hschema, hfloor, Json.without,
      Json.withMembers, Json.get, Json.fields, jsonObj]
  rw [hfields]
  -- where the members of the payload stand among those
  have hpositions : [0, 1, 7, 2, 8, 9, 10, 3, 4, 5, 11, 12, 6, 13].Perm (List.range 14) := by decide
  refine dumps_jsonObj_perm (@perm_of_positions _ _ ("", Json.null) [0, 1, 7, 2, 8, 9, 10, 3, 4, 5, 11, 12, 6, 13]
    ?_).symm ?_
  · exact hpositions
  · simp only [List.map_cons, List.map_nil]
    decide

variable [PyFloat F] [LawfulPyFloat F] [Sha256]

/-- A ledger with a document is accepted, and the document is that of what the validator
    returns. -/
theorem ledgerJson_document {l m : MetricEvidenceLedger F} {s : Str}
    (hvalid : validateMetricEvidenceLedger l = .ok m) (hs : ledgerJson l = .ok s) :
    s = dumps (ledgerDocument m) ++ str "\n" := by
  obtain ⟨j, hj, -, rfl⟩ := serialize_text hs
  simp only [ledgerPayload, bind_eq_ok, replaceError_eq_ok, hvalid, Except.ok.injEq, text_eq_ok,
    require_eq_ok, policyPayload_eq_ok, entriesPayload_eq_ok, decisionPayload_eq_ok,
    windowPayload_eq_ok, pure_eq_ok] at hj
  obtain ⟨_, rfl, _, ⟨-, rfl⟩, _, -, _, ⟨-, rfl⟩, _, ⟨-, -, rfl⟩, _, -, _, ⟨-, rfl⟩, _, ⟨-, rfl⟩, _,
    ⟨-, rfl⟩, _, ⟨-, rfl⟩, _, ⟨-, rfl⟩, rfl⟩ := hj
  rfl

/-- Every metric identifier is re-derived from the document. -/
theorem metric_rederives {l m : MetricEvidenceLedger F}
    (hvalid : validateMetricEvidenceLedger l = .ok m) {e : MetricShiftEvidence F}
    (he : e ∈ m.entries) : Rederives Identity.idDomain metricLevels (ledgerDocument m) (entryJson e)
      (m.payload e.evaluation) e.evidenceId := by
  obtain ⟨haccepted, rfl⟩ := validate_eq_ok.mp hvalid
  obtain ⟨e', he', rfl⟩ := List.mem_map.mp he
  refine rederives_of_dumps ?_ (dumps_rederived haccepted.schemaVersion rfl) (haccepted.ids e' he')
  simp [entryJson, Json.get, Json.fields, jsonObj]

end metric

/-! ### Change ledgers -/

/-- **The two encoders agree on every field of a change entry.** -/
theorem dumps_rederived_change {l : ChangeEventLedger} {e : ChangeEventEvidence}
    (hschema : l.schemaVersion = ChangeEvidence.SCHEMA_VERSION) :
    dumps (rederived changeLevels (changeLedgerDocument l) (changeEntryJson e)) =
      dumps (l.payload e) := by
  have hfields : rederived changeLevels (changeLedgerDocument l) (changeEntryJson e) = jsonObj [
      ("event_key", .str e.eventKey.value),
      ("kind", .str e.kind.value),
      ("occurred_at", .str (timestamp e.occurredAt)),
      ("phase", .str e.phase.value),
      ("incident_id", .str l.incidentId.value),
      ("incident_window", windowPayload l.window),
      ("run_id", .str l.runId.value),
      ("schema_version", .str ChangeEvidence.SCHEMA_VERSION),
      ("tenant_id", .str l.tenantId.value)] := by
    simp [rederived, changeLevels, changeLedgerDocument, changeEntryJson, hschema, Json.without,
      Json.withMembers, Json.get, Json.fields, jsonObj]
  rw [hfields]
  have hpositions : [0, 4, 5, 1, 2, 3, 6, 7, 8].Perm (List.range 9) := by decide
  refine dumps_jsonObj_perm (@perm_of_positions _ _ ("", Json.null) [0, 4, 5, 1, 2, 3, 6, 7, 8]
    ?_).symm ?_
  · exact hpositions
  · simp only [List.map_cons, List.map_nil]
    decide

section change
variable [Sha256]

theorem changeLedgerJson_document {l m : ChangeEventLedger} {s : Str}
    (hvalid : validateChangeEventLedger l = .ok m) (hs : changeLedgerJson l = .ok s) :
    s = dumps (changeLedgerDocument m) ++ str "\n" := by
  obtain ⟨haccepted, rfl⟩ := validateChange_eq_ok.mp hvalid
  obtain ⟨j, hj, -, rfl⟩ := serialize_text hs
  rw [changeLedgerPayload_of_accepted haccepted] at hj
  rw [← Except.ok.inj hj]

theorem change_rederives {l m : ChangeEventLedger}
    (hvalid : validateChangeEventLedger l = .ok m) {e : ChangeEventEvidence} (he : e ∈ m.entries) :
    Rederives ChangeEvidence.idDomain changeLevels (changeLedgerDocument m) (changeEntryJson e)
      (m.payload e) e.evidenceId := by
  obtain ⟨haccepted, rfl⟩ := validateChange_eq_ok.mp hvalid
  refine rederives_of_dumps ?_ (dumps_rederived_change haccepted.schemaVersion)
    (haccepted.ids e he)
  simp [changeEntryJson, Json.get, Json.fields, jsonObj]

end change

/-! ### Both documents -/

/-- **Identifiers are re-derived from the published JSON alone.** The text of a ledger
    document encodes one document only, and each of its entry objects, without its
    identifier and with the ledger-level members of that document, encodes to the bytes
    that were hashed for the entry. -/
theorem ids_rederivable {F : Type} [PyFloat F] [LawfulPyFloat F] [FloatHex F] [Sha256] :
    (∀ (l m : MetricEvidenceLedger F) s, validateMetricEvidenceLedger l = .ok m →
      ledgerJson l = .ok s → ∃ document objects, Encodes s document ∧
        (∀ document', Encodes s document' → document' = document) ∧
        document.get "entries" = some (.arr objects) ∧
        List.Forall₂ (fun e object => Rederives Identity.idDomain metricLevels document object
          (m.payload e.evaluation) e.evidenceId) m.entries objects) ∧
    (∀ (l m : ChangeEventLedger) s, validateChangeEventLedger l = .ok m →
      changeLedgerJson l = .ok s → ∃ document objects, Encodes s document ∧
        (∀ document', Encodes s document' → document' = document) ∧
        document.get "entries" = some (.arr objects) ∧
        List.Forall₂ (fun e object => Rederives ChangeEvidence.idDomain changeLevels document object
          (m.payload e) e.evidenceId) m.entries objects) := by
  constructor
  · intro l m s hvalid hs
    have hencodes : Encodes s (ledgerDocument m) :=
      ⟨canonical_ledgerDocument m, ledgerJson_document hvalid hs⟩
    refine ⟨ledgerDocument m, m.entries.map entryJson, hencodes, fun _ h => hencodes.unique h, ?_, ?_⟩
    · simp [ledgerDocument, Json.get, Json.fields, jsonObj]
    · simp only [List.forall₂_map_right_iff, List.forall₂_same]
      exact fun e he => metric_rederives hvalid he
  · intro l m s hvalid hs
    have hencodes : Encodes s (changeLedgerDocument m) :=
      ⟨canonical_changeLedgerDocument m, changeLedgerJson_document hvalid hs⟩
    refine ⟨changeLedgerDocument m, m.entries.map changeEntryJson, hencodes,
      fun _ h => hencodes.unique h, ?_, ?_⟩
    · simp [changeLedgerDocument, Json.get, Json.fields, jsonObj]
    · simp only [List.forall₂_map_right_iff, List.forall₂_same]
      exact fun e he => change_rederives hvalid he

open Demo in
/-- An entry of the small incident, and one of its two deployments. -/
theorem ids_rederivable_demo :
    (∃ (l : MetricEvidenceLedger ExactFloat) (s : Str), ledgerJson l = .ok s ∧
      ∃ document object, Encodes s document ∧ ∃ e ∈ l.entries, Rederives Identity.idDomain
        metricLevels document object (l.payload e.evaluation) e.evidenceId) ∧
    ∃ (l : ChangeEventLedger) (s : Str), changeLedgerJson l = .ok s ∧
      ∃ document object, Encodes s document ∧ ∃ e ∈ l.entries, Rederives ChangeEvidence.idDomain
        changeLevels document object (l.payload e) e.evidenceId := by
  have hwindow : window.Valid := by decide
  obtain ⟨hmetric, hchange⟩ := ids_rederivable (F := ExactFloat)
  constructor
  · obtain ⟨result, hrank⟩ := exists_rank window [latency, errors] policy_ok (by decide)
    obtain ⟨l, s, hl, hs⟩ := exists_ledgerJson tenant_ok incident_ok run_ok hwindow policy_ok keys_ok
      (by decide) two_lt_limit hrank
    obtain ⟨hvalid, -, -, -, -, -, hevaluations⟩ := compile_eq_ok hl
    obtain ⟨document, objects, hencodes, -, -, hforall⟩ := hmetric l l s hvalid hs
    obtain ⟨e, he⟩ : ∃ e, e ∈ l.entries := by
      apply List.exists_mem_of_length_pos
      have hlength := congrArg List.length hevaluations
      have hperm := (rank_evaluations hrank).1.keys.length_eq
      rw [(perm_sortedOn _ _).length_eq] at hlength
      simp only [MetricEvidenceLedger.evaluations, List.length_map] at hlength hperm
      simp [hlength, hperm]
    obtain ⟨k, hk, rfl⟩ := List.getElem_of_mem he
    exact ⟨l, s, hs, document, _, hencodes, _, he, hforall.get hk (hforall.length_eq ▸ hk)⟩
  · have hlog : ChangeEventLog.construct deployments = .ok ⟨sortedOn orderKey deployments⟩ :=
      construct_eq_ok.mpr ⟨by decide, by decide, rfl⟩
    obtain ⟨l, s, hl, hs⟩ := exists_changeLedgerJson tenant_ok incident_ok run_ok hwindow
      deployments_ok hlog
    obtain ⟨-, -, haccepted, -, -, -, -, hmap⟩ := compileChange_eq_ok.mp hl
    obtain ⟨document, objects, hencodes, -, -, hforall⟩ :=
      hchange l l s (validateChange_eq_ok.mpr ⟨haccepted, rfl⟩) hs
    obtain ⟨e, he⟩ : ∃ e, e ∈ l.entries := by
      apply List.exists_mem_of_length_pos
      have hlength := congrArg List.length hmap
      rw [(perm_sortedOn _ _).length_eq, (perm_sortedOn _ _).length_eq, List.length_map] at hlength
      rw [hlength]
      decide
    obtain ⟨k, hk, rfl⟩ := List.getElem_of_mem he
    exact ⟨l, s, hs, document, _, hencodes, _, he, hforall.get hk (hforall.length_eq ▸ hk)⟩

end IncidentEvidence
