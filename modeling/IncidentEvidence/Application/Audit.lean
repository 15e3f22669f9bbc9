import IncidentEvidence.Application.EvidenceListing
import IncidentEvidence.Domain.BaselineJson

/-! # Auditing an investigation from its rows

    The id of an evidence row is a hash of the whole run context, the policy, the
    decision and the evaluation. `Audit.payload` puts that together again from stored
    rows alone: the row of the investigation, the baseline document beside its report
    and the evidence row. Its canonical JSON hashes to the id of the row
    (`investigation_audited`).
-/

namespace IncidentEvidence

open Py PyFloat Runs Serialization Decisions Parsing

/-! ### What is rebuilt from the rows -/

namespace Audit

/-- A member of an object. -/
def field (j : Json) (key : String) : Json := (j.get key).getD .null

/-- The elements of an array. -/
def elements : Json → List Json
  | .arr js => js
  | _ => []

/-- The text of a `signal_key`. -/
def keyOf (candidate : Json) : Option Str :=
  match field candidate "signal_key" with
  | .str s => some s
  | _ => none

/-- The candidates of a baseline document. -/
def candidates (baseline : Json) : List Json := elements (field baseline "candidates")

/-- The decision, from a baseline document. -/
def decision (baseline : Json) : Json :=
  jsonObj [
    ("abstention_reason", field baseline "abstention_reason"),
    ("candidate_signal_keys", .arr ((candidates baseline).map fun c => field c "signal_key")),
    ("eligible_signal_count", .int (candidates baseline).length),
    ("kind", field baseline "kind"),
    ("lead", field baseline "lead"),
    ("second_score", field baseline "second_score"),
    ("top_score", field baseline "top_score")]

/-- What the row of an investigation and its baseline document say for all entries. -/
def context (investigation : InvestigationRecord) (schemaVersion : Str) (baseline : Json) : Json :=
  jsonObj [
    ("decision", decision baseline),
    ("incident_id", .str investigation.incident.value),
    ("incident_window", windowPayload investigation.window),
    ("policy", field baseline "policy"),
    ("run_id", .str investigation.run.value),
    ("schema_version", .str schemaVersion),
    ("tenant_id", .str investigation.tenant.value)]

/-- The payload of an entry: the object of its row without the id, and the context. -/
def payload (investigation : InvestigationRecord) (schemaVersion : Str) (baseline object : Json) : Json :=
  rederived metricLevels (context investigation schemaVersion baseline) object

/-- The candidate of a baseline document with the key of an entry. -/
def candidateOf (baseline object : Json) : Json :=
  ((candidates baseline).find? fun c => keyOf c = keyOf object).getD .null

end Audit

/-- The row of an evidence entry is audited from the row of an investigation and the baseline
    document beside its report. Both texts encode one document only. -/
structure Audited [Sha256] (i : InvestigationRecord) (baselinePayload : Text) (row : EvidenceRecord) :
    Prop where
  audited : ∃ baseline object canonical, Encodes baselinePayload.1 baseline ∧
    Encodes row.payload.1 object ∧ object.get "evidence_id" = some (.str row.evidenceId.value) ∧
    encodeUtf8 (dumps (Audit.payload i row.schemaVersion.1 baseline object)) = some canonical ∧
    row.evidenceId = ⟨str "sha256:" ++ (Sha256.digest (Identity.idDomain ++ canonical)).hex⟩ ∧
    Audit.field object "candidate" = Audit.candidateOf baseline object

/-! ### The documents -/

section documents
variable {F : Type} [FloatHex F]

@[simp] theorem keyOf_candidatePayload (c : SuspicionCandidate F) :
    Audit.keyOf (Identity.candidatePayload c) = some c.signalKey.value := by
  simp [Audit.keyOf, Audit.field, Identity.candidatePayload, Json.get, Json.fields, jsonObj]

@[simp] theorem keyOf_entryJson (e : MetricShiftEvidence F) :
    Audit.keyOf (entryJson e) = some e.signalKey.value := by
  simp [Audit.keyOf, Audit.field, entryJson, Json.get, Json.fields, jsonObj]

theorem candidates_baselineDocument (policy : BaselinePolicy F)
    (candidates : List (SuspicionCandidate F)) (decision : MetricShiftDecision F) :
    Audit.candidates (baselineDocument policy candidates decision) =
      candidates.map Identity.candidatePayload := by
  simp [Audit.candidates, Audit.elements, Audit.field, baselineDocument, Json.get, Json.fields, jsonObj]

/-- The decision is rebuilt from the baseline document. -/
theorem decision_baselineDocument [PyFloat F] (policy : BaselinePolicy F)
    (candidates : List (SuspicionCandidate F)) :
    Audit.decision (baselineDocument policy candidates (expectedDecision policy candidates)) =
      Identity.decisionPayload (expectedDecision policy candidates) := by
  have hkeys : (Audit.candidates (baselineDocument policy candidates
      (expectedDecision policy candidates))).map (fun c => Audit.field c "signal_key") =
      candidates.map fun c => .str c.signalKey.value := by
    rw [candidates_baselineDocument, List.map_map]
    apply List.map_congr_left
    intro c _
    simp [Audit.field, Identity.candidatePayload, Json.get, Json.fields, jsonObj]
  unfold Audit.decision
  rw [hkeys, candidates_baselineDocument]
  simp [Audit.field, baselineDocument, Json.get, Json.fields, jsonObj, Identity.decisionPayload,
    expectedDecision]

/-- The candidate of an entry is found by its key. -/
theorem candidateOf_baselineDocument (policy : BaselinePolicy F)
    (candidates : List (SuspicionCandidate F)) (decision : MetricShiftDecision F)
    (e : MetricShiftEvidence F)
    (hfind : candidates.find? (fun c => c.signalKey.value = e.signalKey.value) = e.candidate) :
    Audit.candidateOf (baselineDocument policy candidates decision) (entryJson e) =
      Audit.field (entryJson e) "candidate" := by
  have hfield : Audit.field (entryJson e) "candidate" =
      jsonOption Identity.candidatePayload e.candidate := by
    simp [Audit.field, entryJson, Json.get, Json.fields, jsonObj]
  unfold Audit.candidateOf
  rw [candidates_baselineDocument, List.find?_map, hfield]
  simp only [Function.comp_def, keyOf_candidatePayload, keyOf_entryJson, Option.some.injEq, hfind]
  cases e.candidate <;> rfl

/-- The context of the rows is that of the ledger's document. -/
theorem payload_eq_rederived {i : InvestigationRecord} {l : MetricEvidenceLedger F} {baseline object : Json}
    (htenant : l.tenantId = i.tenant) (hincident : l.incidentId = i.incident) (hrun : l.runId = i.run)
    (hwindow : l.window = i.window) (hdecision : Audit.decision baseline = Identity.decisionPayload l.decision)
    (hpolicy : Audit.field baseline "policy" = Identity.policyPayload l.policy) :
    Audit.payload i l.schemaVersion baseline object =
      rederived metricLevels (ledgerDocument l) object := by
  unfold Audit.payload rederived
  simp [Audit.context, metricLevels, ledgerDocument, Json.withMembers, Json.get, Json.fields, jsonObj,
    htenant, hincident, hrun, hwindow, hdecision, hpolicy]

end documents

/-! ### Rows of a ledger -/

section rows
variable {F : Type} [PyFloat F] [LawfulPyFloat F] [InfinitePyFloat F] [FloatHex F] [Sha256]

/-- **The row of an entry is audited**, whichever investigation it was written for. -/
theorem audited_of_entry {i j : InvestigationRecord} {p : Provenance F} {r : ReportRecord}
    (hgrounds : Grounds i p r) {t : Text} (ht : r.baselinePayload = some t)
    {e : MetricShiftEvidence F} (he : e ∈ p.ledger.entries) {now : Datetime} {row : EvidenceRecord}
    (hrow : RowOf j now e row) : Audited i t row := by
  obtain ⟨policy, inputs, hrank⟩ := hgrounds.ranked
  obtain ⟨hevals, hbaseline⟩ := rank_evaluations hrank
  have hcompiled := hgrounds.compiled
  obtain ⟨hvalid, htenant, hincident, hrun, hwindow, -⟩ := compile_eq_ok hcompiled
  obtain ⟨haccepted, hnormalized⟩ := validate_eq_ok.mp hvalid
  rw [hbaseline] at hcompiled
  obtain ⟨hevaluations, hpolicy, hdecision⟩ := decision_of_compile hevals.increasing hcompiled
  have hok : ∀ e ∈ p.baseline.signalEvaluations, EvaluationOk policy e := by
    rw [← hevaluations, ← hpolicy]
    exact haccepted.evaluationOk
  -- the two texts
  obtain ⟨t', ht', hwritten⟩ := hgrounds.baselinePayload
  obtain rfl := Option.some.inj (ht.symm.trans ht')
  obtain ⟨document, hdocument, -, htext⟩ := serialize_text hwritten
  rw [hbaseline] at hdocument
  obtain rfl := baselinePayload_of_rank (rankedOk hok) hdocument
  obtain ⟨object, hobject, -, hrowText⟩ := serialize_text hrow.1
  obtain ⟨-, rfl⟩ := entryPayload_eq_ok.mp hobject
  have hschema : row.schemaVersion.1 = p.ledger.schemaVersion := by
    rw [hrow.2, haccepted.schemaVersion]
  have hid : row.evidenceId = e.evidenceId := by rw [hrow.2]
  -- the payload of the rows is what was hashed
  have hdumps : dumps (Audit.payload i row.schemaVersion.1 (baselineDocument policy
      (rankedCandidates p.baseline.signalEvaluations)
      (expectedDecision policy (rankedCandidates p.baseline.signalEvaluations))) (entryJson e)) =
      dumps (p.ledger.payload e.evaluation) := by
    rw [hschema, payload_eq_rederived htenant hincident hrun hwindow]
    · exact dumps_rederived haccepted.schemaVersion (floor_of_normalized hnormalized he)
    · rw [decision_baselineDocument, hdecision]
    · rw [hpolicy]
      simp [Audit.field, baselineDocument, Json.get, Json.fields, jsonObj]
  have hmember : (entryJson e).get "evidence_id" = some (.str e.evidenceId.value) := by
    simp [entryJson, Json.get, Json.fields, jsonObj]
  have hhashed : contentId Identity.idDomain (p.ledger.payload e.evaluation) = some e.evidenceId := by
    have hids := haccepted.ids e he
    rwa [← hnormalized] at hids
  obtain ⟨canonical, hcanonical, -, hdigest⟩ := (rederives_of_dumps hmember hdumps hhashed).hashed
  refine ⟨_, entryJson e, canonical, ⟨canonical_baselineDocument _ _ _, htext⟩,
    ⟨canonical_entryJson e, hrowText⟩, ?_, hcanonical, ?_, ?_⟩
  · rw [hid]
    exact hmember
  · rw [hid]
    exact hdigest
  · have hmem : e.evaluation ∈ p.baseline.signalEvaluations := by
      rw [← hevaluations]
      exact List.mem_map_of_mem he
    have hfind := find_candidate hok (hevals.increasing.imp fun hab => ne_of_lt hab) hmem
    exact (candidateOf_baselineDocument _ _ _ e hfind).symm

end rows

/-- **A stored investigation is audited from its own rows**, as long as the messages hashed for
    the stored reports do not collide. In every committed store of a run, take an investigation
    that has succeeded, and an evidence row that is listed for it or has the tenant, the run and
    an id its report cites: the context of the investigation's row, the policy and the decision
    of the baseline document beside its report, and the row's own object give a payload whose
    canonical JSON hashes to the id of the row, and the row has the candidate that the baseline
    document has under its key. -/
theorem investigation_audited {F : Type} [PyFloat F] [LawfulPyFloat F] [InfinitePyFloat F]
    [FloatHex F] [LawfulFloatHex F] [Sha256] {s : Service F} (h : Reachable (Service.system F) s)
    (hfree : CollisionFree s.committed.hashed) {i : InvestigationRecord}
    (hi : i ∈ s.committed.store.investigations.values) (hstatus : i.status = .succeeded) :
    ∃ p r t, s.committed.store.reports.get? i.investigationId.value = some r ∧
      r.baselinePayload = some t ∧ s.committed.provenance.get? i.investigationId.value = some p ∧
      Grounds i p r ∧
      (∀ row ∈ EvidenceRepository.listForInvestigation s.committed.store i.tenant i.investigationId,
        Audited i t row) ∧
      ∀ id ∈ citations p.verification, ∃ row,
        s.committed.store.evidence.get? (i.tenant.value, i.run.value, id.value) = some row ∧
        Audited i t row := by
  obtain ⟨hlife, harchived⟩ := archived_reachable h
  have hget := hlife.investigationsKeyed.get?_of_mem hi
  obtain ⟨p, r, hp, hr, hgrounds⟩ := harchived.of_succeeded hlife hget hstatus
  obtain ⟨t, ht, -⟩ := hgrounds.baselinePayload
  refine ⟨p, r, t, hr, ht, hp, hgrounds, ?_, ?_⟩
  · intro row hrow
    obtain ⟨hrowGet, -, hrowId⟩ := (mem_listForInvestigation harchived.keyed).mp hrow
    obtain ⟨j, q, e, now, hj, hq, he, hof⟩ := harchived.sourced _ row hrowGet
    rw [hrowId, hp] at hq
    obtain rfl := Option.some.inj hq
    exact audited_of_entry hgrounds ht he hof
  · intro id hid
    obtain ⟨e, he, rfl⟩ := cited_entry hgrounds.verified hid
    obtain ⟨row, j, now, hrow, -, hof, -⟩ := harchived.row hfree hget hp he
    exact ⟨row, hrow, audited_of_entry hgrounds ht he hof⟩

open Demo in
/-- The investigation of the demonstration, and a row that is listed for it. -/
theorem investigation_audited_demo : ∃ i t row,
    i ∈ succeededService.committed.store.investigations.values ∧
    row ∈ EvidenceRepository.listForInvestigation succeededService.committed.store i.tenant
      i.investigationId ∧ Audited i t row := by
  obtain ⟨p, r, hstep, hmade, hr, hprovenance⟩ := succeededService_step
  obtain ⟨hlife, harchived⟩ := archived_reachable succeededService_reachable
  obtain ⟨i, q, hi, hq, -⟩ := harchived.grounded _ r hr
  have hmem := Dict.mem_values.mpr ⟨_, hi⟩
  have hstatus := succeeded_of_report hlife hi hr
  obtain ⟨_, _, t, -, -, -, -, hlisted, -⟩ := investigation_audited succeededService_reachable
    succeededService_collisionFree hmem hstatus
  -- the one entry of the ledger is listed, since nothing was stored before
  obtain ⟨e, he⟩ := List.length_eq_one_iff.mp (length_entries rfl hmade)
  rw [hprovenance, Dict.get?_set_self] at hq
  obtain rfl := Option.some.inj hq
  obtain ⟨hlifeC, harchivedC⟩ := archived_reachable createdService_reachable
  have hlisting := listing_of_run hlifeC harchivedC hstep (.nil _) (by decide +kernel) hr hi
    (by rw [hprovenance]; exact Dict.get?_set_self _ _ _)
  have hnew : ¬ Stored createdService.committed.store i e := by
    have hempty : createdService.committed.store.evidence.entries = [] := by decide +kernel
    intro hstored
    obtain ⟨row, hrow⟩ := Option.isSome_iff_exists.mp hstored
    have hrow := Dict.get?_eq_some.mp hrow
    rw [hempty] at hrow
    cases hrow
  obtain ⟨row, hrow, -⟩ := hlisting.complete e (he ▸ List.mem_cons_self) hnew
  exact ⟨i, t, row, hmem, hrow, hlisted row hrow⟩

end IncidentEvidence
