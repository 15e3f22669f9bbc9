import IncidentEvidence.Api.App
import IncidentEvidence.Application.Audit
import IncidentEvidence.Py.JsonRoundTrip

/-! # The bodies of reports

    A stored document is text, and the report route decodes it again with `json.loads`.
    What the serializers wrote is canonical and four levels deep at most, so the body
    of a report has exactly the payloads that were serialized when it was filed
    (`report_body_served`).
-/

namespace IncidentEvidence

open Py PyFloat Serialization Decisions Parsing

/-! ### Documents of bounded depth -/

/-- A canonical document that is not nested deeper. -/
structure Tidy (depth : ℕ) (j : Json) : Prop where
  canonical : j.Canonical
  nesting : j.nesting ≤ depth

theorem tidy_str (depth : ℕ) (s : Str) : Tidy depth (.str s) := ⟨trivial, Nat.zero_le _⟩

theorem tidy_int (depth : ℕ) (i : Int) : Tidy depth (.int i) := ⟨trivial, Nat.zero_le _⟩

theorem tidy_option {α : Type} {depth : ℕ} {payload : α → Json} {a : Option α}
    (h : ∀ x, Tidy depth (payload x)) : Tidy depth (jsonOption payload a) := by
  cases a with
  | none => exact ⟨trivial, Nat.zero_le _⟩
  | some x => exact h x

theorem tidy_arr {depth : ℕ} {vs : List Json} (h : ∀ v ∈ vs, Tidy depth v) :
    Tidy (depth + 1) (.arr vs) := by
  constructor
  · rw [canonical_arr]
    exact fun v hv => (h v hv).canonical
  · have hle := nestingItems_le.mpr fun v hv => (h v hv).nesting
    rw [Json.nesting]
    omega

theorem tidy_obj {depth : ℕ} {fields : List (String × Json)}
    (hkeys : (fields.map fun kv => str kv.1).Pairwise (· < ·)) (h : ∀ kv ∈ fields, Tidy depth kv.2) :
    Tidy (depth + 1) (jsonObj fields) := by
  constructor
  · exact canonical_jsonObj hkeys fun kv hkv => (h kv hkv).canonical
  · have hle : nestingFields (fields.map fun kv => (str kv.1, kv.2)) ≤ depth := by
      rw [nestingFields_le]
      intro kv hkv
      obtain ⟨f, hf, rfl⟩ := List.mem_map.mp hkv
      exact (h f hf).nesting
    show 1 + nestingFields (fields.map fun kv => (str kv.1, kv.2)) ≤ depth + 1
    omega

theorem tidy_texts (depth : ℕ) (values : List Str) : Tidy (depth + 1) (texts values) := by
  apply tidy_arr
  intro v hv
  obtain ⟨s, -, rfl⟩ := List.mem_map.mp hv
  exact tidy_str depth s

/-- **A tidy document is read back** when the interpreter goes deep enough. -/
theorem Tidy.loads {depth limit : ℕ} {j : Json} (h : Tidy depth j) (hprintable : j.printable = true)
    (hlimit : depth ≤ limit) : loads limit (dumps j ++ str "\n") = .ok j :=
  loads_canonical h.canonical hprintable (h.nesting.trans hlimit)

/-! ### The two documents of a report -/

section documents
variable {F : Type} [PyFloat F] [FloatHex F]

theorem tidy_predicateResult {result : PredicateVerificationResult F} {j : Json}
    (h : predicateResultPayload result = .ok j) : Tidy 2 j := by
  simp only [predicateResultPayload, bind_eq_ok, pure_eq_ok] at h
  obtain ⟨⟨supporting, contradicting⟩, -, -, -, minimumScore, -, predicateId, -, rfl⟩ := h
  apply tidy_obj (by simp only [List.map_cons, List.map_nil]; decide)
  simp only [List.forall_mem_cons]
  exact ⟨tidy_texts 0 _, tidy_str 1 _, tidy_option fun _ => tidy_str 1 _, tidy_str 1 _,
    tidy_option fun _ => tidy_str 1 _, tidy_texts 0 _, tidy_str 1 _, nofun⟩

theorem tidy_verification {result : HypothesisVerificationResult F} {j : Json}
    (h : verificationPayload result = .ok j) : Tidy 4 j := by
  simp only [verificationPayload, documentPayload, predicateResults, bind_eq_ok, pure_eq_ok] at h
  obtain ⟨children, ⟨_, hchildren, -, -, rfl⟩, -, -, supporting, -, contradicting, -, -, -, -, -, -,
    -, hypothesisId, -, rfl⟩ := h
  have htidy : ∀ child ∈ children, Tidy 2 child := by
    intro child hchild
    obtain ⟨n, hn, rfl⟩ := List.getElem_of_mem hchild
    have hall := mapM_eq_ok.mp hchildren
    have hn' : n < result.predicateResults.length := hall.length_eq ▸ hn
    exact tidy_predicateResult (hall.get hn' hn)
  apply tidy_obj (by simp only [List.map_cons, List.map_nil]; decide)
  simp only [List.forall_mem_cons]
  exact ⟨tidy_str 3 _, tidy_texts 2 _, tidy_str 3 _, tidy_arr htidy,
    tidy_option fun _ => tidy_str 3 _, tidy_str 3 _, tidy_texts 2 _, tidy_str 3 _,
    List.forall_mem_nil _⟩

omit [PyFloat F] in
theorem tidy_baseline (policy : BaselinePolicy F) (candidates : List (SuspicionCandidate F))
    (decision : MetricShiftDecision F) : Tidy 3 (baselineDocument policy candidates decision) := by
  have hhex : ∀ (depth : ℕ) (v : F), Tidy depth (Identity.hexJson v) := fun depth v => tidy_str depth _
  have hcandidate : ∀ c : SuspicionCandidate F, Tidy 1 (Identity.candidatePayload c) := by
    intro c
    apply tidy_obj (by simp only [List.map_cons, List.map_nil]; decide)
    simp only [List.forall_mem_cons]
    exact ⟨hhex 0 _, hhex 0 _, tidy_int 0 _, hhex 0 _, hhex 0 _, tidy_int 0 _, hhex 0 _, hhex 0 _,
      tidy_str 0 _, hhex 0 _, hhex 0 _, nofun⟩
  have hpolicy : Tidy 2 (Identity.policyPayload policy) := by
    apply tidy_obj (by simp only [List.map_cons, List.map_nil]; decide)
    simp only [List.forall_mem_cons]
    exact ⟨hhex 1 _, tidy_int 1 _, hhex 1 _, hhex 1 _, nofun⟩
  refine ⟨canonical_baselineDocument policy candidates decision, ?_⟩
  refine (tidy_obj (by simp only [List.map_cons, List.map_nil]; decide) ?_).nesting
  simp only [List.forall_mem_cons]
  refine ⟨tidy_option fun _ => tidy_str 2 _, tidy_arr ?_, tidy_str 2 _, tidy_option (hhex 2), hpolicy,
    tidy_str 2 _, tidy_option (hhex 2), tidy_option (hhex 2), nofun⟩
  intro j hj
  obtain ⟨c, -, rfl⟩ := List.mem_map.mp hj
  exact hcandidate c

/-! ### The body of a report -/

variable [Sha256]

/-- What is served of a report. -/
def servedBody (record : ReportRecord) (report baseline : Json) : Json :=
  jsonObj [
    ("investigation_id", .str record.investigationId.value.str),
    ("schema_version", .str record.schemaVersion.1),
    ("report", report),
    ("baseline_ranking", baseline)]

omit [Sha256] in
theorem loadDocument_of_loads {depth : ℕ} {payload : Str} {j : Json} (h : loads depth payload = .ok j) :
    loadDocument depth payload = .ok j := by
  unfold loadDocument
  rw [h]

/-- **What is served of a report** is what was serialized for it: the payload of the verification
    and the payload of the ranking. -/
theorem report_body_served [LawfulPyFloat F] [InfinitePyFloat F] {app : ControlPlane}
    (hdepth : 4 ≤ app.depth) {i : InvestigationRecord} {p : Provenance F} {r : ReportRecord}
    (h : Grounds i p r) :
    ∃ report baseline, verificationPayload p.verification = .ok report ∧ report.Encodable ∧
      baselineRankingPayload p.baseline = .ok baseline ∧ baseline.Encodable ∧
      app.reportBody r = .ok (servedBody r report baseline) := by
  obtain ⟨policy, inputs, hrank⟩ := h.ranked
  obtain ⟨hevals, hbaseline⟩ := rank_evaluations hrank
  have hcompiled := h.compiled
  obtain ⟨hvalid, -⟩ := compile_eq_ok hcompiled
  obtain ⟨haccepted, -⟩ := validate_eq_ok.mp hvalid
  rw [hbaseline] at hcompiled
  obtain ⟨hevaluations, hpolicy, -⟩ := decision_of_compile hevals.increasing hcompiled
  have hok : ∀ e ∈ p.baseline.signalEvaluations, EvaluationOk policy e := by
    rw [← hevaluations, ← hpolicy]
    exact haccepted.evaluationOk
  -- the two texts that are stored
  obtain ⟨report, hreport, hreportPrintable, hreportText⟩ := serialize_text h.payload
  obtain ⟨_, hreport', hreportEncodable⟩ := serialize_encodable h.payload
  rw [hreport] at hreport'
  obtain rfl := Except.ok.inj hreport'
  obtain ⟨t, ht, hwritten⟩ := h.baselinePayload
  obtain ⟨baseline, hdocument, hprintable, htext⟩ := serialize_text hwritten
  obtain ⟨_, hdocument', hencodable⟩ := serialize_encodable hwritten
  rw [hdocument] at hdocument'
  obtain rfl := Except.ok.inj hdocument'
  have htidy : Tidy 3 baseline := by
    have hmade := hdocument
    rw [hbaseline] at hmade
    rw [baselinePayload_of_rank (rankedOk hok) hmade]
    exact tidy_baseline _ _ _
  refine ⟨report, baseline, hreport, hreportEncodable, hdocument, hencodable, ?_⟩
  have hloadReport := loadDocument_of_loads
    ((tidy_verification hreport).loads hreportPrintable hdepth)
  have hloadBaseline := loadDocument_of_loads (htidy.loads hprintable (by omega : 3 ≤ app.depth))
  rw [← hreportText] at hloadReport
  rw [← htext] at hloadBaseline
  unfold ControlPlane.reportBody
  rw [hloadReport, ht]
  simp only [hloadBaseline]
  rfl

end documents

end IncidentEvidence
