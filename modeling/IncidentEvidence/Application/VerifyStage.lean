import IncidentEvidence.Application.Reporting
import IncidentEvidence.Domain.BaselineJson

/-! # After the baseline

    The id of an entry is a hash of the run context, the policy, the decision and the
    evaluation. So once a ledger with an entry is there, everything that is written of it
    has been written before: its rows and the baseline document beside the report never
    fail. What is left is the report, and it fails on the ids the model chose
    (`verify_stage_total_iff`).
-/

namespace IncidentEvidence

open Py PyFloat Serialization Decisions Parsing

section written
variable {F : Type} [PyFloat F] [FloatHex F] [Sha256] {l : MetricEvidenceLedger F}
  {e : MetricShiftEvidence F}

/-! ### What was hashed -/

/-- What the id of an entry was hashed from could be written. -/
theorem Accepted.written (h : l.Accepted) (he : e ∈ l.entries) :
    (l.normalized.payload e.evaluation).printable = true ∧
      (l.normalized.payload e.evaluation).Encodable := by
  obtain ⟨m, hm, -⟩ := Option.map_eq_some_iff.mp (h.ids e he)
  obtain ⟨hprintable, b, hb, -⟩ := contentMessage_eq_some.mp hm
  exact ⟨hprintable, encodable_of_dumps _ (encodeUtf8_isSome.mp ⟨b, hb⟩)⟩

/-- So the texts in it can be encoded and the integers in it printed. -/
structure Written (l : MetricEvidenceLedger F) (e : MetricShiftEvidence F) : Prop where
  tenant : Encodable l.tenantId.value
  incident : Encodable l.incidentId.value
  run : Encodable l.runId.value
  key : Encodable e.signalKey.value
  points : printableInt l.policy.minimumPointsPerWindow = true
  counts : printableInt e.prePointCount = true ∧ printableInt e.postPointCount = true

theorem Accepted.texts (h : l.Accepted) (he : e ∈ l.entries) : Written l e := by
  obtain ⟨hprintable, hencodable⟩ := Accepted.written h he
  have hmember := encodable_member hencodable
  have hprinted := fun kv => printableFields_iff.mp hprintable kv
  constructor
  · exact hmember ("tenant_id", .str l.tenantId.value) (by simp [MetricEvidenceLedger.normalized])
  · exact hmember ("incident_id", .str l.incidentId.value)
      (by simp [MetricEvidenceLedger.normalized])
  · exact hmember ("run_id", .str l.runId.value) (by simp [MetricEvidenceLedger.normalized])
  · exact hmember ("signal_key", .str e.signalKey.value) (by simp [MetricShiftEvidence.evaluation])
  · have hpolicy := hprinted (str "policy", Identity.policyPayload l.policy)
      (by simp [MetricEvidenceLedger.normalized])
    exact printableFields_iff.mp hpolicy
      (str "minimum_points_per_window", .int l.policy.minimumPointsPerWindow) (by simp)
  · exact ⟨hprinted (str "pre_point_count", .int e.prePointCount)
        (by simp [MetricShiftEvidence.evaluation]),
      hprinted (str "post_point_count", .int e.postPointCount)
        (by simp [MetricShiftEvidence.evaluation])⟩

end written

/-! ### What is written of a ranking -/

section stage
variable {F : Type} [PyFloat F] [LawfulPyFloat F] [FloatHex F] [LawfulFloatHex F] [Sha256]
  {policy : BaselinePolicy F} {investigation : InvestigationRecord}
  {inputs : List (SignalBaselineInput F)} {baseline : BaselineResult F}
  {ledger : MetricEvidenceLedger F}

/-- A ranking and the ledger that was compiled of it. -/
structure Ranked (policy : BaselinePolicy F) (window : IncidentWindow)
    (inputs : List (SignalBaselineInput F)) (baseline : BaselineResult F)
    (ledger : MetricEvidenceLedger F) : Prop where
  accepted : ledger.Accepted
  normalized : ledger = ledger.normalized
  evaluations : EvaluationsOf window policy inputs baseline.signalEvaluations
  result : baseline = rankOrAbstain policy baseline.signalEvaluations
    (rankedCandidates baseline.signalEvaluations)
  same : ledger.evaluations = baseline.signalEvaluations
  policy : ledger.policy = policy

omit [LawfulFloatHex F] in
theorem ranked_of_stage (h : baselineStage policy investigation (.ok inputs) = .ok (baseline, ledger)) :
    Ranked policy investigation.window inputs baseline ledger := by
  obtain ⟨_, heq, hrank, hcompile⟩ := baselineStage_eq_ok.mp h
  obtain rfl := Except.ok.inj heq
  obtain ⟨hevals, hbaseline⟩ := rank_evaluations hrank
  obtain ⟨hvalid, -⟩ := compile_eq_ok hcompile
  obtain ⟨haccepted, hnormalized⟩ := validate_eq_ok.mp hvalid
  rw [hbaseline] at hcompile
  obtain ⟨hsame, hpolicy, -⟩ := decision_of_compile hevals.increasing hcompile
  exact ⟨haccepted, hnormalized, hevals, hbaseline, hsame, hpolicy⟩

variable (h : Ranked policy investigation.window inputs baseline ledger)
include h

omit [LawfulPyFloat F] [LawfulFloatHex F] in
/-- An entry repeats the evaluation of one of the signals. -/
theorem Ranked.evaluated {e : MetricShiftEvidence F} (he : e ∈ ledger.entries) :
    ∃ item ∈ inputs, Evaluated investigation.window policy item e.evaluation := by
  apply h.evaluations.evaluated
  rw [← h.same]
  exact List.mem_map_of_mem he

omit [LawfulPyFloat F] [LawfulFloatHex F] in
/-- The candidate of an entry has its floors, and not only equal ones. -/
theorem Ranked.entryWritable {e : MetricShiftEvidence F} (he : e ∈ ledger.entries) :
    EntryWritable e := by
  have hok := h.accepted.entries e he
  have hevaluation := hok.evaluation
  obtain ⟨item, -, hevaluated⟩ := h.evaluated he
  refine ⟨fun c hc => (hevaluation.candidate c hc).writable, hevaluation.key,
    hevaluation.preNonneg, hevaluation.postNonneg, hevaluation.floor, hok.relativeFloor,
    hevaluation.isSome.symm, ?_, hok.evidenceId⟩
  intro c hc
  have hcandidate := hevaluation.candidate c hc
  have hscored := hevaluated.candidate c hc
  have habsolute : c.absoluteScaleFloor = e.absoluteScaleFloor :=
    hscored.absoluteFloor.trans hevaluated.floor.symm
  have hrelative : c.relativeScaleFloor = e.relativeScaleFloor := by
    rw [hscored.relativeFloor, floor_of_normalized h.normalized he, h.policy]
  exact ⟨congrArg SignalKey.value hcandidate.sameKey, hcandidate.samePre, hcandidate.samePost,
    by rw [habsolute], by rw [hrelative]⟩

/-- **Every entry has a row.** -/
theorem Ranked.entryJson {e : MetricShiftEvidence F} (he : e ∈ ledger.entries) :
    ∃ s, metricEvidenceEntryJson e = .ok s := by
  have hwritten := Accepted.texts h.accepted he
  have hcandidate : ∀ c, e.candidate = some c → c.signalKey = e.signalKey ∧
      c.prePointCount = e.prePointCount ∧ c.postPointCount = e.postPointCount := by
    intro c hc
    have hok := (h.accepted.entries e he).evaluation.candidate c hc
    exact ⟨hok.sameKey, hok.samePre, hok.samePost⟩
  apply serialize_ok (entryPayload_eq_ok.mpr ⟨h.entryWritable he, rfl⟩)
  · have hc : (jsonOption Identity.candidatePayload e.candidate).printable = true := by
      apply Identity.printable_candidate
      intro c hc
      rw [(hcandidate c hc).2.1, (hcandidate c hc).2.2]
      exact hwritten.counts
    exact printable_jsonObj (by simp [hc, Identity.printable_hexJson, hwritten.counts])
  · have hc : (jsonOption Identity.candidatePayload e.candidate).Encodable := by
      apply Identity.encodable_candidate
      intro c hc
      rw [(hcandidate c hc).1]
      exact hwritten.key
    have hid := wellFormedId_encodable (h.accepted.entries e he).evidenceId
    exact encodable_jsonObj (by simp [hc, Identity.encodable_hexJson, hid, hwritten.key])

omit [LawfulPyFloat F] [LawfulFloatHex F] in
/-- The candidates of the ranking are those of the entries. -/
theorem Ranked.candidate {c : SuspicionCandidate F}
    (hc : c ∈ rankedCandidates baseline.signalEvaluations) :
    ∃ e ∈ ledger.entries, e.candidate = some c := by
  obtain ⟨evaluation, hmem, hcandidate⟩ := mem_rankedCandidates.mp hc
  rw [← h.same] at hmem
  obtain ⟨e, he, rfl⟩ := List.mem_map.mp hmem
  exact ⟨e, he, hcandidate⟩

omit [LawfulFloatHex F] in
theorem Ranked.candidates : (rankedCandidates baseline.signalEvaluations).mapM candidatePayload =
    .ok ((rankedCandidates baseline.signalEvaluations).map Identity.candidatePayload) := by
  apply (mapM_eq_ok_of fun _ _ _ => candidatePayload_eq_ok).mpr
  refine ⟨fun c hc => ?_, rfl⟩
  obtain ⟨e, he, hcandidate⟩ := h.candidate hc
  exact (h.entryWritable he).candidate c hcandidate

omit [LawfulFloatHex F] in
/-- The ranking has a payload. -/
theorem Ranked.payload [InfinitePyFloat F] : baselineRankingPayload baseline =
    .ok (baselineDocument policy (rankedCandidates baseline.signalEvaluations)
      (expectedDecision policy (rankedCandidates baseline.signalEvaluations))) := by
  have hok : ∀ e ∈ baseline.signalEvaluations, EvaluationOk policy e := by
    rw [← h.same, ← h.policy]
    exact h.accepted.evaluationOk
  have hranked := rankedOk hok
  have hvalid : policy.Valid := by
    rw [← h.policy]
    exact h.accepted.policy
  have hnonneg : ∀ x, ((expectedDecision policy
        (rankedCandidates baseline.signalEvaluations)).topScore = some x ∨
      (expectedDecision policy (rankedCandidates baseline.signalEvaluations)).secondScore = some x ∨
      (expectedDecision policy (rankedCandidates baseline.signalEvaluations)).lead = some x) →
      FiniteNonnegative x :=
    fun x hx => finiteNonnegative_iff.mpr (expectedDecision_nonneg hranked hx)
  have hpayload : ∃ j, baselineRankingPayload baseline = .ok j := by
    rw [h.result]
    have hcandidates := h.candidates
    generalize rankedCandidates baseline.signalEvaluations = candidates at *
    obtain ⟨reason, hout⟩ | ⟨lead, hout⟩ := expectedOutcome_cases policy candidates
    · rw [rankOrAbstain_of_abstention hout]
      simp only [baselineRankingPayload, bind_eq_ok, policyPayload_eq_ok, optionalFiniteHex_eq_ok,
        pure_eq_ok]
      exact ⟨_, _, hcandidates, _, ⟨hvalid, rfl⟩, _, ⟨fun x hx => hnonneg x (Or.inr (Or.inl hx)), rfl⟩,
        _, ⟨fun x hx => hnonneg x (Or.inl hx), rfl⟩, rfl⟩
    · -- a ranking has a candidate on top
      obtain ⟨top, rest, rfl⟩ : ∃ top rest, candidates = top :: rest := by
        cases candidates with
        | nil => simp [expectedOutcome] at hout
        | cons top rest => exact ⟨top, rest, rfl⟩
      have htop : FiniteNonnegative top.suspicionScore := hnonneg _ (Or.inl rfl)
      have hlead : ∀ x, lead = some x → FiniteNonnegative x := by
        intro x hx
        apply hnonneg x (Or.inr (Or.inr ?_))
        simp only [expectedDecision, hout]
        exact hx
      have hwritten : ∃ o, (if isFinite (lead.getD inf) then
          some <$> finiteHex (lead.getD inf) true else return none :
            Except DomainError (Option Str)) = .ok o := by
        cases lead with
        | none =>
          rw [Option.getD_none, if_neg (by rw [InfinitePyFloat.isFinite_inf]; decide)]
          exact ⟨none, rfl⟩
        | some x =>
          rw [Option.getD_some, if_pos (finiteNonnegative_iff.mp (hlead x rfl)).1]
          exact ⟨some (FloatHex.hex x), map_eq_ok.mpr
            ⟨_, finiteHex_nonnegative.mpr ⟨hlead x rfl, rfl⟩, rfl⟩⟩
      obtain ⟨o, ho⟩ := hwritten
      rw [rankOrAbstain_of_ranking hout]
      simp only [baselineRankingPayload, bind_eq_ok, policyPayload_eq_ok, optionalFiniteHex_eq_ok,
        orRaise_eq_ok, finiteHex_nonnegative, pure_eq_ok]
      exact ⟨_, _, hcandidates, o, ho, _, ⟨hvalid, rfl⟩, _,
        ⟨fun x hx => hnonneg x (Or.inr (Or.inl hx)), rfl⟩, top, rfl, _, ⟨htop, rfl⟩, rfl⟩
  obtain ⟨j, hj⟩ := hpayload
  rw [hj]
  rw [h.result] at hj
  exact congrArg Except.ok (baselinePayload_of_rank hranked hj)

/-- **The baseline document beside the report is written.** -/
theorem Ranked.baselineJson [InfinitePyFloat F] (hne : ledger.entries ≠ []) :
    ∃ s, baselineRankingJson baseline = .ok s := by
  obtain ⟨e₀, he₀⟩ := List.exists_mem_of_ne_nil _ hne
  have hpoints : printableInt policy.minimumPointsPerWindow = true := by
    rw [← h.policy]
    exact (Accepted.texts h.accepted he₀).points
  have hcandidate : ∀ c ∈ rankedCandidates baseline.signalEvaluations,
      Encodable c.signalKey.value ∧ printableInt c.prePointCount = true ∧
        printableInt c.postPointCount = true := by
    intro c hc
    obtain ⟨e, he, hcandidate⟩ := h.candidate hc
    have hok := (h.accepted.entries e he).evaluation.candidate c hcandidate
    have hwritten := Accepted.texts h.accepted he
    rw [hok.sameKey, hok.samePre, hok.samePost]
    exact ⟨hwritten.key, hwritten.counts⟩
  apply serialize_ok h.payload
  · have hitems : ∀ c ∈ rankedCandidates baseline.signalEvaluations,
        (Identity.candidatePayload c).printable = true := fun c hc =>
      Identity.printable_candidate (c := some c) fun x hx => by
        obtain rfl := Option.some.inj hx
        exact (hcandidate c hc).2
    have hhex : ∀ v : Option F, (jsonOption Identity.hexJson v).printable = true := fun _ =>
      printable_jsonOption fun _ _ => rfl
    have hreason : ∀ r : Option AbstentionReason,
        (jsonOption (fun r : AbstentionReason => .str r.value) r).printable = true := fun _ =>
      printable_jsonOption fun _ _ => rfl
    apply printable_jsonObj
    simpa [hhex, hreason, Identity.printable_policyPayload hpoints] using hitems
  · have hitems : ∀ c ∈ rankedCandidates baseline.signalEvaluations,
        (Identity.candidatePayload c).Encodable := fun c hc =>
      Identity.encodable_candidate (c := some c) fun x hx => by
        obtain rfl := Option.some.inj hx
        exact (hcandidate c hc).1
    have hhex : ∀ v : Option F, (jsonOption Identity.hexJson v).Encodable := fun _ =>
      encodable_jsonOption fun v _ => Identity.encodable_hexJson v
    have hreason : ∀ r : Option AbstentionReason,
        (jsonOption (fun r : AbstentionReason => .str r.value) r).Encodable := by
      intro r
      refine encodable_jsonOption fun reason _ => ?_
      cases reason <;> exact encodable_str _
    have hkind : ∀ k : MetricShiftDecisionKind, Encodable k.value := by
      intro k
      cases k <;> exact encodable_str _
    have hschema : Encodable BASELINE_RANKING_SCHEMA_VERSION := encodable_str _
    apply encodable_jsonObj
    simpa [hhex, hreason, hkind, hschema, Identity.encodable_policyPayload] using hitems

omit [LawfulFloatHex F] h in
/-- A ledger has an entry for every signal. -/
theorem entries_ne_nil (hstage : baselineStage policy investigation (.ok inputs) = .ok (baseline, ledger))
    (hne : inputs ≠ []) : ledger.entries ≠ [] := by
  obtain ⟨_, heq, hrank, hcompile⟩ := baselineStage_eq_ok.mp hstage
  obtain rfl := Except.ok.inj heq
  have hlength := (compiled_keys hrank hcompile).length_eq
  rw [List.length_map, List.length_map] at hlength
  intro hnil
  rw [hnil] at hlength
  exact hne (List.length_eq_zero_iff.mp hlength.symm)

/-- The rows of the evidence. -/
theorem Ranked.rows : ∃ rows, (ledger.entries.mapM fun entry => do
    let payload ← metricEvidenceEntryJson entry
    return (entry.evidenceId, payload)) = .ok rows := by
  have hentry : ∀ e ∈ ledger.entries, ∃ s, metricEvidenceEntryJson e = .ok s :=
    fun e he => h.entryJson he
  generalize ledger.entries = entries at hentry
  induction entries with
  | nil => exact ⟨[], rfl⟩
  | cons e entries ih =>
    obtain ⟨s, hs⟩ := hentry e List.mem_cons_self
    obtain ⟨rows, hrows⟩ := ih fun e' he' => hentry e' (List.mem_cons_of_mem e he')
    refine ⟨(e.evidenceId, s) :: rows, ?_⟩
    rw [List.mapM_cons, hs, hrows]
    rfl

end stage

/-! ### The stage -/

section total
variable {F : Type} [PyFloat F] [LawfulPyFloat F] [InfinitePyFloat F] [FloatHex F]
  [LawfulFloatHex F] [Sha256] {policy : BaselinePolicy F} {investigation : InvestigationRecord}
  {inputs : List (SignalBaselineInput F)} {baseline : BaselineResult F}
  {ledger : MetricEvidenceLedger F}

/-- The stage ends as the report does. -/
theorem verifyStage_eq (hranked : Ranked policy investigation.window inputs baseline ledger)
    (hne : ledger.entries ≠ []) (document : HypothesisDocument) :
    ∃ verification entries baselineReport, verifyHypothesis document ledger = .ok verification ∧
      verifyStage baseline ledger document = terminalOnDomain (liftDomain do
        let report ← verificationJson verification
        return ⟨⟨baseline, ledger, document, verification⟩, entries, report, baselineReport⟩) := by
  have hverified := verifyHypothesis_eq_ok (h := document) |>.mpr ⟨hranked.accepted, rfl⟩
  obtain ⟨rows, hrows⟩ := hranked.rows
  obtain ⟨s, hs⟩ := hranked.baselineJson hne
  refine ⟨_, rows, s, hverified, ?_⟩
  unfold verifyStage
  rw [hverified, hs]
  show terminalOnDomain (liftDomain (ledger.entries.mapM _ >>= fun entries => _)) = _
  rw [hrows]
  rfl

/-- **After the baseline only the ids of the model can fail**: once telemetry with a signal has
    been ranked and compiled, every document is verified, its evidence, its report and the baseline
    document are written, exactly when its ids can be encoded. Otherwise the job ends with the one
    code of the serializer. -/
theorem verify_stage_total_iff
    (hstage : baselineStage policy investigation (.ok inputs) = .ok (baseline, ledger))
    (hne : inputs ≠ []) (document : HypothesisDocument) :
    ((∃ p, verifyStage baseline ledger document = .ok p) ↔ document.IdsEncodable) ∧
      (¬ document.IdsEncodable → verifyStage baseline ledger document =
        .error (.terminalFailure DomainError.canonicalSerialization.code)) := by
  have hranked := ranked_of_stage hstage
  obtain ⟨verification, entries, baselineReport, hverified, heq⟩ :=
    verifyStage_eq hranked (entries_ne_nil hstage hne) document
  rw [heq]
  by_cases hids : document.IdsEncodable
  · obtain ⟨report, hreport⟩ := verificationJson_ok hverified hids.1 hids.2
    have hreport : verificationJson verification = .ok report := hreport
    rw [hreport]
    exact ⟨⟨fun _ => hids, fun _ => ⟨_, rfl⟩⟩, fun hnot => absurd hids hnot⟩
  · have herror : verificationJson verification = .error .canonicalSerialization := by
      apply serialize_error
      intro hwritten
      obtain ⟨s, hs⟩ := hwritten
      exact hids (idsEncodable_of_json hverified hs)
    rw [herror]
    refine ⟨⟨fun hok => ?_, fun hyes => absurd hyes hids⟩, fun _ => rfl⟩
    obtain ⟨p, hp⟩ := hok
    cases hp

end total

open Demo in
/-- The latency is ranked, and the proposal about it is written. -/
theorem verify_stage_total_iff_demo : ∃ (baseline : BaselineResult ExactFloat)
    (ledger : MetricEvidenceLedger ExactFloat) (document : HypothesisDocument) (p : Prepared ExactFloat),
    verifyStage baseline ledger document = .ok p := by
  obtain ⟨baseline, ledger, hrank, hcompile, -, -⟩ := compiled
  obtain ⟨document, -, hids⟩ := parsed
  have hstage : baselineStage worker.policy pending (.ok [latency]) = .ok (baseline, ledger) :=
    baselineStage_eq_ok.mpr ⟨_, rfl, hrank, hcompile⟩
  obtain ⟨hiff, -⟩ := verify_stage_total_iff hstage (List.cons_ne_nil _ _) document
  obtain ⟨p, hp⟩ := hiff.mpr hids
  exact ⟨baseline, ledger, document, p, hp⟩

end IncidentEvidence
