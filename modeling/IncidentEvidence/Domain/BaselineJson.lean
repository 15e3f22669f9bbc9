import IncidentEvidence.Domain.Rederivation

/-! # The document of a ranking

    `baseline_ranking_json` writes the candidates of a result and what was decided on
    them; a ledger compiled from the result records the same decision. So the decision
    a ledger hashes can be rebuilt from the stored document
    (`baselinePayload_of_rank`, `decision_of_compile`).
-/

namespace IncidentEvidence

open Py PyFloat Serialization Decisions Parsing

/-- Infinity is not finite. -/
class InfinitePyFloat (F : Type) [PyFloat F] : Prop where
  isFinite_inf : isFinite (inf : F) = false

instance : InfinitePyFloat ExactFloat := ⟨rfl⟩

section documents
variable {F : Type} [FloatHex F]

/-- The document of candidates and of the decision on them. -/
def baselineDocument (policy : BaselinePolicy F) (candidates : List (SuspicionCandidate F))
    (decision : MetricShiftDecision F) : Json :=
  jsonObj [
    ("abstention_reason", jsonOption (fun r => .str r.value) decision.abstentionReason),
    ("candidates", .arr (candidates.map Identity.candidatePayload)),
    ("kind", .str decision.kind.value),
    ("lead", jsonOption Identity.hexJson decision.lead),
    ("policy", Identity.policyPayload policy),
    ("schema_version", .str BASELINE_RANKING_SCHEMA_VERSION),
    ("second_score", jsonOption Identity.hexJson decision.secondScore),
    ("top_score", jsonOption Identity.hexJson decision.topScore)]

theorem canonical_baselineDocument (policy : BaselinePolicy F)
    (candidates : List (SuspicionCandidate F)) (decision : MetricShiftDecision F) :
    (baselineDocument policy candidates decision).Canonical := by
  apply canonical_jsonObj (by simp only [List.map_cons, List.map_nil]; decide)
  have hreason : (jsonOption (fun r : AbstentionReason => .str r.value)
      decision.abstentionReason).Canonical := canonical_jsonOption fun _ _ => trivial
  have hhex : ∀ v : Option F, (jsonOption Identity.hexJson v).Canonical := fun _ =>
    canonical_jsonOption fun _ _ => trivial
  simp [hreason, hhex, Identity.canonical_policyPayload, Identity.canonical_candidatePayload]

variable [PyFloat F] [LawfulPyFloat F]

theorem candidates_eq_ok {candidates : List (SuspicionCandidate F)} {js : List Json}
    (h : candidates.mapM candidatePayload = .ok js) :
    js = candidates.map Identity.candidatePayload :=
  ((mapM_eq_ok_of fun _ _ _ => candidatePayload_eq_ok).mp h).2

/-- **What is written of a result of the baseline** is the decision a ledger expects: a single
    candidate has an infinite lead, which is left out. -/
theorem baselinePayload_of_rank [InfinitePyFloat F] {policy : BaselinePolicy F}
    {evaluations : List (SignalEvaluation F)} {candidates : List (SuspicionCandidate F)}
    (hranked : RankedOk candidates) {j : Json}
    (h : baselineRankingPayload (rankOrAbstain policy evaluations candidates) = .ok j) :
    j = baselineDocument policy candidates (expectedDecision policy candidates) := by
  obtain ⟨reason, hout⟩ | ⟨lead, hout⟩ := expectedOutcome_cases policy candidates
  · rw [rankOrAbstain_of_abstention hout] at h
    simp only [baselineRankingPayload, bind_eq_ok, policyPayload_eq_ok, optionalFiniteHex_eq_ok,
      pure_eq_ok] at h
    obtain ⟨js, hjs, _, ⟨-, rfl⟩, _, ⟨-, rfl⟩, _, ⟨-, rfl⟩, rfl⟩ := h
    rw [candidates_eq_ok hjs, jsonOption_hex, jsonOption_hex]
    simp only [baselineDocument, expectedDecision, hout]
    rfl
  · have hlead : ∀ x, lead = some x → isFinite x = true := by
      intro x hx
      refine (@expectedDecision_nonneg F _ policy _ _ hranked _ (Or.inr (Or.inr ?_))).1
      simp only [expectedDecision, hout]
      exact hx
    rw [rankOrAbstain_of_ranking hout] at h
    simp only [baselineRankingPayload, bind_eq_ok, policyPayload_eq_ok, optionalFiniteHex_eq_ok,
      orRaise_eq_ok, finiteHex_nonnegative, pure_eq_ok] at h
    obtain ⟨js, hjs, written, hwritten, _, ⟨-, rfl⟩, _, ⟨-, rfl⟩, top, htop, _, ⟨-, rfl⟩, rfl⟩ := h
    have hwritten : written = lead.map FloatHex.hex := by
      cases lead with
      | none =>
        rw [Option.getD_none, if_neg (by rw [InfinitePyFloat.isFinite_inf]; decide)] at hwritten
        exact (pure_eq_ok.mp hwritten)
      | some x =>
        rw [Option.getD_some, if_pos (hlead x rfl)] at hwritten
        obtain ⟨_, hhex, rfl⟩ := map_eq_ok.mp hwritten
        rw [(finiteHex_nonnegative.mp hhex).2]
        rfl
    rw [candidates_eq_ok hjs, hwritten, jsonOption_hex, jsonOption_hex]
    simp only [baselineDocument, expectedDecision, hout, topScore, htop]
    rfl

/-! ### The decision of a ledger -/

/-- **A ledger compiled from a result of the baseline records its decision.** -/
theorem decision_of_compile [Sha256] {t : TenantId} {i : IncidentId} {r : RunId} {w : IncidentWindow}
    {p : BaselinePolicy F} {evaluations : List (SignalEvaluation F)} {l : MetricEvidenceLedger F}
    (hincreasing : (evaluations.map (·.signalKey.value)).Pairwise (· < ·))
    (h : compileMetricShiftLedger t i r w
      (rankOrAbstain p evaluations (rankedCandidates evaluations)) = .ok l) :
    l.evaluations = evaluations ∧ l.policy = p ∧
      l.decision = expectedDecision p (rankedCandidates evaluations) := by
  have hsorted : sortedOn (fun e => e.signalKey.value) evaluations = evaluations :=
    sortedOn_eq_self ((List.pairwise_map.mp hincreasing).imp fun hab => le_of_lt hab)
  simp only [compileMetricShiftLedger, replaceError_eq_ok, compileMetricShiftLedgerUnchecked,
    bind_eq_ok, identifier_eq_ok, window_eq_ok, policy_eq_ok, evaluations_eq_ok,
    rankOrAbstain_policy, rankOrAbstain_signalEvaluations] at h
  obtain ⟨_, ⟨-, rfl⟩, _, ⟨-, rfl⟩, _, ⟨-, rfl⟩, _, ⟨-, rfl⟩, _, ⟨-, rfl⟩, _, ⟨hok, -, rfl⟩, d, hd,
    entries, hbuilt, hvalid⟩ := h
  have hranked := rankedOk hok
  obtain rfl := Except.ok.inj ((decision_rankOrAbstain hranked.self hranked.score
    hranked.sorted).symm.trans hd)
  obtain ⟨-, rfl⟩ := validate_eq_ok.mp hvalid
  have hentries := (buildEntries_eq_ok.mp hbuilt).1
  rw [hsorted] at hentries
  refine ⟨by rw [normalized_evaluations]; exact hentries, rfl, ?_⟩
  simp only [MetricEvidenceLedger.normalized, MetricEvidenceLedger.rebuiltDecision,
    MetricEvidenceLedger.evaluations, hentries]

/-! ### Candidates by key -/

omit [FloatHex F] [LawfulPyFloat F] in
/-- The candidate of an evaluation is the one with its key, if there is one. -/
theorem find_candidate {p : BaselinePolicy F} {evaluations : List (SignalEvaluation F)}
    (hok : ∀ e ∈ evaluations, EvaluationOk p e)
    (hnodup : (evaluations.map (·.signalKey.value)).Nodup) {e : SignalEvaluation F}
    (he : e ∈ evaluations) :
    (rankedCandidates evaluations).find? (fun c => c.signalKey.value = e.signalKey.value) =
      e.candidate := by
  have howner : ∀ c ∈ rankedCandidates evaluations, c.signalKey.value = e.signalKey.value →
      e.candidate = some c := by
    intro c hc hkey
    obtain ⟨e', he', hec⟩ := mem_rankedCandidates.mp hc
    rw [((hok e' he').candidate c hec).sameKey] at hkey
    rw [← List.inj_on_of_nodup_map hnodup he' he hkey]
    exact hec
  cases hfind : (rankedCandidates evaluations).find?
      fun c => c.signalKey.value = e.signalKey.value with
  | some c =>
    have hkey : c.signalKey.value = e.signalKey.value := by simpa using List.find?_some hfind
    exact (howner c (List.mem_of_find?_eq_some hfind) hkey).symm
  | none =>
    cases hcandidate : e.candidate with
    | none => rfl
    | some c =>
      have hmem := mem_rankedCandidates.mpr ⟨e, he, hcandidate⟩
      have hno := List.find?_eq_none.mp hfind c hmem
      rw [((hok e he).candidate c hcandidate).sameKey] at hno
      simp at hno

end documents

end IncidentEvidence
