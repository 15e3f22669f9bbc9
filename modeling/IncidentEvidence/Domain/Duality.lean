import IncidentEvidence.Domain.Verdicts

/-! # Duality and order-independence of verdicts

    Reversing every expected direction and exchanging ALL with ANY turns a
    hypothesis into its dual: verification then says the opposite wherever it
    decides, and the same wherever it does not. Reordering the predicates of a
    hypothesis reorders the predicate results and changes nothing else.

    Three-valued composition is where both facts start (`compose_dual`,
    `compose_perm`).
-/

namespace IncidentEvidence

open Py PyFloat

/-! ### The dual of a verdict, a hypothesis and a result -/

/-- Supported and refuted exchanged. -/
def VerificationVerdict.dual : VerificationVerdict → VerificationVerdict
  | .supported => .refuted
  | .refuted => .supported
  | .unknown => .unknown

/-- ALL and ANY exchanged. -/
def HypothesisComposition.dual : HypothesisComposition → HypothesisComposition
  | .all => .any
  | .any => .all

/-- The predicate that expects the opposite direction. -/
def MetricShiftPredicate.dual (p : MetricShiftPredicate) : MetricShiftPredicate :=
  { p with expectedDirection := p.expectedDirection.reverse }

/-- Every direction reversed, ALL and ANY exchanged. -/
def HypothesisDocument.dual (h : HypothesisDocument) : HypothesisDocument where
  hypothesisId := h.hypothesisId
  tenantId := h.tenantId
  incidentId := h.incidentId
  runId := h.runId
  semantics := h.semantics
  composition := h.composition.dual
  predicates := h.predicates.map MetricShiftPredicate.dual
  ok := by
    obtain ⟨h1, h2, h3, h4, h5, h6, h7, h8⟩ := h.ok
    refine ⟨h1, h2, h3, h4, by simpa using h5, by simpa using h6, ?_, ?_⟩
    · rw [List.map_map]
      exact h7
    · show ((h.predicates.map MetricShiftPredicate.dual).map (·.signalKey.value)).Nodup
      rw [List.map_map]
      exact h8

/-- The trace that decides the other way: the verdict and the ids exchanged,
    everything else kept. -/
def PredicateVerificationResult.dual {F : Type} (r : PredicateVerificationResult F) :
    PredicateVerificationResult F :=
  { r with
    verdict := r.verdict.dual
    supportingEvidenceIds := r.contradictingEvidenceIds
    contradictingEvidenceIds := r.supportingEvidenceIds }

/-- The same of a whole document. -/
def HypothesisVerificationResult.dual {F : Type} (r : HypothesisVerificationResult F) :
    HypothesisVerificationResult F where
  hypothesisId := r.hypothesisId
  composition := r.composition.dual
  verdict := r.verdict.dual
  reason := r.reason
  predicateResults := r.predicateResults.map PredicateVerificationResult.dual
  supportingEvidenceIds := r.contradictingEvidenceIds
  contradictingEvidenceIds := r.supportingEvidenceIds

/-- The predicates of a hypothesis in another order. -/
def HypothesisDocument.permuted (h : HypothesisDocument)
    (σ : Equiv.Perm (Fin h.predicates.length)) : HypothesisDocument where
  hypothesisId := h.hypothesisId
  tenantId := h.tenantId
  incidentId := h.incidentId
  runId := h.runId
  semantics := h.semantics
  composition := h.composition
  predicates := List.ofFn fun i => h.predicates.get (σ i)
  ok := by
    have hperm : (List.ofFn fun i => h.predicates.get (σ i)).Perm h.predicates := by
      have := Equiv.Perm.ofFn_comp_perm σ h.predicates.get
      rwa [List.ofFn_get] at this
    obtain ⟨h1, h2, h3, h4, h5, h6, h7, h8⟩ := h.ok
    refine ⟨h1, h2, h3, h4, ?_, ?_, ?_, ?_⟩
    · rw [hperm.length_eq]
      exact h5
    · rw [hperm.length_eq]
      exact h6
    · exact (hperm.map _).nodup_iff.mpr h7
    · exact (hperm.map _).nodup_iff.mpr h8

/-! ### Composition -/

theorem VerificationVerdict.mem_map_dual {v : VerificationVerdict}
    {verdicts : List VerificationVerdict} :
    v ∈ verdicts.map VerificationVerdict.dual ↔ v.dual ∈ verdicts := by
  have hdual : ∀ u : VerificationVerdict, u.dual.dual = u := by
    intro u
    cases u <;> rfl
  constructor
  · intro hv
    obtain ⟨u, hu, rfl⟩ := List.mem_map.mp hv
    rwa [hdual]
  · intro hv
    exact List.mem_map.mpr ⟨v.dual, hv, hdual v⟩

/-- **Three-valued ALL and ANY are dual.** -/
theorem compose_dual (composition : HypothesisComposition)
    (verdicts : List VerificationVerdict) :
    compose composition.dual (verdicts.map VerificationVerdict.dual) =
      (compose composition verdicts).dual := by
  cases composition with
  | all =>
    show compose .any _ = _
    simp only [compose, VerificationVerdict.mem_map_dual, VerificationVerdict.dual]
    by_cases hrefuted : VerificationVerdict.refuted ∈ verdicts
    · rw [if_pos hrefuted, if_pos hrefuted]
    · by_cases hunknown : VerificationVerdict.unknown ∈ verdicts
      · rw [if_neg hrefuted, if_pos hunknown, if_neg hrefuted, if_pos hunknown]
      · rw [if_neg hrefuted, if_neg hunknown, if_neg hrefuted, if_neg hunknown]
  | any =>
    show compose .all _ = _
    simp only [compose, VerificationVerdict.mem_map_dual, VerificationVerdict.dual]
    by_cases hsupported : VerificationVerdict.supported ∈ verdicts
    · rw [if_pos hsupported, if_pos hsupported]
    · by_cases hunknown : VerificationVerdict.unknown ∈ verdicts
      · rw [if_neg hsupported, if_pos hunknown, if_neg hsupported, if_pos hunknown]
      · rw [if_neg hsupported, if_neg hunknown, if_neg hsupported, if_neg hunknown]

/-- **Composition looks at which verdicts there are**, not at their order. -/
theorem compose_perm {composition : HypothesisComposition}
    {verdicts verdicts' : List VerificationVerdict} (h : verdicts.Perm verdicts') :
    compose composition verdicts = compose composition verdicts' := by
  cases composition <;> simp only [compose, h.mem_iff]

/-! ### One predicate -/

theorem ObservedDirection.agrees_reverse (observed : ObservedDirection)
    (expected : ExpectedDirection) :
    observed.value = expected.reverse.value ↔ ¬ observed.value = expected.value := by
  cases observed <;> cases expected <;> decide

theorem unknown_dual {F : Type} (p : MetricShiftPredicate) (reason : UnknownReason) (minimumScore : F)
    (observed : Option ObservedDirection) :
    unknown p.dual reason minimumScore observed = (unknown p reason minimumScore observed).dual :=
  rfl

/-- The opposite predicate is decided the opposite way by the same entry. -/
theorem evaluatePredicate_dual {F : Type} [PyFloat F] (p : MetricShiftPredicate)
    (entry : Option (MetricShiftEvidence F)) (minimumScore : F) :
    evaluatePredicate p.dual entry minimumScore = (evaluatePredicate p entry minimumScore).dual := by
  unfold evaluatePredicate
  split
  · exact unknown_dual _ _ _ _
  · split
    · exact unknown_dual _ _ _ _
    · exact unknown_dual _ _ _ _
    · next candidate _ _ =>
      split
      · exact unknown_dual _ _ _ _
      · dsimp only
        split
        · exact unknown_dual _ _ _ _
        -- the score decides: one of the two directions agrees with the observed one
        · generalize (if lt zero candidate.signedScore = true then ObservedDirection.increase
            else .decrease) = observed
          have hflip := observed.agrees_reverse p.expectedDirection
          simp only [MetricShiftPredicate.dual, PredicateVerificationResult.dual,
            decide_eq_true_eq, hflip]
          by_cases hagrees : observed.value = p.expectedDirection.value
          · simp [hagrees, VerificationVerdict.dual]
          · simp [hagrees, VerificationVerdict.dual]

/-! ### The verifier -/

section verifier
variable {F : Type} [PyFloat F]

/-- The part of the verifier after validation commutes with duality. -/
theorem verifyDocument_dual (h : HypothesisDocument) (gate : Option UnknownReason)
    (minimumScore : F) (entry : SignalKey → Option (MetricShiftEvidence F)) :
    verifyDocument h.dual gate (fun p reason => unknown p reason minimumScore)
        (fun p => evaluatePredicate p (entry p.signalKey) minimumScore) =
      HypothesisVerificationResult.dual (verifyDocument h gate
        (fun p reason => unknown p reason minimumScore)
        fun p => evaluatePredicate p (entry p.signalKey) minimumScore) := by
  cases gate with
  | some reason =>
    simp only [verifyDocument, HypothesisVerificationResult.dual, HypothesisDocument.dual,
      List.map_map, List.flatMap_map]
    rfl
  | none =>
    have hresults : (h.predicates.map MetricShiftPredicate.dual).map
          (fun p => evaluatePredicate p (entry p.signalKey) minimumScore) =
        (h.predicates.map fun p => evaluatePredicate p (entry p.signalKey) minimumScore).map
          PredicateVerificationResult.dual := by
      rw [List.map_map, List.map_map]
      exact List.map_congr_left fun p _ => evaluatePredicate_dual p _ _
    have hverdicts : ∀ results : List (PredicateVerificationResult F),
        (results.map PredicateVerificationResult.dual).map PredicateTrace.verdict =
          (results.map PredicateTrace.verdict).map VerificationVerdict.dual := by
      intro results
      rw [List.map_map, List.map_map]
      rfl
    simp only [verifyDocument, HypothesisVerificationResult.dual, HypothesisDocument.dual]
    rw [hresults, hverdicts, compose_dual]
    simp only [List.flatMap_map]
    rfl

omit [PyFloat F] in
/-- The part of the verifier after validation and the order of the predicates. -/
theorem verifyDocument_permuted (h : HypothesisDocument)
    (σ : Equiv.Perm (Fin h.predicates.length)) (gate : Option UnknownReason)
    (unknown : MetricShiftPredicate → UnknownReason → PredicateVerificationResult F)
    (evaluate : MetricShiftPredicate → PredicateVerificationResult F) :
    let r := verifyDocument h gate unknown evaluate
    let r' := verifyDocument (h.permuted σ) gate unknown evaluate
    r'.verdict = r.verdict ∧ r'.reason = r.reason ∧
      r'.predicateResults.length = r.predicateResults.length ∧
      ∀ k : Fin h.predicates.length,
        r'.predicateResults[k.val]? = r.predicateResults[(σ k).val]? := by
  have hget : ∀ k : Fin h.predicates.length,
      (h.permuted σ).predicates[k.val]? = h.predicates[(σ k).val]? := by
    intro k
    simp [HypothesisDocument.permuted]
  have hlength : (h.permuted σ).predicates.length = h.predicates.length := by
    simp [HypothesisDocument.permuted]
  cases gate with
  | some reason =>
    refine ⟨rfl, rfl, ?_, ?_⟩
    · simp [verifyDocument, hlength]
    · intro k
      simp only [verifyDocument, List.getElem?_map, hget]
  | none =>
    have hperm : (h.permuted σ).predicates.Perm h.predicates := by
      have := Equiv.Perm.ofFn_comp_perm σ h.predicates.get
      rwa [List.ofFn_get] at this
    refine ⟨?_, rfl, ?_, ?_⟩
    · show compose h.composition _ = compose h.composition _
      exact compose_perm ((hperm.map evaluate).map _)
    · simp [verifyDocument, hlength]
    · intro k
      simp only [verifyDocument, List.getElem?_map, hget]

variable [LawfulPyFloat F] [FloatHex F] [Sha256]

/-- **Verdicts are dual and independent of the order of the predicates**, for
    every hypothesis on every ledger the validator accepts. -/
theorem verdict_duality (h : HypothesisDocument) (l : MetricEvidenceLedger F)
    (hvalid : ∃ l', validateMetricEvidenceLedger l = .ok l') :
    ∃ r, verifyHypothesis h l = .ok r ∧ verifyHypothesis h.dual l = .ok r.dual ∧
      ∀ σ : Equiv.Perm (Fin h.predicates.length), ∃ r',
        verifyHypothesis (h.permuted σ) l = .ok r' ∧ r'.verdict = r.verdict ∧
        r'.reason = r.reason ∧ r'.predicateResults.length = r.predicateResults.length ∧
        ∀ k : Fin h.predicates.length,
          r'.predicateResults[k.val]? = r.predicateResults[(σ k).val]? := by
  obtain ⟨l', hl'⟩ := hvalid
  obtain ⟨hacc, -⟩ := validate_eq_ok.mp hl'
  refine ⟨_, verifyHypothesis_eq_ok.mpr ⟨hacc, rfl⟩, ?_, ?_⟩
  · exact verifyHypothesis_eq_ok.mpr ⟨hacc, (verifyDocument_dual h _ _ _).symm⟩
  · intro σ
    exact ⟨_, verifyHypothesis_eq_ok.mpr ⟨hacc, rfl⟩, verifyDocument_permuted h σ _ _ _⟩

end verifier

open Demo in
/-- The dual of the small hypothesis has the opposite verdicts. -/
theorem verdict_duality_demo : ∃ ledger r,
    rankAndCompile tenant incident run window [latency, errors] policy = .ok ledger ∧
    verifyHypothesis hypothesis ledger = .ok r ∧
    verifyHypothesis hypothesis.dual ledger = .ok r.dual ∧
    ∃ r', verifyHypothesis (hypothesis.permuted (Equiv.swap ⟨0, by decide⟩ ⟨1, by decide⟩)) ledger =
      .ok r' ∧ r'.verdict = r.verdict := by
  obtain ⟨ledger, hledger⟩ := exists_ledger
  obtain ⟨hvalid, -⟩ := rankAndCompile_eq_ok hledger
  obtain ⟨r, hr, hdual, hperm⟩ := verdict_duality hypothesis ledger ⟨ledger, hvalid⟩
  obtain ⟨r', hr', hverdict, -⟩ := hperm (Equiv.swap ⟨0, by decide⟩ ⟨1, by decide⟩)
  exact ⟨ledger, r, hledger, hr, hdual, r', hr', hverdict⟩

end IncidentEvidence
