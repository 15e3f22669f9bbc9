import IncidentEvidence.Domain.Verdicts

/-! # Stricter thresholds

    Raising the minimum number of points, the minimum score or the minimum margin
    only turns decided verdicts into unknown ones and rankings into abstentions.
    The scale of a signal depends on its floors alone, so a signal that is scored
    under two policies with one relative floor has one candidate under both
    (`candidate_of_stricter`).

    Verdicts are compared in the order of information (`Refines`), in which
    unknown lies below supported and refuted, and composition is monotone.
-/

namespace IncidentEvidence

open Py PyFloat

/-! ### The order of information -/

/-- The second verdict, where it decides, is also the first. -/
def VerificationVerdict.Refines (v w : VerificationVerdict) : Prop := w ≠ .unknown → v = w

theorem VerificationVerdict.Refines.refl (v : VerificationVerdict) : v.Refines v := fun _ => rfl

/-- A decided verdict stays in the list. -/
theorem mem_of_refines {vs ws : List VerificationVerdict}
    (h : List.Forall₂ VerificationVerdict.Refines vs ws) {w : VerificationVerdict}
    (hw : w ≠ .unknown) (hmem : w ∈ ws) : w ∈ vs := by
  induction h with
  | nil => cases hmem
  | cons hhead _ ih =>
    rcases List.mem_cons.mp hmem with rfl | hmem
    · rw [hhead hw]
      exact List.mem_cons_self
    · exact List.mem_cons_of_mem _ (ih hmem)

/-- Lists of decided verdicts are the same. -/
theorem eq_of_refines {vs ws : List VerificationVerdict}
    (h : List.Forall₂ VerificationVerdict.Refines vs ws) (hws : .unknown ∉ ws) : vs = ws := by
  induction h with
  | nil => rfl
  | cons hhead _ ih =>
    rw [List.mem_cons, not_or] at hws
    rw [hhead (Ne.symm hws.1), ih hws.2]

/-- **Composition is monotone** in the order of information. -/
theorem compose_refines {composition : HypothesisComposition} {vs ws : List VerificationVerdict}
    (h : List.Forall₂ VerificationVerdict.Refines vs ws) :
    (compose composition vs).Refines (compose composition ws) := by
  -- a verdict that decides alone does so on both sides; otherwise no child is unknown
  cases composition with
  | all =>
    by_cases hrefuted : VerificationVerdict.refuted ∈ ws
    · have hrefuted' := mem_of_refines h (by decide) hrefuted
      intro _
      simp [compose, hrefuted, hrefuted']
    · by_cases hunknown : VerificationVerdict.unknown ∈ ws
      · intro hne
        simp [compose, hrefuted, hunknown] at hne
      · rw [eq_of_refines h hunknown]
        exact VerificationVerdict.Refines.refl _
  | any =>
    by_cases hsupported : VerificationVerdict.supported ∈ ws
    · have hsupported' := mem_of_refines h (by decide) hsupported
      intro _
      simp [compose, hsupported, hsupported']
    · by_cases hunknown : VerificationVerdict.unknown ∈ ws
      · intro hne
        simp [compose, hsupported, hunknown] at hne
      · rw [eq_of_refines h hunknown]
        exact VerificationVerdict.Refines.refl _

/-! ### Stricter policies -/

section stricter
variable {F : Type} [PyFloat F]

/-- The second policy asks for at least as much, on the same relative floor. -/
structure BaselinePolicy.Stricter (p q : BaselinePolicy F) : Prop where
  points : p.minimumPointsPerWindow ≤ q.minimumPointsPerWindow
  score : le p.minimumScore q.minimumScore = true
  margin : le p.minimumMargin q.minimumMargin = true
  floor : p.relativeScaleFloor = q.relativeScaleFloor

variable {p q : BaselinePolicy F} {window : IncidentWindow} {item : SignalBaselineInput F}

theorem eligible_of_stricter (h : p.Stricter q) {m n : Int} (helig : eligible q m n = true) :
    eligible p m n = true := by
  simp only [eligible, Bool.and_eq_true, decide_eq_true_eq] at helig ⊢
  have hpoints := h.points
  omega

/-- Scoring looks at the policy for its relative floor only. -/
theorem scoreCandidate_of_stricter (h : p.Stricter q) (pre post : List F) :
    scoreCandidate item p pre post = scoreCandidate item q pre post := by
  simp only [scoreCandidate, h.floor]

/-- **A signal that is scored under the stricter policy** has the same candidate under
    the other one. -/
theorem candidate_of_stricter (h : p.Stricter q) {e₁ e₂ : SignalEvaluation F}
    (h₁ : Evaluated window p item e₁) (h₂ : Evaluated window q item e₂)
    (helig : e₂.eligible = true) : e₁.eligible = true ∧ e₁.candidate = e₂.candidate := by
  have helig₁ : e₁.eligible = true := by
    rw [h₁.eligible]
    exact eligible_of_stricter h (h₂.eligible ▸ helig)
  obtain ⟨c₁, hc₁⟩ : ∃ c, e₁.candidate = some c :=
    Option.isSome_iff_exists.mp (h₁.isSome.trans helig₁)
  obtain ⟨c₂, hc₂⟩ : ∃ c, e₂.candidate = some c :=
    Option.isSome_iff_exists.mp (h₂.isSome.trans helig)
  have hscored₁ := scoreCandidate_eq_ok.mpr (h₁.candidate c₁ hc₁)
  have hscored₂ := scoreCandidate_eq_ok.mpr (h₂.candidate c₂ hc₂)
  rw [scoreCandidate_of_stricter h, hscored₂] at hscored₁
  obtain rfl : c₂ = c₁ := Except.ok.inj hscored₁
  exact ⟨helig₁, hc₁.trans hc₂.symm⟩

variable [LawfulPyFloat F]

theorem not_lt_of_le {a m n : F} (hmn : le m n = true) (h : lt a n = false) : lt a m = false := by
  rw [Bool.eq_false_iff] at h ⊢
  intro hlt
  obtain ⟨ham, hma⟩ := lt_eq_true.mp hlt
  refine h (lt_eq_true.mpr ⟨LawfulPyFloat.le_trans ham hmn, ?_⟩)
  rw [Bool.eq_false_iff] at hma ⊢
  exact fun hna => hma (LawfulPyFloat.le_trans hmn hna)

/-! ### Verdicts -/

/-- **A predicate decided under the stricter policy** is decided the same under the
    other one, by the entry of the same signal. -/
theorem evaluatePredicate_of_stricter (h : p.Stricter q) {e₁ e₂ : MetricShiftEvidence F}
    (hcand : e₂.eligible = true → e₁.eligible = true ∧ e₁.candidate = e₂.candidate)
    (predicate : MetricShiftPredicate)
    (hdecided : (evaluatePredicate predicate (some e₂) q.minimumScore).verdict ≠ .unknown) :
    (evaluatePredicate predicate (some e₁) p.minimumScore).verdict =
        (evaluatePredicate predicate (some e₂) q.minimumScore).verdict ∧
      Cites (evaluatePredicate predicate (some e₁) p.minimumScore) e₁ ∧
      Cites (evaluatePredicate predicate (some e₂) q.minimumScore) e₂ := by
  unfold evaluatePredicate at hdecided ⊢
  by_cases helig : e₂.eligible = true
  · obtain ⟨helig₁, hsame⟩ := hcand helig
    cases hc : e₂.candidate with
    | none =>
      simp [helig, hc, unknown] at hdecided
    | some c =>
      rw [hc] at hsame
      simp only [helig, helig₁, hsame, hc] at hdecided ⊢
      by_cases hstill : PyFloat.eq c.signedScore zero = true
      · simp [hstill, unknown] at hdecided
      · by_cases hweak : lt c.suspicionScore q.minimumScore = true
        · simp [hstill, hweak, unknown] at hdecided
        -- strong enough for the stricter minimum, so for the other one
        · have hstrong : lt c.suspicionScore p.minimumScore = false :=
            not_lt_of_le h.score (by simpa using hweak)
          simp only [hstill, hweak, hstrong, Bool.false_eq_true, if_false]
          refine ⟨trivial, ?_, ?_⟩
          all_goals
            by_cases hagrees : (if lt zero c.signedScore = true then ObservedDirection.increase
              else .decrease).value = predicate.expectedDirection.value
            · constructor <;> simp [hagrees]
            · constructor <;> simp [hagrees]
  · have hineligible : e₂.eligible = false := by simpa using helig
    simp [hineligible, unknown] at hdecided

/-! ### Rankings -/

omit [LawfulPyFloat F] in
/-- With the same minimum of points the evaluations are the same. -/
theorem evaluateSignal_of_stricter (h : p.Stricter q)
    (hpoints : p.minimumPointsPerWindow = q.minimumPointsPerWindow) :
    evaluateSignal window p item = evaluateSignal window q item := by
  have heligible : ∀ m n, eligible p m n = eligible q m n := by
    intro m n
    simp only [eligible, hpoints]
  simp only [evaluateSignal, heligible, scoreCandidate_of_stricter h]

/-- **A ranking under the stricter policy** is one under the other, with the same
    candidates and the same lead. -/
theorem ranking_of_stricter (h : p.Stricter q) {evaluations : List (SignalEvaluation F)}
    {candidates : List (SuspicionCandidate F)} {r : BaselineRanking F}
    (hrank : rankOrAbstain q evaluations candidates = .ranking r) :
    rankOrAbstain p evaluations candidates = .ranking { r with policy := p } := by
  match candidates with
  | [] => simp [rankOrAbstain] at hrank
  | [top] =>
    simp only [rankOrAbstain, List.head?_nil, Option.map_none] at hrank ⊢
    by_cases hweak : lt top.suspicionScore q.minimumScore = true
    · simp [hweak] at hrank
    · have hstrong := not_lt_of_le h.score (by simpa using hweak)
      simp only [hweak, hstrong, Bool.false_eq_true, if_false] at hrank ⊢
      cases hrank
      rfl
  | top :: second :: rest =>
    simp only [rankOrAbstain, List.head?_cons, Option.map_some] at hrank ⊢
    by_cases hweak : lt top.suspicionScore q.minimumScore = true
    · simp [hweak] at hrank
    · have hstrong := not_lt_of_le h.score (by simpa using hweak)
      by_cases hclose : lt (sub top.suspicionScore second.suspicionScore) q.minimumMargin = true
      · simp [hweak, hclose] at hrank
      · have hapart := not_lt_of_le h.margin (by simpa using hclose)
        simp only [hweak, hstrong, hclose, hapart, Bool.false_eq_true, if_false] at hrank ⊢
        cases hrank
        rfl

/-- The same of the baseline. -/
theorem rankMetricShifts_of_stricter (h : p.Stricter q)
    (hpoints : p.minimumPointsPerWindow = q.minimumPointsPerWindow)
    {inputs : List (SignalBaselineInput F)} {r : BaselineRanking F}
    (hrank : rankMetricShifts window inputs q = .ok (.ranking r)) :
    rankMetricShifts window inputs p = .ok (.ranking { r with policy := p }) := by
  have hevaluate : evaluateSignal window p = evaluateSignal (F := F) window q :=
    funext fun item => evaluateSignal_of_stricter h hpoints
  simp only [rankMetricShifts, bind_eq_ok, pure_eq_ok] at hrank ⊢
  obtain ⟨u, hdistinct, evaluations, hevaluations, hresult⟩ := hrank
  refine ⟨u, hdistinct, evaluations, ?_, ?_⟩
  · rw [hevaluate]
    exact hevaluations
  · exact (ranking_of_stricter h hresult.symm).symm

end stricter

/-! ### The whole pipeline -/

/-- What two runs say of one predicate: the first repeats what the second decides, and
    both cite the entry of its signal. -/
structure VerdictKept {F : Type} (l₁ l₂ : MetricEvidenceLedger F) (predicate : MetricShiftPredicate)
    (r₁ r₂ : PredicateVerificationResult F) : Prop where
  refines : r₁.verdict.Refines r₂.verdict
  cites : r₂.verdict ≠ .unknown → ∃ e₁ ∈ l₁.entries, ∃ e₂ ∈ l₂.entries,
    e₁.signalKey = predicate.signalKey ∧ e₂.signalKey = predicate.signalKey ∧
      Cites r₁ e₁ ∧ Cites r₂ e₂

/-- What two runs say of one document, predicate by predicate. -/
structure DocumentKept {F : Type} (l₁ l₂ : MetricEvidenceLedger F) (h : HypothesisDocument)
    (r₁ r₂ : HypothesisVerificationResult F) : Prop where
  refines : r₁.verdict.Refines r₂.verdict
  lengths : r₁.predicateResults.length = h.predicates.length ∧
    r₂.predicateResults.length = h.predicates.length
  predicates : List.Forall₂ (fun predicate r => VerdictKept l₁ l₂ predicate r.1 r.2) h.predicates
    (r₁.predicateResults.zip r₂.predicateResults)

section pipeline
variable {F : Type}

/-- A gated document is unknown on both sides; another one is composed of its children. -/
theorem verifyDocument_kept {l₁ l₂ : MetricEvidenceLedger F} (h : HypothesisDocument)
    (gate : Option UnknownReason) {minimum₁ minimum₂ : F}
    {evaluate₁ evaluate₂ : MetricShiftPredicate → PredicateVerificationResult F}
    (hkept : ∀ predicate, VerdictKept l₁ l₂ predicate (evaluate₁ predicate) (evaluate₂ predicate)) :
    DocumentKept l₁ l₂ h
      (verifyDocument h gate (fun p reason => unknown p reason minimum₁) evaluate₁)
      (verifyDocument h gate (fun p reason => unknown p reason minimum₂) evaluate₂) := by
  cases gate with
  | some reason =>
    refine ⟨VerificationVerdict.Refines.refl _, by simp [verifyDocument], ?_⟩
    simp only [verifyDocument, List.zip_map', List.forall₂_map_right_iff, List.forall₂_same]
    exact fun predicate _ => ⟨fun hne => absurd rfl hne, fun hne => absurd rfl hne⟩
  | none =>
    refine ⟨compose_refines ?_, by simp [verifyDocument], ?_⟩
    · simp only [List.map_map, List.forall₂_map_left_iff, List.forall₂_map_right_iff,
        List.forall₂_same]
      exact fun predicate _ => (hkept predicate).refines
    · simp only [verifyDocument, List.zip_map', List.forall₂_map_right_iff, List.forall₂_same]
      exact fun predicate _ => hkept predicate

variable [PyFloat F] [LawfulPyFloat F]
  {p q : BaselinePolicy F} {window : IncidentWindow} {inputs : List (SignalBaselineInput F)}

/-- A predicate on the ledgers of one list of inputs under two policies. -/
theorem evaluatePredicate_kept (h : p.Stricter q) {l₁ l₂ : MetricEvidenceLedger F}
    (hkeys₁ : (l₁.entries.map (·.signalKey.value)).Pairwise (· < ·))
    (hkeys₂ : (l₂.entries.map (·.signalKey.value)).Pairwise (· < ·))
    (hevals₁ : EvaluationsOf window p inputs l₁.evaluations)
    (hevals₂ : EvaluationsOf window q inputs l₂.evaluations) (predicate : MetricShiftPredicate) :
    VerdictKept l₁ l₂ predicate
      (evaluatePredicate predicate (bySignal l₁.entries predicate.signalKey) p.minimumScore)
      (evaluatePredicate predicate (bySignal l₂.entries predicate.signalKey) q.minimumScore) := by
  cases hlook : bySignal l₂.entries predicate.signalKey with
  | none => exact ⟨fun hne => absurd rfl hne, fun hne => absurd rfl hne⟩
  | some e₂ =>
    obtain ⟨hmem₂, hkey₂⟩ := (bySignal_eq_some hkeys₂).mp hlook
    -- both ledgers have an entry of the input that was evaluated to this one
    obtain ⟨item, hitem, heval₂⟩ := hevals₂.evaluated e₂.evaluation (List.mem_map_of_mem hmem₂)
    obtain ⟨_, hevaluation, heval₁⟩ := hevals₁.complete item hitem
    obtain ⟨e₁, hmem₁, rfl⟩ := List.mem_map.mp hevaluation
    have hkey₁ : e₁.signalKey = predicate.signalKey :=
      heval₁.key.trans (heval₂.key.symm.trans hkey₂)
    rw [(bySignal_eq_some hkeys₁).mpr ⟨hmem₁, hkey₁⟩]
    have hdecided := evaluatePredicate_of_stricter h (candidate_of_stricter h heval₁ heval₂) predicate
    exact ⟨fun hne => (hdecided hne).1,
      fun hne => ⟨e₁, hmem₁, e₂, hmem₂, hkey₁, hkey₂, (hdecided hne).2⟩⟩

end pipeline

section exactPipeline
variable [FloatHex ExactFloat] [Sha256] {tenant : TenantId} {incident : IncidentId} {run : RunId}
  {window : IncidentWindow} {inputs : List (SignalBaselineInput ExactFloat)}
  {p q : BaselinePolicy ExactFloat}

/-- **Stricter thresholds never flip a verdict.** On one list of inputs, the pipeline
    returns under both policies, and what the stricter one decides of a predicate or a
    document the other one decides the same. With the same minimum of points a ranking
    stays a ranking, of the same candidates with the same lead. -/
theorem stricter_thresholds [LawfulFloatHex ExactFloat] (hstricter : p.Stricter q)
    (hwindow : window.Valid) (hp : p.Valid) (hq : q.Valid)
    (htenant : TextIdentifier.Valid tenant ∧ Encodable tenant.value)
    (hincident : TextIdentifier.Valid incident ∧ Encodable incident.value)
    (hrun : TextIdentifier.Valid run ∧ Encodable run.value)
    (hkeys : ∀ item ∈ inputs, Encodable item.signal.key.value)
    (hdistinct : (inputs.map (·.signal.key)).Nodup) :
    (inputs.length ≤ maxsize → q.minimumPointsPerWindow < 10 ^ maxStrDigits → ∃ l₁ l₂,
      rankAndCompile tenant incident run window inputs p = .ok l₁ ∧
      rankAndCompile tenant incident run window inputs q = .ok l₂) ∧
    (∀ l₁ l₂, rankAndCompile tenant incident run window inputs p = .ok l₁ →
      rankAndCompile tenant incident run window inputs q = .ok l₂ →
      ∀ h : HypothesisDocument, ∃ r₁ r₂, verifyHypothesis h l₁ = .ok r₁ ∧
        verifyHypothesis h l₂ = .ok r₂ ∧ DocumentKept l₁ l₂ h r₁ r₂) ∧
    (p.minimumPointsPerWindow = q.minimumPointsPerWindow → ∀ r₂,
      rankMetricShifts window inputs q = .ok (.ranking r₂) → ∃ r₁,
        rankMetricShifts window inputs p = .ok (.ranking r₁) ∧
        r₁.candidates = r₂.candidates ∧ r₁.lead = r₂.lead) := by
  refine ⟨?_, ?_, ?_⟩
  · intro hsize hpoints
    -- either policy ranks, and few enough digits make the ids computable
    have hreturns : ∀ policy : BaselinePolicy ExactFloat, policy.Valid →
        policy.minimumPointsPerWindow < 10 ^ maxStrDigits →
        ∃ l, rankAndCompile tenant incident run window inputs policy = .ok l := by
      intro policy hpolicy hfew
      obtain ⟨result, hrank⟩ := exists_rank window inputs hpolicy hdistinct
      obtain ⟨entries, -, -, hcompile⟩ := compile_rank htenant hincident hrun hwindow hpolicy hkeys
        hsize (fun _ => hfew) hrank
      exact ⟨_, by rw [rankAndCompile, hrank]; exact hcompile⟩
    obtain ⟨l₁, hl₁⟩ := hreturns p hp (lt_of_le_of_lt hstricter.points hpoints)
    obtain ⟨l₂, hl₂⟩ := hreturns q hq hpoints
    exact ⟨l₁, l₂, hl₁, hl₂⟩
  · intro l₁ l₂ hl₁ hl₂ h
    obtain ⟨hvalid₁, rfl, rfl, rfl, rfl, hevals₁⟩ := rankAndCompile_eq_ok hl₁
    obtain ⟨hvalid₂, ht, hi, hr, rfl, hevals₂⟩ := rankAndCompile_eq_ok hl₂
    obtain ⟨hacc₁, hnorm₁⟩ := validate_eq_ok.mp hvalid₁
    obtain ⟨hacc₂, hnorm₂⟩ := validate_eq_ok.mp hvalid₂
    refine ⟨_, _, verifyHypothesis_eq_ok.mpr ⟨hacc₁, rfl⟩, verifyHypothesis_eq_ok.mpr ⟨hacc₂, rfl⟩,
      ?_⟩
    rw [← hnorm₁, ← hnorm₂, ht, hi, hr]
    exact verifyDocument_kept h _ fun predicate =>
      evaluatePredicate_kept hstricter hacc₁.increasing hacc₂.increasing hevals₁ hevals₂ predicate
  · intro hpoints r₂ hrank
    exact ⟨_, rankMetricShifts_of_stricter hstricter hpoints hrank, rfl, rfl⟩

end exactPipeline

open Demo in
/-- The latency of the small incident still increased when more is asked for. -/
theorem stricter_thresholds_demo : ∃ l₁ l₂ r₁ r₂,
    rankAndCompile tenant incident run window [latency, errors] policy = .ok l₁ ∧
    rankAndCompile tenant incident run window [latency, errors]
      { policy with minimumScore := .fin 8, minimumMargin := .fin 2 } = .ok l₂ ∧
    verifyHypothesis hypothesis l₁ = .ok r₁ ∧ verifyHypothesis hypothesis l₂ = .ok r₂ ∧
    r₁.verdict.Refines r₂.verdict := by
  have hstricter : policy.Stricter { policy with minimumScore := .fin 8, minimumMargin := .fin 2 } :=
    ⟨le_refl _, by decide +kernel, by decide +kernel, rfl⟩
  have hstrict : BaselinePolicy.Valid
      { policy with minimumScore := .fin 8, minimumMargin := .fin 2 } := by
    refine ⟨by decide, ?_, ?_, ?_⟩ <;> decide +kernel
  have hwindow : window.Valid := by decide
  obtain ⟨hexists, hall, -⟩ := stricter_thresholds hstricter hwindow policy_ok hstrict tenant_ok
    incident_ok run_ok keys_ok (by decide)
  obtain ⟨l₁, l₂, hl₁, hl₂⟩ := hexists (by decide) two_lt_limit
  obtain ⟨r₁, r₂, hr₁, hr₂, hkept⟩ := hall l₁ l₂ hl₁ hl₂ hypothesis
  exact ⟨l₁, l₂, r₁, r₂, hl₁, hl₂, hr₁, hr₂, hkept.refines⟩

end IncidentEvidence
