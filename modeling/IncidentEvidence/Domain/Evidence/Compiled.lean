import IncidentEvidence.Domain.Evidence.Ledger

/-! # What compilation produces

    Ranked valid evaluations always compile: the ledger holds the evaluations as
    they are and the decision they determine (`compile_rankOrAbstain`).
-/

namespace IncidentEvidence

open Py PyFloat Parsing Decisions Identity

variable {F : Type} [PyFloat F]

/-! ### Valid candidates -/

section candidates
variable {policy : BaselinePolicy F}

theorem Parsing.CandidateOk.finite {k : SignalKey} {m n : Int} {floor : F}
    {c : SuspicionCandidate F} (h : CandidateOk policy k m n floor c) : CandidateFinite c :=
  ⟨h.preMedian, h.postMedian, h.preMad.1, h.positiveFloor.1, h.relativeFloor.1, h.scale.1,
    h.signedScore, h.suspicionScore.1⟩

theorem Parsing.EvaluationOk.finite {e : SignalEvaluation F} (h : EvaluationOk policy e) :
    EvaluationFinite e :=
  ⟨h.floor.1, fun c hc => (h.candidate c hc).finite⟩

variable [LawfulPyFloat F]

/-- A checked candidate equals itself. -/
theorem Parsing.CandidateOk.eq_self {k : SignalKey} {m n : Int} {floor : F} {c : SuspicionCandidate F}
    (h : CandidateOk policy k m n floor c) : c.eq c = true := by
  simp [SuspicionCandidate.eq, LawfulPyFloat.le_refl h.preMedian,
    LawfulPyFloat.le_refl h.postMedian, LawfulPyFloat.le_refl h.preMad.1,
    LawfulPyFloat.le_refl h.positiveFloor.1, LawfulPyFloat.le_refl h.relativeFloor.1,
    LawfulPyFloat.le_refl h.scale.1, LawfulPyFloat.le_refl h.signedScore,
    LawfulPyFloat.le_refl h.suspicionScore.1]

/-- What holds of the ranked candidates of checked evaluations. -/
structure RankedOk (candidates : List (SuspicionCandidate F)) : Prop where
  self : ∀ c ∈ candidates, c.eq c = true
  score : ∀ c ∈ candidates, FiniteNonnegative c.suspicionScore
  key : ∀ c ∈ candidates, TextIdentifier.Valid c.signalKey
  sorted : candidates.Pairwise fun a b => le b.suspicionScore a.suspicionScore = true

theorem rankedOk {evaluations : List (SignalEvaluation F)}
    (h : ∀ e ∈ evaluations, EvaluationOk policy e) : RankedOk (rankedCandidates evaluations) := by
  have hcand : ∀ c ∈ rankedCandidates evaluations,
      ∃ k m n floor, CandidateOk policy k m n floor c := by
    intro c hc
    obtain ⟨e, he, hec⟩ := mem_rankedCandidates.mp hc
    exact ⟨_, _, _, _, (h e he).candidate c hec⟩
  refine ⟨?_, ?_, ?_, pairwise_rankedCandidates ?_⟩
  · intro c hc
    obtain ⟨k, m, n, floor, hok⟩ := hcand c hc
    exact hok.eq_self
  · intro c hc
    obtain ⟨k, m, n, floor, hok⟩ := hcand c hc
    exact hok.suspicionScore
  · intro c hc
    obtain ⟨k, m, n, floor, hok⟩ := hcand c hc
    exact hok.key
  · intro e he c hec
    exact ((h e he).candidate c hec).suspicionScore.1

theorem Decisions.agrees_self {v : Option F}
    (h : ∀ x, v = some x → isFinite x = true ∧ lt x zero = false) : Agrees v v := by
  refine ⟨h, ?_⟩
  cases v with
  | none => rfl
  | some x => exact PyFloat.eq_refl (h x rfl).1

/-- The numbers of the expected decision are finite and not negative. -/
theorem expectedDecision_nonneg {candidates : List (SuspicionCandidate F)}
    (h : RankedOk candidates) {x : F} :
    ((expectedDecision policy candidates).topScore = some x ∨
      (expectedDecision policy candidates).secondScore = some x ∨
      (expectedDecision policy candidates).lead = some x) →
    isFinite x = true ∧ lt x zero = false := by
  have hscore : ∀ i : Nat, candidates[i]?.map (·.suspicionScore) = some x →
      isFinite x = true ∧ lt x zero = false := by
    intro i hx
    obtain ⟨c, hc, rfl⟩ := Option.map_eq_some_iff.mp hx
    exact finiteNonnegative_iff.mp (h.score c (List.mem_of_getElem? hc))
  rintro (hx | hx | hx)
  · exact hscore 0 hx
  · exact hscore 1 hx
  · match candidates, h, hx with
    | [], _, hx => simp [expectedDecision, expectedOutcome] at hx
    | [top], _, hx =>
      simp only [expectedDecision, expectedOutcome] at hx
      split at hx <;> simp at hx
    | top :: second :: rest, h, hx =>
      simp only [expectedDecision, expectedOutcome] at hx
      split at hx
      · simp at hx
      · split at hx
        · simp at hx
        · simp only [Option.some.injEq] at hx
          subst hx
          exact lead_nonneg (h.score top (by simp)) (h.score second (by simp))
            (List.rel_of_pairwise_cons h.sorted (by simp))

/-- The expected decision agrees with itself. -/
theorem decisionAgrees_self {candidates : List (SuspicionCandidate F)} (h : RankedOk candidates) :
    DecisionAgrees (expectedDecision policy candidates) (expectedDecision policy candidates) := by
  refine ⟨rfl, rfl, ?_, rfl, rfl, ?_, ?_, ?_⟩
  · intro k hk
    obtain ⟨c, hc, rfl⟩ := List.mem_map.mp hk
    exact h.key c hc
  · exact agrees_self fun x hx => expectedDecision_nonneg h (Or.inl hx)
  · exact agrees_self fun x hx => expectedDecision_nonneg h (Or.inr (Or.inl hx))
  · exact agrees_self fun x hx => expectedDecision_nonneg h (Or.inr (Or.inr hx))

end candidates

/-! ### Normalized ledgers -/

section normalized
variable {l : MetricEvidenceLedger F}

@[simp] theorem normalized_evaluations : l.normalized.evaluations = l.evaluations := by
  simp [MetricEvidenceLedger.evaluations, MetricEvidenceLedger.normalized,
    MetricShiftEvidence.evaluation]

/-- Validation repairs nothing a second time. -/
@[simp] theorem normalized_normalized : l.normalized.normalized = l.normalized := by
  have hdecision : l.normalized.rebuiltDecision = l.rebuiltDecision := by
    rw [MetricEvidenceLedger.rebuiltDecision, normalized_evaluations]
    rfl
  rw [MetricEvidenceLedger.normalized, hdecision]
  simp [MetricEvidenceLedger.normalized]

theorem MetricEvidenceLedger.Accepted.evaluationOk [FloatHex F] [Sha256] (h : l.Accepted) :
    ∀ e ∈ l.evaluations, EvaluationOk l.policy e := by
  intro e he
  obtain ⟨entry, hentry, rfl⟩ := List.mem_map.mp he
  exact (h.entries entry hentry).evaluation

variable [LawfulPyFloat F]

/-- What the validator returns is accepted. -/
theorem MetricEvidenceLedger.Accepted.normalized [FloatHex F] [Sha256] (h : l.Accepted) :
    l.normalized.Accepted where
  schemaVersion := h.schemaVersion
  tenant := h.tenant
  incident := h.incident
  run := h.run
  window := h.window
  policy := h.policy
  entries := by
    intro e he
    obtain ⟨entry, hentry, rfl⟩ := List.mem_map.mp he
    obtain ⟨hid, -, -, heval⟩ := h.entries entry hentry
    exact ⟨hid, h.policy.floor, PyFloat.eq_refl h.policy.floor.1, heval⟩
  increasing := by
    simpa [MetricEvidenceLedger.normalized, Function.comp_def] using h.increasing
  decision := by
    have hself : DecisionAgrees (expectedDecision l.policy (rankedCandidates l.evaluations))
        (expectedDecision l.policy (rankedCandidates l.evaluations)) :=
      decisionAgrees_self (rankedOk h.evaluationOk)
    rw [normalized_evaluations]
    exact { hself with lead := h.decision.lead }
  ids := by
    intro e he
    obtain ⟨entry, hentry, rfl⟩ := List.mem_map.mp he
    rw [normalized_normalized]
    exact h.ids entry hentry

/-- A returned ledger is accepted as it is. -/
theorem validate_validated [FloatHex F] [Sha256] {l' : MetricEvidenceLedger F}
    (h : validateMetricEvidenceLedger l = .ok l') : validateMetricEvidenceLedger l' = .ok l' := by
  obtain ⟨hacc, rfl⟩ := validate_eq_ok.mp h
  exact validate_eq_ok.mpr ⟨hacc.normalized, normalized_normalized.symm⟩

end normalized

/-! ### Results of the baseline -/

section baseline
variable {window : IncidentWindow} {policy : BaselinePolicy F} {item : SignalBaselineInput F}

/-- The counts of an evaluation have few digits: instants are distinct. -/
theorem printable_counts {e : SignalEvaluation F} (h : Evaluated window policy item e) :
    printableInt e.prePointCount = true ∧ printableInt e.postPointCount = true := by
  have hpoints : item.signal.points.length ≤ maxMicros := by
    have := length_le_of_increasing (List.pairwise_map.mpr item.signal.increasing)
    simpa using this
  have hmax : maxMicros < 10 ^ maxStrDigits :=
    calc maxMicros < 10 ^ 18 := by decide
      _ ≤ 10 ^ maxStrDigits := Nat.pow_le_pow_right (by decide) (by decide)
  have hpre : (preValues window item.signal).length ≤ item.signal.points.length := by
    simpa [preValues] using List.length_filter_le _ item.signal.points
  have hpost : (postValues window item.signal).length ≤ item.signal.points.length := by
    simpa [postValues] using List.length_filter_le _ item.signal.points
  constructor
  · apply printableInt_of_lt
    rw [h.preCount, Int.natAbs_natCast]
    omega
  · apply printableInt_of_lt
    rw [h.postCount, Int.natAbs_natCast]
    omega

/-- The expected decision is the one the baseline took. -/
theorem expectedDecision_rankOrAbstain (evaluations : List (SignalEvaluation F))
    (candidates : List (SuspicionCandidate F)) :
    let result := rankOrAbstain policy evaluations candidates
    let decision := expectedDecision policy candidates
    (decision.kind = .ranking ↔ ∃ r, result = .ranking r) ∧
      decision.abstentionReason = result.reason ∧ decision.topScore = result.topScore ∧
      decision.secondScore = result.secondScore ∧ decision.lead = result.lead := by
  obtain ⟨reason, hout⟩ | ⟨lead, hout⟩ := expectedOutcome_cases policy candidates
  · simp [rankOrAbstain_of_abstention hout, expectedDecision, hout, BaselineResult.reason,
      BaselineResult.topScore, BaselineResult.secondScore, BaselineResult.lead]
  · simp only [rankOrAbstain_of_ranking hout, expectedDecision, hout]
    refine ⟨by simp, rfl, rfl, rfl, ?_⟩
    rcases candidates with _ | ⟨top, _ | ⟨second, rest⟩⟩
    · simp [expectedOutcome] at hout
    · simp only [expectedOutcome] at hout
      split at hout <;> simp_all [BaselineResult.lead]
    · simp only [expectedOutcome] at hout
      split at hout
      · simp at hout
      · split at hout
        · simp at hout
        · obtain rfl : some _ = lead := by simpa using hout
          simp [BaselineResult.lead]

variable [LawfulPyFloat F]

/-- A candidate the baseline scored passes the ledger's checks. -/
theorem candidateOk_of_scored {c : SuspicionCandidate F} (hp : policy.Valid)
    (h : Scored item policy (preValues window item.signal) (postValues window item.signal) c) :
    CandidateOk policy item.signal.key (preValues window item.signal).length
      (postValues window item.signal).length item.absoluteScaleFloor c := by
  have hfin := h.finite
  simp only [List.forall_mem_cons] at hfin
  obtain ⟨hprem, hpostm, hmad, hrobust, hrel, hscale, hsigned, hsusp, -⟩ := hfin
  -- a median of absolute values
  have hmadNonneg : le zero c.preMad = true := by
    refine median_nonneg ?_ h.preMad hmad
    intro v hv
    obtain ⟨x, hx, rfl⟩ := List.mem_map.mp hv
    obtain ⟨p, _, rfl⟩ := List.mem_map.mp hx
    exact LawfulPyFloat.abs_sub_nonneg p.finite hprem
  -- the scale is a maximum over the floor, which is positive
  have hscalePos : le c.scale zero = false := by
    by_contra hle
    have hfloor : le item.absoluteScaleFloor c.scale = true := by
      have hmax := max_spec hrobust item.finite
      rw [h.scale]
      exact LawfulPyFloat.le_trans hmax.2.2 (max_spec (finite_max hrobust item.finite) hrel).2.1
    have := LawfulPyFloat.le_trans hfloor (by simpa using hle)
    simp [item.positive] at this
  have hsuspNonneg : le zero c.suspicionScore = true := by
    rw [h.suspicionScore] at hsusp ⊢
    exact LawfulPyFloat.abs_nonneg hsusp
  have hformula := h.scale
  have hdiv := h.signedScore
  rw [← h.relativeFloor, ← h.absoluteFloor] at hformula hrel
  rw [hformula] at hdiv
  exact {
    key := h.key ▸ item.signal.keyValid
    preNonneg := h.preCount ▸ Int.natCast_nonneg _
    postNonneg := h.postCount ▸ Int.natCast_nonneg _
    preMedian := hprem
    postMedian := hpostm
    preMad := ⟨hmad, hmadNonneg⟩
    positiveFloor := h.absoluteFloor ▸ ⟨item.finite, item.positive⟩
    relativeFloor := h.relativeFloor ▸ hp.floor
    scale := ⟨hscale, hscalePos⟩
    signedScore := hsigned
    suspicionScore := ⟨hsusp, hsuspNonneg⟩
    sameKey := h.key
    samePre := h.preCount
    samePost := h.postCount
    sameAbsolute := by
      rw [h.absoluteFloor]
      exact PyFloat.eq_refl item.finite
    sameRelative := by
      rw [h.relativeFloor]
      exact PyFloat.eq_refl hp.floor.1
    finiteRobust := hrobust
    finiteRelative := hrel
    scaleFormula := hformula ▸ PyFloat.eq_refl hscale
    scoreFormula := ⟨_, hdiv, hsigned, PyFloat.eq_refl hsigned⟩
    absFormula := h.suspicionScore ▸ PyFloat.eq_refl hsusp }

theorem evaluationOk_of_evaluated {e : SignalEvaluation F} (hp : policy.Valid)
    (h : Evaluated window policy item e) : EvaluationOk policy e where
  key := h.key ▸ item.signal.keyValid
  floor := h.floor ▸ ⟨item.finite, item.positive⟩
  preNonneg := h.preCount ▸ Int.natCast_nonneg _
  postNonneg := h.postCount ▸ Int.natCast_nonneg _
  eligible := by rw [h.eligible, h.preCount, h.postCount]
  isSome := h.isSome
  candidate c hc := by
    rw [h.key, h.preCount, h.postCount, h.floor]
    exact candidateOk_of_scored hp (h.candidate c hc)

/-- The evaluations of some inputs, one for each, in key order. -/
structure EvaluationsOf (window : IncidentWindow) (policy : BaselinePolicy F)
    (inputs : List (SignalBaselineInput F)) (evaluations : List (SignalEvaluation F)) : Prop where
  keys : (evaluations.map (·.signalKey)).Perm (inputs.map (·.signal.key))
  increasing : (evaluations.map (·.signalKey.value)).Pairwise (· < ·)
  evaluated : ∀ e ∈ evaluations, ∃ item ∈ inputs, Evaluated window policy item e
  complete : ∀ item ∈ inputs, ∃ e ∈ evaluations, Evaluated window policy item e

omit [LawfulPyFloat F] in
/-- A returned result evaluates its inputs and decides on them. -/
theorem rank_evaluations {inputs : List (SignalBaselineInput F)} {result : BaselineResult F}
    (h : rankMetricShifts window inputs policy = .ok result) :
    EvaluationsOf window policy inputs result.signalEvaluations ∧
      result = rankOrAbstain policy result.signalEvaluations
        (rankedCandidates result.signalEvaluations) := by
  obtain ⟨hnodup, evaluations, hforall, rfl⟩ := rankMetricShifts_eq_ok.mp h
  simp only [rankOrAbstain_signalEvaluations, and_true]
  have hkeys : evaluations.map (·.signalKey) = inputs.map (·.signal.key) := by
    clear h hnodup
    induction hforall with
    | nil => rfl
    | cons hhead _ ih => simp [hhead.key, ih]
  refine ⟨?_, ?_, ?_, ?_⟩
  · rw [← hkeys]
    exact (perm_sortedOn _ _).map _
  · refine List.pairwise_map.mpr (strict_sortedOn ?_)
    have hvalues := congrArg (List.map SignalKey.value) hkeys
    simp only [List.map_map, Function.comp_def] at hvalues
    rwa [hvalues]
  · intro e he
    obtain ⟨k, hk, rfl⟩ := List.getElem_of_mem (mem_sortedOn.mp he)
    have hk' : k < inputs.length := hforall.length_eq ▸ hk
    exact ⟨inputs[k], List.getElem_mem hk', hforall.get hk' hk⟩
  · intro item hitem
    obtain ⟨k, hk, rfl⟩ := List.getElem_of_mem hitem
    have hk' : k < evaluations.length := hforall.length_eq ▸ hk
    exact ⟨evaluations[k], mem_sortedOn.mpr (List.getElem_mem hk'), hforall.get hk hk'⟩

end baseline

/-! ### Compilation -/

section compile
variable [FloatHex F] [Sha256] [LawfulPyFloat F]

/-- **Ranked valid evaluations compile** to a ledger that holds them unchanged. -/
theorem compile_rankOrAbstain {t : TenantId} {i : IncidentId} {r : RunId} {w : IncidentWindow}
    {p : BaselinePolicy F} {evaluations : List (SignalEvaluation F)}
    {entries : List (MetricShiftEvidence F)}
    (ht : TextIdentifier.Valid t) (hi : TextIdentifier.Valid i) (hr : TextIdentifier.Valid r)
    (hw : w.Valid) (hp : p.Valid) (hevals : ∀ e ∈ evaluations, EvaluationOk p e)
    (hkeys : (evaluations.map (·.signalKey.value)).Pairwise (· < ·))
    (hbuilt : evaluations.mapM (buildEntry t i r w p
      (expectedDecision p (rankedCandidates evaluations))) = .ok entries) :
    compileMetricShiftLedger t i r w
        (rankOrAbstain p evaluations (rankedCandidates evaluations)) =
      .ok ⟨SCHEMA_VERSION, t, i, r, w, p,
        expectedDecision p (rankedCandidates evaluations), entries⟩ := by
  have hranked := rankedOk hevals
  obtain ⟨hmap, hentries⟩ := buildEntries_eq_ok.mp hbuilt
  have hsame : (entries.map fun e => { e with relativeScaleFloor := p.relativeScaleFloor }) =
      entries :=
    (rebuilt_eq rfl rfl fun e he => (hentries e he).2).symm
  obtain ⟨hnodup, -⟩ := increasing_iff.mpr hkeys
  have hsorted : sortedOn (fun e => e.signalKey.value) evaluations = evaluations :=
    sortedOn_eq_self ((List.pairwise_map.mp hkeys).imp fun hab => le_of_lt hab)
  simp only [compileMetricShiftLedger, replaceError_eq_ok, compileMetricShiftLedgerUnchecked,
    bind_eq_ok, identifier_eq_ok, window_eq_ok, policy_eq_ok, rankOrAbstain_policy,
    rankOrAbstain_signalEvaluations]
  refine ⟨_, ⟨ht, rfl⟩, _, ⟨hi, rfl⟩, _, ⟨hr, rfl⟩, _, ⟨hw, rfl⟩, _, ⟨hp, rfl⟩,
    (evaluations, rankedCandidates evaluations), ?_,
    expectedDecision p (rankedCandidates evaluations), ?_, entries, hbuilt, ?_⟩
  · exact evaluations_eq_ok.mpr ⟨hevals, hnodup, by rw [hsorted]⟩
  · exact decision_rankOrAbstain hranked.self hranked.score hranked.sorted
  -- the compiled ledger passes the validator unchanged
  · refine validate_eq_ok.mpr ⟨⟨rfl, ht, hi, hr, hw, hp, ?_, ?_, ?_, ?_⟩, ?_⟩
    · intro e he
      obtain ⟨hid, hrel⟩ := hentries e he
      refine ⟨contentId_wellFormed hid, hrel ▸ hp.floor, ?_, ?_⟩
      · rw [hrel]
        exact PyFloat.eq_refl hp.floor.1
      · exact hevals _ (hmap ▸ List.mem_map_of_mem he)
    · rw [← hmap, List.map_map] at hkeys
      exact hkeys
    · simp only [MetricEvidenceLedger.evaluations, hmap]
      exact decisionAgrees_self hranked
    · intro e he
      simpa [MetricEvidenceLedger.normalized, MetricEvidenceLedger.rebuiltDecision,
        MetricEvidenceLedger.payload, MetricEvidenceLedger.evaluations, hmap] using
        (hentries e he).1
    · simp [MetricEvidenceLedger.normalized, MetricEvidenceLedger.rebuiltDecision,
        MetricEvidenceLedger.evaluations, hmap, hsame]

/-- **What the baseline computes compiles**: the ledger holds its evaluations. -/
theorem compile_rank [LawfulFloatHex F] {tenant : TenantId} {incident : IncidentId} {run : RunId}
    {window : IncidentWindow} {inputs : List (SignalBaselineInput F)} {policy : BaselinePolicy F}
    {result : BaselineResult F}
    (htenant : TextIdentifier.Valid tenant ∧ Encodable tenant.value)
    (hincident : TextIdentifier.Valid incident ∧ Encodable incident.value)
    (hrun : TextIdentifier.Valid run ∧ Encodable run.value)
    (hwindow : window.Valid) (hpolicy : policy.Valid)
    (hkeys : ∀ item ∈ inputs, Encodable item.signal.key.value)
    (hsize : inputs.length ≤ maxsize)
    (hpoints : inputs ≠ [] → policy.minimumPointsPerWindow < 10 ^ maxStrDigits)
    (hrank : rankMetricShifts window inputs policy = .ok result) :
    ∃ entries : List (MetricShiftEvidence F),
      entries.map (·.evaluation) = result.signalEvaluations ∧
      (∀ e ∈ entries, e.relativeScaleFloor = policy.relativeScaleFloor) ∧
      compileMetricShiftLedger tenant incident run window result =
        .ok ⟨SCHEMA_VERSION, tenant, incident, run, window, policy,
          expectedDecision policy (rankedCandidates result.signalEvaluations), entries⟩ := by
  obtain ⟨hevals, hresult⟩ := rank_evaluations hrank
  obtain ⟨evaluations, hevaluations⟩ : ∃ l, l = result.signalEvaluations := ⟨_, rfl⟩
  rw [← hevaluations] at hevals hresult ⊢
  have hok : ∀ e ∈ evaluations, EvaluationOk policy e := by
    intro e he
    obtain ⟨item, _, heval⟩ := hevals.evaluated e he
    exact evaluationOk_of_evaluated hpolicy heval
  have hencodable : ∀ e ∈ evaluations, Encodable e.signalKey.value := by
    intro e he
    obtain ⟨item, hitem, heval⟩ := hevals.evaluated e he
    rw [heval.key]
    exact hkeys item hitem
  have hcount : printableInt (rankedCandidates evaluations).length = true := by
    have hlen : evaluations.length = inputs.length := by simpa using hevals.keys.length_eq
    have hfilter : (evaluations.filterMap (·.candidate)).length ≤ evaluations.length :=
      List.length_filterMap_le _ _
    refine printableInt_of_lt (lt_of_le_of_lt ?_ maxsize_lt)
    simp only [rankedCandidates, length_sortedBy, Int.natAbs_natCast]
    omega
  -- every payload can be written, so every entry gets its identifier
  have hids : ∀ e ∈ evaluations, ∃ id, contentId idDomain (entryPayload tenant incident run window
      policy (expectedDecision policy (rankedCandidates evaluations)) e) = some id := by
    intro e he
    obtain ⟨item, hitem, heval⟩ := hevals.evaluated e he
    have hfew : printableInt policy.minimumPointsPerWindow = true :=
      printableInt_of_nonneg (by linarith [hpolicy.points]) (hpoints (List.ne_nil_of_mem hitem))
    refine contentId_isSome ?_ ?_
    · refine printable_entryPayload _ _ _ _ hfew hcount (printable_counts heval).1
        (printable_counts heval).2 ?_
      intro c hc
      exact ⟨((hok e he).candidate c hc).samePre, ((hok e he).candidate c hc).samePost⟩
    · refine encodable_entryPayload _ _ htenant.2 hincident.2 hrun.2 ?_ (hencodable e he)
        fun c hc => ((hok e he).candidate c hc).sameKey
      intro k hk
      obtain ⟨c, hc, rfl⟩ := List.mem_map.mp hk
      obtain ⟨e', he', hec⟩ := mem_rankedCandidates.mp hc
      rw [((hok e' he').candidate c hec).sameKey]
      exact hencodable e' he'
  obtain ⟨entries, hbuilt⟩ := exists_entries hids
  obtain ⟨hmap, hentries⟩ := buildEntries_eq_ok.mp hbuilt
  refine ⟨entries, hmap, fun e he => (hentries e he).2, ?_⟩
  rw [hresult]
  exact compile_rankOrAbstain htenant.1 hincident.1 hrun.1 hwindow hpolicy hok hevals.increasing
    hbuilt

/-- **A compiled ledger** is accepted as it is and replays the evaluations of the
    result it was compiled from. -/
theorem compile_eq_ok {t : TenantId} {i : IncidentId} {r : RunId} {w : IncidentWindow}
    {result : BaselineResult F} {l : MetricEvidenceLedger F}
    (h : compileMetricShiftLedger t i r w result = .ok l) :
    validateMetricEvidenceLedger l = .ok l ∧ l.tenantId = t ∧ l.incidentId = i ∧ l.runId = r ∧
      l.window = w ∧ l.policy = result.policy ∧
      l.evaluations = sortedOn (fun e => e.signalKey.value) result.signalEvaluations := by
  simp only [compileMetricShiftLedger, replaceError_eq_ok, compileMetricShiftLedgerUnchecked,
    bind_eq_ok, identifier_eq_ok, window_eq_ok, policy_eq_ok, evaluations_eq_ok] at h
  obtain ⟨_, ⟨-, rfl⟩, _, ⟨-, rfl⟩, _, ⟨-, rfl⟩, _, ⟨-, rfl⟩, _, ⟨-, rfl⟩, _, ⟨-, -, rfl⟩, d, -,
    entries, hbuilt, hvalid⟩ := h
  refine ⟨validate_validated hvalid, ?_⟩
  obtain ⟨-, rfl⟩ := validate_eq_ok.mp hvalid
  refine ⟨rfl, rfl, rfl, rfl, rfl, ?_⟩
  rw [normalized_evaluations]
  exact (buildEntries_eq_ok.mp hbuilt).1

end compile

end IncidentEvidence
