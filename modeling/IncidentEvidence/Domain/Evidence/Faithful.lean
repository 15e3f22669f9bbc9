import IncidentEvidence.Py.ExactHex
import IncidentEvidence.Domain.Evidence.Compiled

/-! # The compiler, the validator and the baseline

    Two results about whole ledgers. In exact arithmetic the validator accepts
    exactly what the compiler can produce, and returns it as it is. And in any
    lawful arithmetic the compiler records every result of the baseline
    faithfully, as long as its integers can be written in decimal.
-/

namespace IncidentEvidence

open Py PyFloat Parsing Decisions Identity

/-! ### The validator accepts the compiler's image -/

section image
variable {F : Type} [PyFloat F] [ExactPyFloat F]

theorem Decisions.Agrees.eq {supplied expected : Option F} (h : Agrees supplied expected) :
    supplied = expected := by
  obtain ⟨-, heq⟩ := h
  match supplied, expected with
  | none, none => rfl
  | some a, some b => rw [ExactPyFloat.eq_of_eq heq]
  | none, some _ => exact absurd heq (by simp [optionEq])
  | some _, none => exact absurd heq (by simp [optionEq])

variable [FloatHex F] [Sha256]

/-- With one zero, validation changes nothing. -/
theorem normalized_eq {l : MetricEvidenceLedger F} (h : l.Accepted) : l.normalized = l := by
  have hdecision : l.rebuiltDecision = l.decision := by
    obtain ⟨hkind, hreason, -, hkeys, hcount, htop, hsecond, -⟩ := h.decision
    have htop := htop.eq
    have hsecond := hsecond.eq
    simp only [MetricEvidenceLedger.rebuiltDecision]
    cases hd : l.decision
    simp_all
  have hentries : (l.entries.map fun e =>
      { e with relativeScaleFloor := l.policy.relativeScaleFloor }) = l.entries := by
    refine (rebuilt_eq rfl rfl fun e he => ?_).symm
    exact ExactPyFloat.eq_of_eq (h.entries e he).sameRelative
  simp only [MetricEvidenceLedger.normalized, hdecision, hentries]

variable [LawfulPyFloat F]

/-- A ledger the validator accepts is compiled from its own evaluations. -/
theorem compile_of_accepted {l : MetricEvidenceLedger F} (h : l.Accepted) :
    compileMetricShiftLedger l.tenantId l.incidentId l.runId l.window
      (rankOrAbstain l.policy l.evaluations (rankedCandidates l.evaluations)) = .ok l := by
  have hnorm := normalized_eq h
  have hdecision : expectedDecision l.policy (rankedCandidates l.evaluations) = l.decision := by
    obtain ⟨hkind, hreason, -, hkeys, hcount, htop, hsecond, hlead⟩ := h.decision
    have htop := htop.eq
    have hsecond := hsecond.eq
    have hlead := hlead.eq
    cases hd : l.decision
    cases he : expectedDecision l.policy (rankedCandidates l.evaluations)
    simp_all
  have hbuilt : l.evaluations.mapM (buildEntry l.tenantId l.incidentId l.runId l.window l.policy
      (expectedDecision l.policy (rankedCandidates l.evaluations))) = .ok l.entries := by
    refine buildEntries_eq_ok.mpr ⟨rfl, fun e he => ⟨?_, ?_⟩⟩
    · rw [hdecision]
      have := h.ids e he
      rwa [hnorm] at this
    · exact ExactPyFloat.eq_of_eq (h.entries e he).sameRelative
  rw [compile_rankOrAbstain h.tenant h.incident h.run h.window h.policy h.evaluationOk
    (by simpa [MetricEvidenceLedger.evaluations, Function.comp_def] using h.increasing) hbuilt,
    hdecision, ← h.schemaVersion]

end image

/-- **The validator accepts exactly the compiler's image and never repairs.** -/
theorem validate_iff_compiled [FloatHex ExactFloat] [Sha256] (l : MetricEvidenceLedger ExactFloat) :
    ((∃ l', validateMetricEvidenceLedger l = .ok l') ↔
      ∃ result, compileMetricShiftLedger l.tenantId l.incidentId l.runId l.window result = .ok l) ∧
    ∀ l', validateMetricEvidenceLedger l = .ok l' → l' = l := by
  have hsame : ∀ {m m' : MetricEvidenceLedger ExactFloat},
      validateMetricEvidenceLedger m = .ok m' → m.Accepted ∧ m' = m := by
    intro m m' h
    obtain ⟨hacc, rfl⟩ := validate_eq_ok.mp h
    exact ⟨hacc, normalized_eq hacc⟩
  refine ⟨⟨?_, ?_⟩, fun l' h => (hsame h).2⟩
  · rintro ⟨l', h⟩
    exact ⟨_, compile_of_accepted (hsame h).1⟩
  · rintro ⟨result, h⟩
    exact ⟨l, (compile_eq_ok h).1⟩

/-! ### The compiler records the baseline -/

section baseline
variable {F : Type} [PyFloat F] {window : IncidentWindow}
  {policy : BaselinePolicy F} {item : SignalBaselineInput F}

/-- A ledger that records a result of the baseline on some inputs. -/
structure MetricEvidenceLedger.Records (ledger : MetricEvidenceLedger F) (window : IncidentWindow)
    (inputs : List (SignalBaselineInput F)) (policy : BaselinePolicy F)
    (result : BaselineResult F) : Prop where
  increasing : (ledger.entries.map (·.signalKey.value)).Pairwise (· < ·)
  keys : (ledger.entries.map (·.signalKey)).Perm (inputs.map (·.signal.key))
  evaluations : ledger.entries.map (·.evaluation) = result.signalEvaluations
  entry : ∀ item ∈ inputs, ∃ e ∈ ledger.entries, Evaluated window policy item e.evaluation
  relativeFloor : ∀ e ∈ ledger.entries, e.relativeScaleFloor = policy.relativeScaleFloor
  kind : ledger.decision.kind = .ranking ↔ ∃ r, result = .ranking r
  reason : ledger.decision.abstentionReason = result.reason
  candidates : ledger.decision.candidateSignalKeys = result.candidates.map (·.signalKey)
  eligibleCount : ledger.decision.eligibleSignalCount = result.candidates.length
  topScore : ledger.decision.topScore = result.topScore
  secondScore : ledger.decision.secondScore = result.secondScore
  lead : ledger.decision.lead = result.lead

end baseline

/-- **The compiler records every baseline result faithfully.** -/
theorem compile_faithful {F : Type} [PyFloat F] [LawfulPyFloat F] [FloatHex F] [LawfulFloatHex F]
    [Sha256] {tenant : TenantId} {incident : IncidentId} {run : RunId} {window : IncidentWindow}
    {inputs : List (SignalBaselineInput F)} {policy : BaselinePolicy F} {result : BaselineResult F}
    (htenant : TextIdentifier.Valid tenant ∧ Encodable tenant.value)
    (hincident : TextIdentifier.Valid incident ∧ Encodable incident.value)
    (hrun : TextIdentifier.Valid run ∧ Encodable run.value)
    (hwindow : window.Valid) (hpolicy : policy.Valid)
    (hkeys : ∀ item ∈ inputs, Encodable item.signal.key.value)
    (hsize : inputs.length ≤ maxsize)
    (hpoints : inputs ≠ [] → policy.minimumPointsPerWindow < 10 ^ maxStrDigits)
    (hrank : rankMetricShifts window inputs policy = .ok result) :
    ∃ ledger, compileMetricShiftLedger tenant incident run window result = .ok ledger ∧
      ledger.Records window inputs policy result := by
  obtain ⟨entries, hmap, hrel, hcompile⟩ := compile_rank htenant hincident hrun hwindow hpolicy
    hkeys hsize hpoints hrank
  refine ⟨_, hcompile, ?_⟩
  obtain ⟨hevals, hresult⟩ := rank_evaluations hrank
  -- the decision of the ledger is the one the baseline has taken
  obtain ⟨hkind, hreason, htop, hsecond, hlead⟩ :=
    @expectedDecision_rankOrAbstain F _ policy result.signalEvaluations
      (rankedCandidates result.signalEvaluations)
  rw [← hresult] at hkind hreason htop hsecond hlead
  have hcandidates : result.candidates = rankedCandidates result.signalEvaluations := by
    rw [hresult, rankOrAbstain_candidates, rankOrAbstain_signalEvaluations]
  have hentryKeys : entries.map (·.signalKey) = result.signalEvaluations.map (·.signalKey) := by
    rw [← hmap, List.map_map]
    rfl
  exact {
    increasing := by
      have hvalues := congrArg (List.map SignalKey.value) hentryKeys
      simp only [List.map_map, Function.comp_def] at hvalues
      rw [hvalues]
      exact hevals.increasing
    keys := by
      rw [hentryKeys]
      exact hevals.keys
    evaluations := hmap
    entry := by
      intro item hitem
      obtain ⟨e, he, heval⟩ := hevals.complete item hitem
      rw [← hmap] at he
      obtain ⟨entry, hentry, rfl⟩ := List.mem_map.mp he
      exact ⟨entry, hentry, heval⟩
    relativeFloor := hrel
    kind := hkind
    reason := hreason
    candidates := by rw [hcandidates]; rfl
    eligibleCount := by rw [hcandidates]; rfl
    topScore := htop
    secondScore := hsecond
    lead := hlead }

namespace Demo

def tenant : TenantId := ⟨str "acme"⟩
def incident : IncidentId := ⟨str "INC-7"⟩
def run : RunId := ⟨str "run-1"⟩

theorem tenant_ok : TextIdentifier.Valid tenant ∧ Encodable tenant.value :=
  ⟨by decide, encodable_str _⟩

theorem incident_ok : TextIdentifier.Valid incident ∧ Encodable incident.value :=
  ⟨by decide, encodable_str _⟩

theorem run_ok : TextIdentifier.Valid run ∧ Encodable run.value :=
  ⟨by decide, encodable_str _⟩

theorem policy_ok : policy.Valid := by
  refine ⟨by decide, ?_, ?_, ?_⟩ <;> decide +kernel

theorem keys_ok : ∀ item ∈ [latency, errors], Encodable item.signal.key.value := by
  intro item hitem
  simp only [List.mem_cons, List.not_mem_nil, or_false] at hitem
  rcases hitem with rfl | rfl <;> exact encodable_str _

theorem two_lt_limit : (2 : Int) < 10 ^ maxStrDigits :=
  calc (2 : Int) < 10 ^ 1 := by decide
    _ ≤ 10 ^ maxStrDigits := pow_le_pow_right₀ (by decide) (by decide)

end Demo

open Demo in
/-- The two signals of the small incident compile. -/
theorem compile_faithful_demo : ∃ result ledger,
    rankMetricShifts window [latency, errors] policy = .ok result ∧
    compileMetricShiftLedger tenant incident run window result = .ok ledger ∧
    ledger.Records window [latency, errors] policy result := by
  obtain ⟨result, hrank⟩ : ∃ result, rankMetricShifts window [latency, errors] policy = .ok result :=
    exists_of_isOk (by decide +kernel)
  obtain ⟨ledger, hledger⟩ := compile_faithful tenant_ok incident_ok run_ok (by decide) policy_ok
    keys_ok (by decide) (fun _ => two_lt_limit) hrank
  exact ⟨result, ledger, hrank, hledger⟩

/-- A policy whose minimum has too many digits has no ledger with entries. -/
theorem compile_ok_points {F : Type} [PyFloat F] [LawfulPyFloat F] [FloatHex F] [Sha256]
    {tenant : TenantId} {incident : IncidentId} {run : RunId} {window : IncidentWindow}
    {result : BaselineResult F} {ledger : MetricEvidenceLedger F}
    (hne : result.signalEvaluations ≠ [])
    (h : compileMetricShiftLedger tenant incident run window result = .ok ledger) :
    printableInt result.policy.minimumPointsPerWindow = true := by
  simp only [compileMetricShiftLedger, replaceError_eq_ok, compileMetricShiftLedgerUnchecked,
    bind_eq_ok, policy_eq_ok, evaluations_eq_ok] at h
  obtain ⟨_, -, _, -, _, -, _, -, _, ⟨-, rfl⟩, _, ⟨-, -, rfl⟩, d, -, entries, hbuilt, -⟩ := h
  obtain ⟨hmap, hentries⟩ := buildEntries_eq_ok.mp hbuilt
  have hentries' : entries ≠ [] := by
    rintro rfl
    have hlen := congrArg List.length hmap
    simp only [List.map_nil, List.length_nil] at hlen
    have := (perm_sortedOn (fun e => e.signalKey.value) result.signalEvaluations).length_eq
    exact hne (List.length_eq_zero_iff.mp (by omega))
  obtain ⟨e, he⟩ := List.exists_mem_of_ne_nil _ hentries'
  obtain ⟨m, hm, -⟩ := Option.map_eq_some_iff.mp (hentries e he).1
  have hprint := (contentMessage_eq_some.mp hm).1
  -- the policy is a member of the payload, its minimum a member of the policy
  have hpolicy := printableFields_iff.mp hprint (str "policy", policyPayload result.policy)
    (by simp)
  exact printableFields_iff.mp hpolicy
    (str "minimum_points_per_window", .int result.policy.minimumPointsPerWindow) (by simp)

open Demo in
/-- With 10^4300 as the minimum number of points the baseline abstains, but its
    result does not compile. -/
theorem compile_rejects_huge_minimum : ∃ result,
    rankMetricShifts window [latency]
      { policy with minimumPointsPerWindow := (10 ^ maxStrDigits : Nat) } = .ok result ∧
    compileMetricShiftLedger tenant incident run window result =
      .error .invalidEvidenceLedger := by
  obtain ⟨result, hrank⟩ : ∃ result, rankMetricShifts window [latency]
      { policy with minimumPointsPerWindow := (10 ^ maxStrDigits : Nat) } = .ok result :=
    exists_of_isOk (by decide +kernel)
  refine ⟨result, hrank, ?_⟩
  obtain ⟨-, evaluations, hforall, hresult⟩ := rankMetricShifts_eq_ok.mp hrank
  have hne : result.signalEvaluations ≠ [] := by
    rw [hresult, rankOrAbstain_signalEvaluations]
    intro hnil
    have hlen := (perm_sortedOn (fun e => e.signalKey.value) evaluations).length_eq
    rw [hnil, ← hforall.length_eq] at hlen
    simp at hlen
  cases hc : compileMetricShiftLedger tenant incident run window result with
  | error e =>
    simp only [compileMetricShiftLedger, replaceError_eq_error] at hc
    rw [hc.2]
  | ok ledger =>
    have hprint := compile_ok_points hne hc
    rw [hresult, rankOrAbstain_policy] at hprint
    have hlt : ((10 ^ maxStrDigits : Nat) : Int).natAbs < 10 ^ maxStrDigits :=
      of_decide_eq_true hprint
    rw [Int.natAbs_natCast] at hlt
    exact absurd hlt (lt_irrefl _)

end IncidentEvidence
