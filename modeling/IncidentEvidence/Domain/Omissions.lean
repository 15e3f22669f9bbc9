import IncidentEvidence.Domain.Verdicts

/-! # Ledgers with entries left out

    An identifier commits to the aggregate decision, and the decision lists the
    ranked candidates: an eligible signal leaves its key there, an ineligible one
    leaves nothing. So a ledger from which entries were deleted is rejected
    exactly when one of them was eligible (`omission_rejected_iff`).
-/

namespace IncidentEvidence

open Py PyFloat Parsing Decisions

section omissions
variable {F : Type}

/-- The ledger with the entries of a set deleted, everything else kept. -/
def MetricEvidenceLedger.without (l : MetricEvidenceLedger F)
    (deleted : MetricShiftEvidence F → Bool) : MetricEvidenceLedger F :=
  { l with entries := l.entries.filter fun e => !deleted e }

/-- Deleting entries without candidates does not change the candidates. -/
theorem filterMap_candidate_without {entries : List (MetricShiftEvidence F)}
    {deleted : MetricShiftEvidence F → Bool}
    (hnone : ∀ e ∈ entries, deleted e = true → e.candidate = none) :
    ((entries.filter fun e => !deleted e).map (·.evaluation)).filterMap (·.candidate) =
      (entries.map (·.evaluation)).filterMap (·.candidate) := by
  induction entries with
  | nil => rfl
  | cons e entries ih =>
    have hrest := ih fun e' he' => hnone e' (List.mem_cons_of_mem e he')
    by_cases hdeleted : deleted e = true
    · have hcand : e.evaluation.candidate = none := hnone e List.mem_cons_self hdeleted
      rw [List.filter_cons_of_neg (by simp [hdeleted]), List.map_cons,
        List.filterMap_cons_none hcand]
      exact hrest
    · rw [List.filter_cons_of_pos (by simpa using hdeleted), List.map_cons, List.map_cons,
        List.filterMap_cons, List.filterMap_cons, hrest]

variable [PyFloat F] [LawfulPyFloat F] [FloatHex F] [Sha256]

omit [LawfulPyFloat F] in
/-- **An accepted ledger is still accepted without some entries** exactly when none of
    them is eligible. -/
theorem accepted_without_iff {l : MetricEvidenceLedger F} (h : l.Accepted)
    (deleted : MetricShiftEvidence F → Bool) :
    (l.without deleted).Accepted ↔ ∀ e ∈ l.entries, deleted e = true → e.eligible = false := by
  have hsub : ∀ e ∈ (l.without deleted).entries, e ∈ l.entries ∧ deleted e = false := by
    intro e he
    simpa [MetricEvidenceLedger.without] using he
  constructor
  · intro hwithout e he hdeleted
    by_contra heligible
    -- the candidate of a deleted eligible entry is still named by the decision
    obtain ⟨c, hc⟩ : ∃ c, e.candidate = some c :=
      Option.isSome_iff_exists.mp
        ((h.entries e he).evaluation.isSome.trans (Bool.eq_true_of_not_eq_false heligible))
    have hkey : c.signalKey = e.signalKey := ((h.entries e he).evaluation.candidate c hc).sameKey
    have hnamed : e.signalKey ∈ l.decision.candidateSignalKeys := by
      rw [h.decision.keys]
      exact List.mem_map.mpr ⟨c, mem_rankedCandidates.mpr ⟨_, List.mem_map_of_mem he, hc⟩, hkey⟩
    have hkept : e.signalKey ∈
        (rankedCandidates (l.without deleted).evaluations).map (·.signalKey) := by
      have hkeys := hwithout.decision.keys
      change l.decision.candidateSignalKeys = _ at hkeys
      rwa [hkeys] at hnamed
    -- so an entry of its signal was kept, and there is only one
    obtain ⟨c', hc', hkey'⟩ := List.mem_map.mp hkept
    obtain ⟨_, hmem, hcand⟩ := mem_rankedCandidates.mp hc'
    obtain ⟨e', he', rfl⟩ := List.mem_map.mp hmem
    obtain ⟨he'l, hnot⟩ := hsub e' he'
    have hsame : c'.signalKey = e'.signalKey :=
      ((h.entries e' he'l).evaluation.candidate c' hcand).sameKey
    have heq : e' = e := List.inj_on_of_nodup_map (h.increasing.imp fun hlt => ne_of_lt hlt) he'l he
      (congrArg SignalKey.value (hsame.symm.trans hkey'))
    rw [heq, hdeleted] at hnot
    cases hnot
  · intro hnone
    have hranked : rankedCandidates (l.without deleted).evaluations =
        rankedCandidates l.evaluations := by
      have hcandidates := @filterMap_candidate_without F l.entries deleted fun e he hdeleted => by
        have hisSome := (h.entries e he).evaluation.isSome
        change e.candidate.isSome = e.eligible at hisSome
        rw [hnone e he hdeleted] at hisSome
        simpa using hisSome
      show sortedBy _ _ = sortedBy _ _
      exact congrArg (sortedBy candidateLt) hcandidates
    refine ⟨h.schemaVersion, h.tenant, h.incident, h.run, h.window, h.policy, ?_, ?_, ?_, ?_⟩
    · exact fun e he => h.entries e (hsub e he).1
    · exact h.increasing.sublist (List.filter_sublist.map _)
    · rw [hranked]
      exact h.decision
    · intro e he
      have hdecision : (l.without deleted).rebuiltDecision = l.rebuiltDecision := by
        simp only [MetricEvidenceLedger.rebuiltDecision, hranked]
        rfl
      have hid := h.ids e (hsub e he).1
      simp only [MetricEvidenceLedger.payload, MetricEvidenceLedger.normalized] at hid ⊢
      rw [hdecision]
      exact hid

/-- **A compiled ledger with entries deleted is rejected exactly when one of them is
    eligible.** Ineligible entries leave no trace in what is kept. -/
theorem omission_rejected_iff {tenant : TenantId} {incident : IncidentId} {run : RunId}
    {window : IncidentWindow} {result : BaselineResult F} {l : MetricEvidenceLedger F}
    (hcompile : compileMetricShiftLedger tenant incident run window result = .ok l)
    (deleted : MetricShiftEvidence F → Bool) :
    validateMetricEvidenceLedger (l.without deleted) = .error .invalidEvidenceLedger ↔
      ∃ e ∈ l.entries, deleted e = true ∧ e.eligible = true := by
  obtain ⟨haccepted, -⟩ := validate_eq_ok.mp (compile_eq_ok hcompile).1
  have hiff := accepted_without_iff haccepted deleted
  constructor
  · intro herror
    by_contra hnone
    push Not at hnone
    have hkept := hiff.mpr fun e he hdeleted => by simpa using hnone e he hdeleted
    rw [validate_eq_ok.mpr ⟨hkept, rfl⟩] at herror
    cases herror
  · rintro ⟨e, he, hdeleted, heligible⟩
    cases hvalid : validateMetricEvidenceLedger (l.without deleted) with
    | error err =>
      simp only [validateMetricEvidenceLedger, replaceError_eq_error] at hvalid
      rw [hvalid.2]
    | ok l' =>
      have hnot := hiff.mp (validate_eq_ok.mp hvalid).1 e he hdeleted
      rw [heligible] at hnot
      cases hnot

end omissions

namespace Demo

/-- A signal with a single value after the injection: not enough to be eligible. -/
def restarts : SignalBaselineInput ExactFloat where
  signal :=
    { key := ⟨str "checkout.restarts"⟩
      keyValid := by decide
      points := [⟨at' 0 Datetime.zero_lt, .fin 1, one_finite⟩, ⟨at' 5 Datetime.five_lt, .fin 1, one_finite⟩, ⟨at' 10 Datetime.ten_lt, .fin 3, rfl⟩]
      increasing := by
        have h : [at' 0, at' 5, at' 10].Pairwise (· < ·) := by decide
        exact List.pairwise_map.mp h }
  absoluteScaleFloor := .fin 1
  finite := one_finite
  positive := one_positive

theorem restarts_ok : ∀ item ∈ [latency, restarts], Encodable item.signal.key.value := by
  intro item hitem
  simp only [List.mem_cons, List.not_mem_nil, or_false] at hitem
  rcases hitem with rfl | rfl <;> exact encodable_str _

/-- The latency moved, and the restarts were observed too rarely. -/
theorem exists_sparse : ∃ result ledger,
    rankMetricShifts window [latency, restarts] policy = .ok result ∧
    compileMetricShiftLedger tenant incident run window result = .ok ledger ∧
    EvaluationsOf window policy [latency, restarts] ledger.evaluations := by
  obtain ⟨result, hrank⟩ := exists_rank window [latency, restarts] policy_ok (by decide)
  obtain ⟨entries, hmap, -, hcompile⟩ := compile_rank tenant_ok incident_ok run_ok (by decide)
    policy_ok restarts_ok (by decide) (fun _ => two_lt_limit) hrank
  refine ⟨result, _, hrank, hcompile, ?_⟩
  rw [MetricEvidenceLedger.evaluations, hmap]
  exact (rank_evaluations hrank).1

end Demo

open Demo in
/-- Without the entry of the latency the ledger is rejected. -/
theorem omission_rejected_iff_demo : ∃ result ledger,
    rankMetricShifts window [latency, restarts] policy = .ok result ∧
    compileMetricShiftLedger tenant incident run window result = .ok ledger ∧
    validateMetricEvidenceLedger (ledger.without fun e => e.signalKey = latency.signal.key) =
      .error .invalidEvidenceLedger := by
  obtain ⟨result, ledger, hrank, hcompile, hevals⟩ := exists_sparse
  refine ⟨result, ledger, hrank, hcompile, (omission_rejected_iff hcompile _).mpr ?_⟩
  obtain ⟨_, hmem, heval⟩ := hevals.complete latency (by simp)
  obtain ⟨e, he, rfl⟩ := List.mem_map.mp hmem
  have henough : Exact.Enough window policy latency := ⟨by decide +kernel, by decide +kernel⟩
  exact ⟨e, he, by simpa using heval.key, (enough_iff heval).mpr henough⟩

open Demo in
/-- Without the entry of the restarts it is accepted. -/
theorem omission_accepted : ∃ result ledger,
    rankMetricShifts window [latency, restarts] policy = .ok result ∧
    compileMetricShiftLedger tenant incident run window result = .ok ledger ∧
    (∃ e ∈ ledger.entries, e.signalKey = restarts.signal.key) ∧
    ∃ ledger', validateMetricEvidenceLedger
      (ledger.without fun e => e.signalKey = restarts.signal.key) = .ok ledger' := by
  obtain ⟨result, ledger, hrank, hcompile, hevals⟩ := exists_sparse
  obtain ⟨haccepted, -⟩ := validate_eq_ok.mp (compile_eq_ok hcompile).1
  refine ⟨result, ledger, hrank, hcompile, ?_, _, validate_eq_ok.mpr ⟨?_, rfl⟩⟩
  · obtain ⟨_, hmem, heval⟩ := hevals.complete restarts (by simp)
    obtain ⟨e, he, rfl⟩ := List.mem_map.mp hmem
    exact ⟨e, he, heval.key⟩
  · rw [accepted_without_iff haccepted]
    intro e he hdeleted
    obtain ⟨item, hitem, heval⟩ := hevals.evaluated e.evaluation (List.mem_map_of_mem he)
    have hkey : item.signal.key = restarts.signal.key :=
      heval.key.symm.trans (by simpa using hdeleted)
    have hfew : ¬ Exact.Enough window policy item := by
      simp only [List.mem_cons, List.not_mem_nil, or_false] at hitem
      rcases hitem with rfl | rfl
      · exact absurd hkey (by decide)
      · intro henough
        exact absurd henough.2 (by decide +kernel)
    rw [Bool.eq_false_iff]
    exact fun heligible => hfew ((enough_iff heval).mp heligible)

end IncidentEvidence
