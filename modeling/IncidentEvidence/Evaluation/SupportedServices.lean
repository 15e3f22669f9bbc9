import IncidentEvidence.Application.Pipeline
import IncidentEvidence.Domain.Evidence.Binding
import IncidentEvidence.Evaluation.Summaries

/-! # The services that the LLM arm predicts

    The LLM arm goes from the evidence ids of a verification back to signals, and sorts them
    by a table of scores that it builds itself. What comes out are the services of the
    supported signals, in the order in which the baseline ranks its candidates
    (`llm_arm_predicts_supported`).

    Two things make that work. An id leads back to one entry, since ids bind their content;
    and the table of scores agrees with the candidates of the baseline. -/

namespace IncidentEvidence

open Py

/-! ### First occurrences -/

theorem mem_dedupFrom {seen services : List Str} {s : Str} :
    s ∈ dedupFrom seen services ↔ s ∈ services ∧ s ∉ seen := by
  induction services generalizing seen with
  | nil => simp [dedupFrom]
  | cons service services ih =>
    unfold dedupFrom
    by_cases hseen : service ∈ seen
    · rw [if_pos hseen, ih, List.mem_cons]
      constructor
      · intro h
        exact ⟨.inr h.1, h.2⟩
      · intro h
        refine ⟨h.1.resolve_left ?_, h.2⟩
        intro heq
        exact h.2 (heq ▸ hseen)
    · rw [if_neg hseen, List.mem_cons, ih, List.mem_cons]
      by_cases heq : s = service
      · simp [heq, hseen]
      · simp [heq]

/-- `_dedup` keeps the elements. -/
@[simp] theorem mem_dedup {services : List Str} {s : Str} : s ∈ dedup services ↔ s ∈ services := by
  simp [dedup, mem_dedupFrom]

theorem dedup_eq_nil {services : List Str} : dedup services = [] ↔ services = [] := by
  simp only [List.eq_nil_iff_forall_not_mem, mem_dedup]

/-! ### Sorting keys as the baseline sorts candidates -/

section keys
variable {F : Type} [PyFloat F] {entries : List (MetricShiftEvidence F)}

omit [PyFloat F] in
/-- A key that was collected is that of an entry with one of the ids. -/
theorem mem_supportedKeys {seen : List Str} {ids : List EvidenceId} {key : SignalKey} :
    key ∈ supportedKeys entries seen ids ↔ key.value ∉ seen ∧
      ∃ id ∈ ids, ∃ entry, entryById entries id = some entry ∧ entry.signalKey = key := by
  induction ids generalizing seen with
  | nil => simp [supportedKeys]
  | cons id ids ih =>
    unfold supportedKeys
    cases hentry : entryById entries id with
    | none =>
      simp only [ih, List.exists_mem_cons_iff, hentry, reduceCtorEq, false_and, exists_false,
        false_or]
    | some entry =>
      simp only [List.exists_mem_cons_iff, hentry, Option.some.injEq, exists_eq_left']
      by_cases hseen : entry.signalKey.value ∈ seen
      · rw [if_pos hseen, ih]
        constructor
        · intro h
          exact ⟨h.1, .inr h.2⟩
        · intro h
          refine ⟨h.1, h.2.resolve_left ?_⟩
          intro heq
          exact h.1 (heq ▸ hseen)
      · rw [if_neg hseen, List.mem_cons, ih, List.mem_cons]
        by_cases heq : entry.signalKey = key
        · simp [heq, heq ▸ hseen]
        · have hvalue : key.value ≠ entry.signalKey.value :=
            fun h => heq (congrArg SignalKey.mk h.symm)
          have hkey : key ≠ entry.signalKey := fun h => heq h.symm
          simp [heq, hvalue, hkey]

omit [PyFloat F] in
theorem nodup_supportedKeys {seen : List Str} {ids : List EvidenceId} :
    (supportedKeys entries seen ids).Nodup := by
  induction ids generalizing seen with
  | nil => exact List.nodup_nil
  | cons id ids ih =>
    unfold supportedKeys
    cases entryById entries id with
    | none => exact ih
    | some entry =>
      simp only
      by_cases hseen : entry.signalKey.value ∈ seen
      · rw [if_pos hseen]
        exact ih
      · rw [if_neg hseen, List.nodup_cons]
        refine ⟨?_, ih⟩
        intro hmem
        exact (mem_supportedKeys.mp hmem).1 List.mem_cons_self

/-- The table of scores holds the score of a candidate of an entry. -/
theorem suspicion_eq {entry : MetricShiftEvidence F} {candidate : SuspicionCandidate F}
    (hentry : bySignal entries candidate.signalKey = some entry)
    (hcandidate : entry.candidate = some candidate) :
    suspicion entries candidate.signalKey = candidate.suspicionScore := by
  simp only [suspicion, hentry, hcandidate]

/-- Keys compare as their candidates do. -/
theorem keyLt_eq {a b : SuspicionCandidate F}
    (ha : suspicion entries a.signalKey = a.suspicionScore)
    (hb : suspicion entries b.signalKey = b.suspicionScore) :
    keyLt entries a.signalKey b.signalKey = candidateLt a b := by
  unfold keyLt candidateLt
  rw [ha, hb]

variable [LawfulPyFloat F]

/-- Keys sorted by the table of scores come in the order of their ranked candidates. -/
theorem sorted_keys_eq {evaluations : List (SignalEvaluation F)} {keys : List SignalKey}
    {supported : SignalKey → Bool} (hkeys : keys.Nodup)
    (hfinite : ∀ c ∈ rankedCandidates evaluations, PyFloat.isFinite c.suspicionScore = true)
    (hscore : ∀ c ∈ rankedCandidates evaluations,
      suspicion entries c.signalKey = c.suspicionScore)
    (hdistinct : ((rankedCandidates evaluations).map (·.signalKey)).Nodup)
    (hmem : ∀ key, key ∈ keys ↔
      ∃ c ∈ rankedCandidates evaluations, supported c.signalKey = true ∧ c.signalKey = key) :
    sortedBy (keyLt entries) keys =
      ((rankedCandidates evaluations).filter fun c => supported c.signalKey).map (·.signalKey) := by
  have hordered := orderedOn_candidateLt hfinite
  have hcandidate : ∀ key ∈ keys, ∃ c ∈ rankedCandidates evaluations, c.signalKey = key := by
    intro key hkey
    obtain ⟨c, hc, -, heq⟩ := (hmem key).mp hkey
    exact ⟨c, hc, heq⟩
  -- the keys are ordered as the candidates they come from
  have hkeysOrdered : OrderedOn (keyLt entries) keys := by
    constructor
    · intro a ha b hb
      obtain ⟨c, hc, rfl⟩ := hcandidate a ha
      obtain ⟨d, hd, rfl⟩ := hcandidate b hb
      rw [keyLt_eq (hscore c hc) (hscore d hd), keyLt_eq (hscore d hd) (hscore c hc)]
      exact hordered.total c hc d hd
    · intro a ha b hb e he
      obtain ⟨c, hc, rfl⟩ := hcandidate a ha
      obtain ⟨d, hd, rfl⟩ := hcandidate b hb
      obtain ⟨f, hf, rfl⟩ := hcandidate e he
      rw [keyLt_eq (hscore d hd) (hscore c hc), keyLt_eq (hscore f hf) (hscore d hd),
        keyLt_eq (hscore f hf) (hscore c hc)]
      exact hordered.trans c hc d hd f hf
  have hranked : (((rankedCandidates evaluations).filter fun c =>
      supported c.signalKey).map (·.signalKey)).Pairwise fun a b => keyLt entries b a = false := by
    have hsorted : (rankedCandidates evaluations).Pairwise fun a b => candidateLt b a = false := by
      apply pairwise_sortedBy
      apply orderedOn_candidateLt
      intro c hc
      exact hfinite c (mem_sortedBy.mpr hc)
    refine List.pairwise_map.mpr ((hsorted.filter _).imp_of_mem ?_)
    intro c d hc hd hcd
    rw [keyLt_eq (hscore d (List.mem_filter.mp hd).1) (hscore c (List.mem_filter.mp hc).1)]
    exact hcd
  have hperm : keys.Perm (((rankedCandidates evaluations).filter fun c =>
      supported c.signalKey).map (·.signalKey)) := by
    apply (List.perm_ext_iff_of_nodup hkeys (hdistinct.sublist
      (List.Sublist.map _ List.filter_sublist))).mpr
    intro key
    rw [hmem, List.mem_map]
    constructor
    · intro h
      obtain ⟨c, hc, hsupported, heq⟩ := h
      exact ⟨c, List.mem_filter.mpr ⟨hc, hsupported⟩, heq⟩
    · intro h
      obtain ⟨c, hc, heq⟩ := h
      exact ⟨c, (List.mem_filter.mp hc).1, (List.mem_filter.mp hc).2, heq⟩
  apply List.Perm.eq_of_pairwise _ (pairwise_sortedBy hkeysOrdered) hranked
    ((perm_sortedBy _ keys).trans hperm)
  -- two keys that neither comparison puts first have one value
  intro a b ha hb hab hba
  obtain ⟨c, hc, rfl⟩ := hcandidate a (mem_sortedBy.mp ha)
  obtain ⟨d, hd, rfl⟩ := List.mem_map.mp hb
  have hd := (List.mem_filter.mp hd).1
  rw [keyLt_eq (hscore d hd) (hscore c hc), candidateLt_eq_false (hfinite c hc) (hfinite d hd)] at hab
  rw [keyLt_eq (hscore c hc) (hscore d hd), candidateLt_eq_false (hfinite d hd) (hfinite c hc)] at hba
  exact congrArg SignalKey.mk (le_antisymm (hab.2 hba.1) (hba.2 hab.1))

end keys

/-! ### From ids to entries -/

section entries
variable {F : Type} [PyFloat F] {entries : List (MetricShiftEvidence F)}

omit [PyFloat F] in
theorem isSome_entryById {entry : MetricShiftEvidence F} (h : entry ∈ entries) :
    (entryById entries entry.evidenceId).isSome = true := by
  apply List.find?_isSome.mpr
  exact ⟨entry, List.mem_reverse.mpr h, by simp⟩

omit [PyFloat F] in
/-- Where an id is that of one entry, it leads back to it. -/
theorem entryById_eq {entry : MetricShiftEvidence F} (h : entry ∈ entries)
    (hunique : ∀ a ∈ entries, ∀ b ∈ entries, a.evidenceId = b.evidenceId → a = b) :
    entryById entries entry.evidenceId = some entry := by
  obtain ⟨found, hfound⟩ := Option.isSome_iff_exists.mp (isSome_entryById h)
  have hmem := List.mem_reverse.mp (List.mem_of_find?_eq_some hfound)
  have hid : found.evidenceId = entry.evidenceId := by simpa using List.find?_some hfound
  rw [hfound, hunique found hmem entry h hid]

end entries

/-! ### What a verification supports -/

section verification
variable {F : Type} [PyFloat F]

/-- The signal of a predicate whose verdict is supported. -/
def SupportedSignal (document : HypothesisDocument) (verification : HypothesisVerificationResult F)
    (key : SignalKey) : Bool :=
  (document.predicates.zip verification.predicateResults).any fun (predicate, result) =>
    decide (predicate.signalKey = key ∧ result.verdict = .supported)

/-- A supported predicate cites the entry of its signal, which has a candidate; any other
    cites nothing in support. -/
structure CitesSupport (entry : Option (MetricShiftEvidence F))
    (result : PredicateVerificationResult F) : Prop where
  supported : result.verdict = .supported → ∃ e c, entry = some e ∧ e.candidate = some c ∧
    result.supportingEvidenceIds = [e.evidenceId]
  other : result.verdict ≠ .supported → result.supportingEvidenceIds = []

omit [PyFloat F] in
theorem citesSupport_unknown {entry : Option (MetricShiftEvidence F)}
    {predicate : MetricShiftPredicate} {reason : UnknownReason} {minimumScore : F}
    {observed : Option ObservedDirection} :
    CitesSupport entry (unknown predicate reason minimumScore observed) :=
  ⟨fun h => absurd h (by simp [unknown]), fun _ => rfl⟩

theorem citesSupport_evaluatePredicate (predicate : MetricShiftPredicate)
    (entry : Option (MetricShiftEvidence F)) (minimumScore : F) :
    CitesSupport entry (evaluatePredicate predicate entry minimumScore) := by
  cases entry with
  | none => exact citesSupport_unknown
  | some e =>
    unfold evaluatePredicate
    cases heligible : e.eligible with
    | false =>
      simp only [heligible]
      exact citesSupport_unknown
    | true =>
      cases hcandidate : e.candidate with
      | none =>
        simp only [heligible, hcandidate]
        exact citesSupport_unknown
      | some c =>
        simp only [heligible, hcandidate]
        by_cases hstill : PyFloat.eq c.signedScore PyFloat.zero = true
        · rw [if_pos hstill]
          exact citesSupport_unknown
        · rw [if_neg hstill]
          generalize (if PyFloat.lt PyFloat.zero c.signedScore = true then
            ObservedDirection.increase else ObservedDirection.decrease) = observed
          by_cases hweak : PyFloat.lt c.suspicionScore minimumScore = true
          · rw [if_pos hweak]
            exact citesSupport_unknown
          · rw [if_neg hweak]
            by_cases hagrees : observed.value = predicate.expectedDirection.value
            · constructor
              · intro _
                exact ⟨e, c, rfl, hcandidate, by simp [hagrees]⟩
              · intro h
                exact absurd h (by simp [hagrees])
            · constructor
              · intro h
                exact absurd h (by simp [hagrees])
              · intro _
                simp [hagrees]

variable [LawfulPyFloat F] [FloatHex F] [Sha256]

/-- A document is verified on a ledger that validation leaves as it is: each predicate has a
    result, and the supporting ids are those of the results. -/
theorem exists_verification {ledger : MetricEvidenceLedger F}
    (hvalid : validateMetricEvidenceLedger ledger = .ok ledger) (document : HypothesisDocument) :
    ∃ verification, verifyHypothesis document ledger = .ok verification ∧
      ∃ judge : MetricShiftPredicate → PredicateVerificationResult F,
        verification.predicateResults = document.predicates.map judge ∧
        verification.supportingEvidenceIds =
          document.predicates.flatMap (fun p => (judge p).supportingEvidenceIds) ∧
        ∀ p, CitesSupport (bySignal ledger.entries p.signalKey) (judge p) := by
  obtain ⟨haccepted, hnormalized⟩ := validate_eq_ok.mp hvalid
  refine ⟨_, verifyHypothesis_eq_ok.mpr ⟨haccepted, rfl⟩, ?_⟩
  rw [← hnormalized]
  cases documentReason UnknownReason.contextMismatch .causalClaimNotVerifiable document
      ledger.tenantId ledger.incidentId ledger.runId with
  | none =>
    refine ⟨_, rfl, ?_, fun p => citesSupport_evaluatePredicate p _ ledger.policy.minimumScore⟩
    exact List.flatMap_map _ _ document.predicates
  | some reason =>
    refine ⟨_, rfl, ?_, fun p => citesSupport_unknown⟩
    exact List.flatMap_map _ _ document.predicates

end verification

/-! ### The prediction -/

section prediction
variable {F : Type} [PyFloat F] [LawfulPyFloat F] [FloatHex F] [LawfulFloatHex F] [Sha256]
  {window : IncidentWindow} {policy : BaselinePolicy F} {inputs : List (SignalBaselineInput F)}
  {baseline : BaselineResult F} {ledger : MetricEvidenceLedger F} {tenant : TenantId}
  {incident : IncidentId} {run : RunId}

/-- What a compiled ledger and the candidates of its baseline have to do with each other. -/
structure Compiles (baseline : BaselineResult F) (ledger : MetricEvidenceLedger F) : Prop where
  valid : validateMetricEvidenceLedger ledger = .ok ledger
  ranked : baseline.candidates = rankedCandidates ledger.evaluations
  distinct : (baseline.candidates.map (·.signalKey)).Nodup
  finite : ∀ c ∈ baseline.candidates, PyFloat.isFinite c.suspicionScore = true
  /-- An entry has the signal of its candidate. -/
  key : ∀ e ∈ ledger.entries, ∀ c, e.candidate = some c → c.signalKey = e.signalKey
  found : ∀ e ∈ ledger.entries, bySignal ledger.entries e.signalKey = some e

omit [PyFloat F] [LawfulPyFloat F] [FloatHex F] [LawfulFloatHex F] [Sha256] in
/-- The candidates of evaluations have their keys. -/
theorem sublist_candidate_keys {evaluations : List (SignalEvaluation F)}
    (hkey : ∀ e ∈ evaluations, ∀ c, e.candidate = some c → c.signalKey = e.signalKey) :
    ((evaluations.filterMap (·.candidate)).map (·.signalKey)).Sublist
      (evaluations.map (·.signalKey)) := by
  induction evaluations with
  | nil => exact List.Sublist.slnil
  | cons e evaluations ih =>
    have hrest := ih fun e' he' => hkey e' (List.mem_cons_of_mem e he')
    cases hc : e.candidate with
    | none =>
      rw [List.filterMap_cons_none hc]
      exact hrest.cons _
    | some c =>
      rw [List.filterMap_cons_some hc, List.map_cons, List.map_cons,
        hkey e List.mem_cons_self c hc]
      exact hrest.cons_cons _

omit [LawfulFloatHex F] in
theorem compiles_of_compile (hrank : rankMetricShifts window inputs policy = .ok baseline)
    (hcompile : compileMetricShiftLedger tenant incident run window baseline = .ok ledger) :
    Compiles baseline ledger := by
  obtain ⟨hevaluations, hresult⟩ := rank_evaluations hrank
  obtain ⟨hvalid, -, -, -, -, -, hledger⟩ := compile_eq_ok hcompile
  have hsorted : sortedOn (fun e => e.signalKey.value) baseline.signalEvaluations =
      baseline.signalEvaluations :=
    sortedOn_eq_self ((List.pairwise_map.mp hevaluations.increasing).imp fun hab => le_of_lt hab)
  rw [hsorted] at hledger
  have hcandidates : baseline.candidates = rankedCandidates ledger.evaluations := by
    rw [hledger, hresult]
    simp
  have hevaluated : ∀ e ∈ ledger.evaluations, ∀ c, e.candidate = some c →
      c.signalKey = e.signalKey ∧ PyFloat.isFinite c.suspicionScore = true := by
    intro e he c hc
    obtain ⟨item, -, heval⟩ := hevaluations.evaluated e (hledger ▸ he)
    have hscored := heval.candidate c hc
    exact ⟨hscored.key.trans heval.key.symm, hscored.finite _ (by simp)⟩
  obtain ⟨haccepted, -⟩ := validate_eq_ok.mp hvalid
  refine ⟨hvalid, hcandidates, ?_, ?_, ?_, ?_⟩
  · -- the candidates have the keys of their evaluations, which increase
    rw [hcandidates]
    have hkeys := sublist_candidate_keys fun e he c hc => (hevaluated e he c hc).1
    have hnodup : (ledger.evaluations.map (·.signalKey)).Nodup := by
      have hincreasing := hevaluations.increasing
      rw [← hledger] at hincreasing
      have hvalues : ((ledger.evaluations.map (·.signalKey)).map SignalKey.value).Nodup := by
        rw [List.map_map]
        exact hincreasing.imp fun hlt => ne_of_lt hlt
      exact hvalues.of_map
    have hperm := (perm_sortedBy candidateLt (ledger.evaluations.filterMap (·.candidate))).map
      (·.signalKey)
    exact hperm.nodup_iff.mpr (hnodup.sublist hkeys)
  · intro c hc
    rw [hcandidates] at hc
    obtain ⟨e, he, hec⟩ := mem_rankedCandidates.mp hc
    exact (hevaluated e he c hec).2
  · intro e he c hc
    exact (hevaluated e.evaluation (List.mem_map_of_mem he) c hc).1
  · intro e he
    exact (bySignal_eq_some haccepted.increasing).mpr ⟨he, rfl⟩

/-- **The services of a verification** are those of the supported signals, in the order of
    the baseline. -/
theorem predictionOf_eq (hcompiles : Compiles baseline ledger)
    (hfree : CollisionFree ledger.messages) {document : HypothesisDocument}
    {verification : HypothesisVerificationResult F}
    {judge : MetricShiftPredicate → PredicateVerificationResult F}
    (hresults : verification.predicateResults = document.predicates.map judge)
    (hids : verification.supportingEvidenceIds =
      document.predicates.flatMap fun p => (judge p).supportingEvidenceIds)
    (hcites : ∀ p, CitesSupport (bySignal ledger.entries p.signalKey) (judge p)) :
    let prediction := predictionOf ledger.entries verification.supportingEvidenceIds
    prediction.invalidEvidenceIdCount = 0 ∧
      (prediction.abstained = true ↔
        ∀ result ∈ verification.predicateResults, result.verdict ≠ .supported) ∧
      prediction.services = dedup ((baseline.candidates.filter fun c =>
        SupportedSignal document verification c.signalKey).map fun c =>
          serviceOf c.signalKey.value) := by
  obtain ⟨haccepted, -⟩ := validate_eq_ok.mp hcompiles.valid
  have hentryKey : ∀ {key : SignalKey} {e : MetricShiftEvidence F},
      bySignal ledger.entries key = some e → e ∈ ledger.entries ∧ e.signalKey = key :=
    fun h => (bySignal_eq_some haccepted.increasing).mp h
  have hunique : ∀ a ∈ ledger.entries, ∀ b ∈ ledger.entries, a.evidenceId = b.evidenceId → a = b :=
    fun a ha b hb hid => (entry_eq_of_id hfree hcompiles.valid hcompiles.valid subset_rfl subset_rfl
      ha hb hid).1
  -- the supporting ids are those of the entries of supported predicates
  have hsupporting : ∀ id, id ∈ verification.supportingEvidenceIds ↔
      ∃ p ∈ document.predicates, (judge p).verdict = .supported ∧
        ∃ e ∈ ledger.entries, e.signalKey = p.signalKey ∧ e.evidenceId = id := by
    intro id
    rw [hids, List.mem_flatMap]
    constructor
    · intro h
      obtain ⟨p, hp, hid⟩ := h
      by_cases hverdict : (judge p).verdict = .supported
      · obtain ⟨e, c, hentry, -, hcited⟩ := (hcites p).supported hverdict
        obtain ⟨hmem, hkey⟩ := hentryKey hentry
        rw [hcited, List.mem_singleton] at hid
        exact ⟨p, hp, hverdict, e, hmem, hkey, hid.symm⟩
      · rw [(hcites p).other hverdict] at hid
        exact absurd hid List.not_mem_nil
    · intro h
      obtain ⟨p, hp, hverdict, e, hmem, hkey, rfl⟩ := h
      obtain ⟨e', c, hentry, -, hcited⟩ := (hcites p).supported hverdict
      have hsame : e' = e := by
        rw [← hkey, hcompiles.found e hmem] at hentry
        exact (Option.some.inj hentry).symm
      refine ⟨p, hp, ?_⟩
      rw [hcited, hsame]
      exact List.mem_singleton.mpr rfl
  have hsignal : ∀ key, SupportedSignal document verification key = true ↔
      ∃ p ∈ document.predicates, (judge p).verdict = .supported ∧ p.signalKey = key := by
    intro key
    unfold SupportedSignal
    rw [hresults, ← List.map_prod_left_eq_zip, List.any_map, List.any_eq_true]
    constructor
    · intro h
      obtain ⟨p, hp, heq⟩ := h
      have hboth : p.signalKey = key ∧ (judge p).verdict = .supported := by simpa using heq
      exact ⟨p, hp, hboth.2, hboth.1⟩
    · intro h
      obtain ⟨p, hp, hverdict, hkey⟩ := h
      exact ⟨p, hp, by simp [hverdict, hkey]⟩
  -- a supported signal has an entry with a candidate
  have hcandidate : ∀ p ∈ document.predicates, (judge p).verdict = .supported →
      ∃ c ∈ baseline.candidates, c.signalKey = p.signalKey := by
    intro p _ hverdict
    obtain ⟨e, c, hentry, hc, -⟩ := (hcites p).supported hverdict
    obtain ⟨hmem, hkey⟩ := hentryKey hentry
    refine ⟨c, ?_, (hcompiles.key e hmem c hc).trans hkey⟩
    rw [hcompiles.ranked]
    exact mem_rankedCandidates.mpr ⟨e.evaluation, List.mem_map_of_mem hmem, hc⟩
  have hkeys : sortedBy (keyLt ledger.entries)
      (supportedKeys ledger.entries [] verification.supportingEvidenceIds) =
        (baseline.candidates.filter fun c =>
          SupportedSignal document verification c.signalKey).map (·.signalKey) := by
    have hfinite := hcompiles.finite
    have hdistinct := hcompiles.distinct
    rw [hcompiles.ranked] at hfinite hdistinct ⊢
    refine sorted_keys_eq nodup_supportedKeys hfinite ?_ hdistinct ?_
    · intro c hc
      obtain ⟨e, he, hec⟩ := mem_rankedCandidates.mp hc
      obtain ⟨entry, hmem, rfl⟩ := List.mem_map.mp he
      refine suspicion_eq ?_ hec
      rw [hcompiles.key entry hmem c hec]
      exact hcompiles.found entry hmem
    · intro key
      rw [mem_supportedKeys]
      constructor
      · intro h
        obtain ⟨-, id, hid, entry, hentry, rfl⟩ := h
        obtain ⟨p, hp, hverdict, e, hmem, hkey, rfl⟩ := (hsupporting id).mp hid
        rw [entryById_eq hmem hunique] at hentry
        obtain rfl := Option.some.inj hentry
        obtain ⟨c, hc, hckey⟩ := hcandidate p hp hverdict
        rw [hcompiles.ranked] at hc
        exact ⟨c, hc, (hsignal _).mpr ⟨p, hp, hverdict, hckey.symm⟩, hckey.trans hkey.symm⟩
      · intro h
        obtain ⟨c, -, hsupported, rfl⟩ := h
        obtain ⟨p, hp, hverdict, hpkey⟩ := (hsignal _).mp hsupported
        obtain ⟨e, _, hentry, -, -⟩ := (hcites p).supported hverdict
        obtain ⟨hmem, hkey⟩ := hentryKey hentry
        refine ⟨List.not_mem_nil, e.evidenceId, ?_, e, entryById_eq hmem hunique,
          hkey.trans hpkey⟩
        exact (hsupporting _).mpr ⟨p, hp, hverdict, e, hmem, hkey, rfl⟩
  have hservices : (sortedBy (keyLt ledger.entries)
      (supportedKeys ledger.entries [] verification.supportingEvidenceIds)).map
        (fun key => serviceOf key.value) =
      (baseline.candidates.filter fun c =>
        SupportedSignal document verification c.signalKey).map fun c =>
          serviceOf c.signalKey.value := by
    rw [hkeys, List.map_map]
    rfl
  refine ⟨?_, ?_, ?_⟩
  · apply List.countP_eq_zero.mpr
    intro id hid
    obtain ⟨p, -, -, e, hmem, -, rfl⟩ := (hsupporting id).mp hid
    have hsome := isSome_entryById hmem
    rw [Option.isNone_iff_eq_none]
    intro hnone
    rw [hnone] at hsome
    exact absurd hsome (by simp)
  · show (dedup _).isEmpty = true ↔ _
    rw [List.isEmpty_iff, dedup_eq_nil, hservices, List.map_eq_nil_iff, List.filter_eq_nil_iff,
      hresults]
    constructor
    · intro h result hresult hverdict
      obtain ⟨p, hp, rfl⟩ := List.mem_map.mp hresult
      obtain ⟨c, hc, hckey⟩ := hcandidate p hp hverdict
      exact h c hc ((hsignal _).mpr ⟨p, hp, hverdict, hckey.symm⟩)
    · intro h c _ hsupported
      obtain ⟨p, hp, hverdict, -⟩ := (hsignal _).mp hsupported
      exact h _ (List.mem_map_of_mem hp) hverdict
  · show dedup _ = dedup _
    rw [hservices]

/-! ### The provider -/

/-- The first attempts end in provider errors. -/
def ProviderErrors (client : LLMClient) (request : HypothesisRequest) (failures : ℕ) : Prop :=
  ∀ attempt < failures, ∃ e, client request attempt = .error (.llm e) ∧ e.isValidation = false

variable {H : Harness F} {client : LLMClient} {prepared : PreparedCase F}
  {case : InvestigationCase F}

omit [LawfulPyFloat F] [LawfulFloatHex F] in
/-- Provider errors use up attempts, and nothing else. -/
theorem attempts_after_errors {failures : ℕ}
    (h : ProviderErrors client prepared.request failures) (hmost : failures ≤ MAX_PROVIDER_RETRIES) :
    H.attempts client prepared (MAX_PROVIDER_RETRIES + 1) 0 =
      H.attempts client prepared (MAX_PROVIDER_RETRIES - failures + 1) failures := by
  induction failures with
  | zero => rfl
  | succ failures ih =>
    rw [ih (fun attempt hattempt => h attempt (Nat.lt_succ_of_lt hattempt)) (by omega)]
    obtain ⟨e, he, hvalidation⟩ := h failures (Nat.lt_succ_self failures)
    have hearly : ¬ MAX_PROVIDER_RETRIES ≤ failures := by omega
    have hleft : MAX_PROVIDER_RETRIES - failures = MAX_PROVIDER_RETRIES - (failures + 1) + 1 := by
      omega
    have hnothing : H.attempt client prepared failures = .ok none := by
      simp only [Harness.attempt, he, hvalidation, Bool.false_eq_true, hearly, or_self, if_false]
    rw [hleft, Harness.attempts, hnothing]
    rfl

omit [LawfulPyFloat F] [LawfulFloatHex F] in
/-- An attempt that ends the loop is what the arm predicts. -/
theorem predict_of_attempt (hprepared : H.prepare case = .ok prepared) {failures : ℕ}
    (h : ProviderErrors client prepared.request failures) (hmost : failures ≤ MAX_PROVIDER_RETRIES)
    {result : Except PyException Prediction}
    (hattempt : H.attempt client prepared failures = some <$> result) :
    predictServicesWithLlm H client case = result := by
  unfold predictServicesWithLlm
  rw [hprepared]
  show H.attempts client prepared (MAX_PROVIDER_RETRIES + 1) 0 = result
  rw [attempts_after_errors h hmost, Harness.attempts, hattempt]
  cases result with
  | error e => rfl
  | ok prediction => rfl

omit [LawfulPyFloat F] [LawfulFloatHex F] in
/-- A proposal that does not parse is an abstention, if the parser says so with an
    `LLMError`. -/
theorem conclude_of_parse_error {proposal : LLMProposal} {raw : Str} {e : PyException}
    (hraw : proposal.rawJson = .ok raw)
    (hparse : parseMetricHypothesis H.limits raw prepared.request.allowedSignals = .error e) :
    H.conclude prepared proposal =
      match e with
      | .llm _ => .ok .abstention
      | e => .error e := by
  have hverify : H.verifyProposal prepared proposal = .error e := by
    unfold Harness.verifyProposal
    rw [hraw]
    show (parseMetricHypothesis H.limits raw prepared.request.allowedSignals >>= _) = _
    rw [hparse]
    rfl
  unfold Harness.conclude
  rw [hverify]
  cases e <;> rfl

end prediction

/-- **The LLM arm predicts the services of the supported signals**: after at most five
    provider errors, in the order of the baseline. A rejected proposal, a validation error
    and a sixth provider error are abstentions. -/
theorem llm_arm_predicts_supported {F : Type} [PyFloat F] [LawfulPyFloat F] [FloatHex F]
    [LawfulFloatHex F] [Sha256] (H : Harness F) (client : LLMClient) {case : InvestigationCase F}
    {prepared : PreparedCase F} (hprepared : H.prepare case = .ok prepared)
    (hfree : CollisionFree prepared.ledger.messages) :
    (∀ failures ≤ MAX_PROVIDER_RETRIES, ProviderErrors client prepared.request failures →
      (∀ proposal raw, client prepared.request failures = .ok proposal →
        proposal.rawJson = .ok raw →
        (∀ document,
          parseMetricHypothesis H.limits raw prepared.request.allowedSignals = .ok document →
          ∃ verification prediction, verifyHypothesis document prepared.ledger = .ok verification ∧
            predictServicesWithLlm H client case = .ok prediction ∧
            prediction.invalidEvidenceIdCount = 0 ∧
            (prediction.abstained = true ↔
              ∀ result ∈ verification.predicateResults, result.verdict ≠ .supported) ∧
            prediction.services = dedup ((prepared.baseline.candidates.filter fun c =>
              SupportedSignal document verification c.signalKey).map fun c =>
                serviceOf c.signalKey.value)) ∧
        (∀ e, parseMetricHypothesis H.limits raw prepared.request.allowedSignals = .error (.llm e) →
          predictServicesWithLlm H client case = .ok .abstention) ∧
        (∀ e, parseMetricHypothesis H.limits raw prepared.request.allowedSignals = .error e →
          (∀ l, e ≠ .llm l) → predictServicesWithLlm H client case = .error e)) ∧
      (∀ e, client prepared.request failures = .error (.llm e) → e.isValidation = true →
        predictServicesWithLlm H client case = .ok .abstention)) ∧
    (∀ e, ProviderErrors client prepared.request MAX_PROVIDER_RETRIES →
      client prepared.request MAX_PROVIDER_RETRIES = .error (.llm e) →
        predictServicesWithLlm H client case = .ok .abstention) := by
  have hcompiles : Compiles prepared.baseline prepared.ledger := by
    obtain ⟨inputs, baseline, ledger, -, hrank, hcompile, rfl⟩ := prepare_eq_ok.mp hprepared
    exact compiles_of_compile hrank hcompile
  refine ⟨?_, ?_⟩
  · intro failures hmost herrors
    refine ⟨?_, ?_⟩
    · intro proposal raw hproposal hraw
      -- the errors before this attempt are all retried
      have hpredict : predictServicesWithLlm H client case = H.conclude prepared proposal := by
        apply predict_of_attempt hprepared herrors hmost
        unfold Harness.attempt
        rw [hproposal]
      refine ⟨?_, ?_, ?_⟩
      · intro document hparse
        obtain ⟨verification, hverify, judge, hresults, hids, hcites⟩ :=
          exists_verification hcompiles.valid document
        refine ⟨verification, predictionOf prepared.ledger.entries
          verification.supportingEvidenceIds, hverify, ?_, predictionOf_eq hcompiles hfree hresults hids hcites⟩
        rw [hpredict]
        have hverified : H.verifyProposal prepared proposal = .ok verification := by
          unfold Harness.verifyProposal
          simp only [bind_eq_ok, liftDomain_eq_ok]
          exact ⟨raw, hraw, document, hparse, hverify⟩
        unfold Harness.conclude
        rw [hverified]
      · intro e hparse
        rw [hpredict, conclude_of_parse_error hraw hparse]
      · intro e hparse huntyped
        rw [hpredict, conclude_of_parse_error hraw hparse]
        -- an error outside the taxonomy leaves the arm
        cases e with
        | llm l => exact absurd rfl (huntyped l)
        | _ => rfl
    · intro e herror hvalidation
      apply predict_of_attempt hprepared herrors hmost
      unfold Harness.attempt
      rw [herror]
      exact if_pos (.inl hvalidation)
  -- the last attempt allowed: a provider error abstains
  · intro e herrors herror
    apply predict_of_attempt hprepared herrors (le_refl _)
    unfold Harness.attempt
    rw [herror]
    exact if_pos (.inr (le_refl _))

namespace Demo

/-- A case with one signal. -/
def latencyCase : InvestigationCase ExactFloat :=
  { incidentCase with signals := [latency.signal] }

/-- A proposal about the latency of the case. -/
def latencyProposal : Str :=
  str "\x7b\"hypothesis_id\":\"h\"," ++ str "\"tenant_id\":\"evaluation\"," ++
  str "\"incident_id\":\"00000000-0000-4000-8000-000000000000\"," ++
  str "\"run_id\":\"00000000-0000-4000-8000-000000000000\"," ++
  str "\"semantics\":\"descriptive\"," ++ str "\"composition\":\"all\"," ++
  str "\"predicates\":[\x7b\"predicate_id\":\"p\"," ++
  str "\"signal_key\":\"checkout.latency\"," ++
  str "\"expected_direction\":\"increase\"\x7d]\x7d"

/-- A client that cannot be reached at first, and then proposes. -/
def recovering : LLMClient
  | _, 0 => .error (.llm .providerUnavailable)
  | _, _ => .ok ⟨.ok latencyProposal, none, none⟩

/-- A client that is never reached. -/
def unreachable : LLMClient := fun _ _ => .error (.llm .providerUnavailable)

theorem latencyProposal_parses :
    ∃ document, parseMetricHypothesis harness.limits latencyProposal {latency.signal.key} =
      .ok document := by
  apply exists_of_isOk
  unfold latencyProposal
  decide +kernel

/-- One entry is hashed for the case, so there is no collision. -/
theorem latencyCase_prepared : ∃ prepared, harness.prepare latencyCase = .ok prepared ∧
    CollisionFree prepared.ledger.messages ∧
    prepared.request.allowedSignals = {latency.signal.key} := by
  obtain ⟨prepared, hprepared⟩ : ∃ prepared, harness.prepare latencyCase = .ok prepared := by
    apply case_is_prepared
    · decide
    · exact policy_ok
    · exact ScaleFloorPolicy.default_valid
    · intro signal hsignal
      obtain rfl := List.mem_singleton.mp hsignal
      exact encodable_str _
    · decide
    · decide
    · exact two_lt_limit
  obtain ⟨inputs, baseline, ledger, hinputs, hrank, hcompile, hmade⟩ := prepare_eq_ok.mp hprepared
  have hsignals : inputs.map (·.signal) = [latency.signal] :=
    signals_of_inputs (fromSource_eq_ok.mp hinputs)
  have hkeys : (ledger.entries.map (·.signalKey)).Perm [latency.signal.key] := by
    have hinputKeys : inputs.map (·.signal.key) = [latency.signal.key] :=
      (List.map_map (l := inputs)).symm.trans (congrArg (List.map (·.key)) hsignals)
    rw [← hinputKeys]
    exact compiled_keys hrank hcompile
  refine ⟨prepared, hprepared, ?_, ?_⟩
  · have hone : ledger.entries.length = 1 := by simpa using hkeys.length_eq
    obtain ⟨entry, hentries⟩ := List.length_eq_one_iff.mp hone
    intro m hm m' hm' _
    rw [hmade] at hm hm'
    obtain ⟨e, he, hmessage⟩ := hm
    obtain ⟨e', he', hmessage'⟩ := hm'
    rw [hentries, List.mem_singleton] at he he'
    rw [he] at hmessage
    rw [he', hmessage] at hmessage'
    exact Option.some.inj hmessage'
  · rw [hmade]
    show (ledger.entries.map (·.signalKey)).toFinset = _
    rw [List.toFinset_eq_of_perm _ _ hkeys]
    rfl

end Demo

open Demo in
/-- The second answer of one client counts; another one's answer is rejected, and a third one is never
    reached. -/
theorem llm_arm_predicts_supported_demo : ∃ prepared document verification prediction,
    harness.prepare latencyCase = .ok prepared ∧
      verifyHypothesis document prepared.ledger = .ok verification ∧
      predictServicesWithLlm harness recovering latencyCase = .ok prediction ∧
      prediction.invalidEvidenceIdCount = 0 ∧
      (prediction.abstained = true ↔
        ∀ result ∈ verification.predicateResults, result.verdict ≠ .supported) ∧
      prediction.services = dedup ((prepared.baseline.candidates.filter fun c =>
        SupportedSignal document verification c.signalKey).map fun c => serviceOf c.signalKey.value) ∧
      predictServicesWithLlm harness rejected latencyCase = .ok .abstention ∧
      predictServicesWithLlm harness unreachable latencyCase = .ok .abstention := by
  obtain ⟨prepared, hprepared, hfree, hallowed⟩ := latencyCase_prepared
  obtain ⟨document, hparse⟩ := latencyProposal_parses
  have herrors : ProviderErrors recovering prepared.request 1 := by
    intro attempt hattempt
    obtain rfl : attempt = 0 := by omega
    exact ⟨.providerUnavailable, rfl, rfl⟩
  obtain ⟨hproposals, -⟩ :=
    (llm_arm_predicts_supported harness recovering hprepared hfree).1 1 (by decide) herrors
  obtain ⟨verification, prediction, hverify, hpredict, hinvalid, habstained, hservices⟩ :=
    (hproposals _ latencyProposal rfl rfl).1 document (hallowed ▸ hparse)
  -- the answers of the other two
  have hfirst : ProviderErrors rejected prepared.request 0 := fun _ h => absurd h (Nat.not_lt_zero _)
  have hrejected := ((llm_arm_predicts_supported harness rejected hprepared hfree).1 0
    (Nat.zero_le _) hfirst).2 .emptyProposal rfl rfl
  have hunreachable := (llm_arm_predicts_supported harness unreachable hprepared hfree).2
    .providerUnavailable (fun _ _ => ⟨.providerUnavailable, rfl, rfl⟩) rfl
  exact ⟨prepared, document, verification, prediction, hprepared, hverify, hpredict, hinvalid, habstained,
    hservices, hrejected, hunreachable⟩

end IncidentEvidence
