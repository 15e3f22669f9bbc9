import IncidentEvidence.Domain.Evidence.Parsing

/-! # The aggregate decision

    `evidence/_decisions.py` rebuilds the decision twice: from a baseline result
    when a ledger is compiled (`decision`), and from the ledger's own decision
    when it is validated (`ledgerDecision`).

    `expectedDecision` is what both are measured against: the decision that a
    policy and its ranked candidates determine.
-/

namespace IncidentEvidence

open Py PyFloat

variable {F : Type} [PyFloat F]

namespace Decisions

open Parsing

/-! ### The two reconstructions -/

/-- The score of the first candidate. -/
def topScore (candidates : List (SuspicionCandidate F)) : Option F :=
  candidates[0]?.map (·.suspicionScore)

/-- The score of the second candidate. -/
def secondScore (candidates : List (SuspicionCandidate F)) : Option F :=
  candidates[1]?.map (·.suspicionScore)

/-- The reason an abstention must give; it is invalid to abstain without one. -/
def expectedReason (policy : BaselinePolicy F) (candidates : List (SuspicionCandidate F)) :
    Except DomainError AbstentionReason :=
  match topScore candidates, secondScore candidates with
  | none, _ => return .insufficientEvidence
  | some top, second =>
    if lt top policy.minimumScore then return .weakEvidence
    else
      match second with
      | some second =>
        if lt (sub top second) policy.minimumMargin then return .ambiguousEvidence else invalid
      | none => invalid

/-- The lead of a ranking with two candidates or more. -/
def separatedLead (policy : BaselinePolicy F) (top second : SuspicionCandidate F) (lead : F) :
    Except DomainError F := do
  let lead ← finiteFloat lead true false
  let expectedLead := sub top.suspicionScore second.suspicionScore
  require (PyFloat.eq lead expectedLead = true ∧ lt lead policy.minimumMargin = false)
    .invalidEvidenceLedger
  return lead

/-- The lead `_decision` records for a ranking. -/
def rankingLead (policy : BaselinePolicy F) (lead : F) :
    List (SuspicionCandidate F) → Except DomainError (Option F)
  | [] => invalid
  | [top] => do
    require (lt top.suspicionScore policy.minimumScore = false) .invalidEvidenceLedger
    require (isInf lead = true ∧ lt lead zero = false) .invalidEvidenceLedger
    return none
  | top :: second :: _ => do
    require (lt top.suspicionScore policy.minimumScore = false) .invalidEvidenceLedger
    some <$> separatedLead policy top second lead

/-- The lead `_ledger_decision` records for a ranking. -/
def suppliedLead (policy : BaselinePolicy F) (lead : Option F) :
    List (SuspicionCandidate F) → Except DomainError (Option F)
  | [] => invalid
  | [top] => do
    require (lt top.suspicionScore policy.minimumScore = false) .invalidEvidenceLedger
    require (lead.isNone = true) .invalidEvidenceLedger
    return none
  | top :: second :: _ => do
    require (lt top.suspicionScore policy.minimumScore = false) .invalidEvidenceLedger
    let lead ← orRaise lead .invalidEvidenceLedger
    some <$> separatedLead policy top second lead

/-- `_decision`. -/
def decision (result : BaselineResult F) (policy : BaselinePolicy F)
    (candidates : List (SuspicionCandidate F)) : Except DomainError (MetricShiftDecision F) :=
  match result with
  | .ranking result => do
    require (result.candidates.isEqv candidates SuspicionCandidate.eq = true)
      .invalidEvidenceLedger
    let lead ← rankingLead policy result.lead candidates
    return {
      kind := .ranking
      abstentionReason := none
      candidateSignalKeys := candidates.map (·.signalKey)
      eligibleSignalCount := candidates.length
      topScore := topScore candidates
      secondScore := secondScore candidates
      lead := lead }
  | .abstention result => do
    require (result.evaluatedCandidates.isEqv candidates SuspicionCandidate.eq = true)
      .invalidEvidenceLedger
    -- an abstention brings its own numbers, which have to be those of the candidates
    let eligibleCount ← count result.eligibleSignalCount
    let suppliedTop ← optionalScore result.topScore
    let suppliedSecond ← optionalScore result.secondScore
    require (eligibleCount = candidates.length ∧
      optionEq PyFloat.eq suppliedTop (topScore candidates) = true ∧
      optionEq PyFloat.eq suppliedSecond (secondScore candidates) = true) .invalidEvidenceLedger
    let reason ← expectedReason policy candidates
    require (result.reason = reason) .invalidEvidenceLedger
    return {
      kind := .abstention
      abstentionReason := some result.reason
      candidateSignalKeys := candidates.map (·.signalKey)
      eligibleSignalCount := eligibleCount
      topScore := topScore candidates
      secondScore := secondScore candidates
      lead := none }

/-- `_ledger_decision`. -/
def ledgerDecision (value : MetricShiftDecision F) (policy : BaselinePolicy F)
    (candidates : List (SuspicionCandidate F)) : Except DomainError (MetricShiftDecision F) := do
  let candidateKeys ← value.candidateSignalKeys.mapM signalKey
  let expectedKeys := candidates.map (·.signalKey)
  let eligibleCount ← count value.eligibleSignalCount
  let suppliedTop ← optionalScore value.topScore
  let suppliedSecond ← optionalScore value.secondScore
  require (candidateKeys = expectedKeys ∧ eligibleCount = candidates.length ∧
    optionEq PyFloat.eq suppliedTop (topScore candidates) = true ∧
    optionEq PyFloat.eq suppliedSecond (secondScore candidates) = true) .invalidEvidenceLedger
  let snapshot (reason : Option AbstentionReason) (lead : Option F) : MetricShiftDecision F :=
    { kind := value.kind
      abstentionReason := reason
      candidateSignalKeys := candidateKeys
      eligibleSignalCount := eligibleCount
      topScore := topScore candidates
      secondScore := secondScore candidates
      lead := lead }
  match value.kind with
  | .ranking => do
    require (value.abstentionReason = none) .invalidEvidenceLedger
    let lead ← suppliedLead policy value.lead candidates
    return snapshot none lead
  | .abstention => do
    require (value.abstentionReason.isSome = true ∧ value.lead.isNone = true)
      .invalidEvidenceLedger
    let reason ← expectedReason policy candidates
    require (value.abstentionReason = some reason) .invalidEvidenceLedger
    return snapshot (some reason) none

/-! ### The decision that policy and candidates determine -/

/-- The outcome of the baseline as a kind, a reason and a lead. -/
def expectedOutcome (policy : BaselinePolicy F) :
    List (SuspicionCandidate F) → MetricShiftDecisionKind × Option AbstentionReason × Option F
  | [] => (.abstention, some .insufficientEvidence, none)
  | [top] =>
    if lt top.suspicionScore policy.minimumScore then (.abstention, some .weakEvidence, none)
    else (.ranking, none, none)
  | top :: second :: _ =>
    let lead := sub top.suspicionScore second.suspicionScore
    if lt top.suspicionScore policy.minimumScore then (.abstention, some .weakEvidence, none)
    else if lt lead policy.minimumMargin then (.abstention, some .ambiguousEvidence, none)
    else (.ranking, none, some lead)

/-- The decision of the baseline for ranked candidates. -/
def expectedDecision (policy : BaselinePolicy F) (candidates : List (SuspicionCandidate F)) :
    MetricShiftDecision F where
  kind := (expectedOutcome policy candidates).1
  abstentionReason := (expectedOutcome policy candidates).2.1
  candidateSignalKeys := candidates.map (·.signalKey)
  eligibleSignalCount := candidates.length
  topScore := topScore candidates
  secondScore := secondScore candidates
  lead := (expectedOutcome policy candidates).2.2

/-- A supplied number agrees with the recomputed one: both absent, or the
    supplied one is a finite non-negative number equal to the other. -/
def Agrees (supplied expected : Option F) : Prop :=
  (∀ v, supplied = some v → isFinite v = true ∧ lt v zero = false) ∧
    optionEq PyFloat.eq supplied expected = true

/-- A supplied decision agrees with the expected one. -/
structure DecisionAgrees (value expected : MetricShiftDecision F) : Prop where
  kind : value.kind = expected.kind
  abstentionReason : value.abstentionReason = expected.abstentionReason
  keysValid : ∀ k ∈ value.candidateSignalKeys, TextIdentifier.Valid k
  keys : value.candidateSignalKeys = expected.candidateSignalKeys
  eligibleSignalCount : value.eligibleSignalCount = expected.eligibleSignalCount
  topScore : Agrees value.topScore expected.topScore
  secondScore : Agrees value.secondScore expected.secondScore
  lead : Agrees value.lead expected.lead

/-! ### When the reconstructions succeed -/

theorem optionalScore_eq_ok {value w : Option F} :
    optionalScore value = .ok w ↔
      (∀ v, value = some v → isFinite v = true ∧ lt v zero = false) ∧ w = value := by
  cases value with
  | none => simp [optionalScore]
  | some v =>
    simp only [optionalScore, map_eq_ok, finiteFloat_nonnegative_eq_ok, Option.some.injEq,
      forall_eq']
    constructor
    · rintro ⟨_, ⟨hv, rfl⟩, rfl⟩
      exact ⟨hv, rfl⟩
    · rintro ⟨hv, rfl⟩
      exact ⟨v, ⟨hv, rfl⟩, rfl⟩

theorem keys_eq_ok {keys keys' : List SignalKey} :
    keys.mapM signalKey = .ok keys' ↔
      (∀ k ∈ keys, TextIdentifier.Valid k) ∧ keys' = keys := by
  rw [mapM_eq_ok_of (p := TextIdentifier.Valid) (g := id) fun _ _ _ => signalKey_eq_ok, List.map_id]

theorem expectedReason_eq_ok {policy : BaselinePolicy F}
    {candidates : List (SuspicionCandidate F)} {reason : AbstentionReason} :
    expectedReason policy candidates = .ok reason ↔
      (expectedOutcome policy candidates).1 = .abstention ∧
        (expectedOutcome policy candidates).2.1 = some reason := by
  match candidates with
  | [] => simp [expectedReason, expectedOutcome, topScore, @eq_comm _ reason]
  | [top] =>
    simp only [expectedReason, expectedOutcome, topScore, secondScore, List.getElem?_cons_zero,
      Option.map_some, List.getElem?_cons_succ, List.getElem?_nil, Option.map_none]
    split <;> simp [@eq_comm _ reason]
  | top :: second :: rest =>
    simp only [expectedReason, expectedOutcome, topScore, secondScore, List.getElem?_cons_zero,
      Option.map_some, List.getElem?_cons_succ]
    split
    · simp [@eq_comm _ reason]
    · split <;> simp [@eq_comm _ reason]

/-- An abstention has no lead, a ranking no reason. -/
theorem expectedOutcome_cases (policy : BaselinePolicy F)
    (candidates : List (SuspicionCandidate F)) :
    (∃ reason, expectedOutcome policy candidates = (.abstention, some reason, none)) ∨
      ∃ lead, expectedOutcome policy candidates = (.ranking, none, lead) := by
  match candidates with
  | [] => exact Or.inl ⟨_, rfl⟩
  | [top] =>
    simp only [expectedOutcome]
    split
    · exact Or.inl ⟨_, rfl⟩
    · exact Or.inr ⟨_, rfl⟩
  | top :: second :: rest =>
    simp only [expectedOutcome]
    split
    · exact Or.inl ⟨_, rfl⟩
    · split
      · exact Or.inl ⟨_, rfl⟩
      · exact Or.inr ⟨_, rfl⟩

theorem rankOrAbstain_of_abstention {policy : BaselinePolicy F}
    {evaluations : List (SignalEvaluation F)} {candidates : List (SuspicionCandidate F)}
    {reason : AbstentionReason}
    (h : expectedOutcome policy candidates = (.abstention, some reason, none)) :
    rankOrAbstain policy evaluations candidates = .abstention ⟨policy, reason, evaluations,
      candidates, candidates.length, topScore candidates, secondScore candidates⟩ := by
  match candidates with
  | [] => simp_all [expectedOutcome, rankOrAbstain, topScore, secondScore]
  | [top] =>
    simp only [expectedOutcome] at h
    split at h <;> simp_all [rankOrAbstain, topScore, secondScore]
  | top :: second :: rest =>
    simp only [expectedOutcome] at h
    split at h
    · simp_all [rankOrAbstain, topScore, secondScore]
    · split at h <;> simp_all [rankOrAbstain, topScore, secondScore]

theorem rankOrAbstain_of_ranking {policy : BaselinePolicy F}
    {evaluations : List (SignalEvaluation F)} {candidates : List (SuspicionCandidate F)}
    {lead : Option F} (h : expectedOutcome policy candidates = (.ranking, none, lead)) :
    rankOrAbstain policy evaluations candidates =
      .ranking ⟨policy, evaluations, candidates, lead.getD inf⟩ := by
  match candidates with
  | [] => simp [expectedOutcome] at h
  | [top] =>
    simp only [expectedOutcome] at h
    split at h
    · simp at h
    · simp only [Prod.mk.injEq, true_and] at h
      subst h
      simp_all [rankOrAbstain]
  | top :: second :: rest =>
    simp only [expectedOutcome] at h
    split at h
    · simp at h
    · split at h
      · simp at h
      · simp only [Prod.mk.injEq, true_and] at h
        subst h
        simp_all [rankOrAbstain]

section result
variable (policy : BaselinePolicy F) (evaluations : List (SignalEvaluation F))
  (candidates : List (SuspicionCandidate F))

@[simp] theorem rankOrAbstain_policy :
    (rankOrAbstain policy evaluations candidates).policy = policy := by
  obtain ⟨_, h⟩ | ⟨_, h⟩ := expectedOutcome_cases policy candidates
  · rw [rankOrAbstain_of_abstention h]; rfl
  · rw [rankOrAbstain_of_ranking h]; rfl

@[simp] theorem rankOrAbstain_signalEvaluations :
    (rankOrAbstain policy evaluations candidates).signalEvaluations = evaluations := by
  obtain ⟨_, h⟩ | ⟨_, h⟩ := expectedOutcome_cases policy candidates
  · rw [rankOrAbstain_of_abstention h]; rfl
  · rw [rankOrAbstain_of_ranking h]; rfl

@[simp] theorem rankOrAbstain_candidates :
    (rankOrAbstain policy evaluations candidates).candidates = candidates := by
  obtain ⟨_, h⟩ | ⟨_, h⟩ := expectedOutcome_cases policy candidates
  · rw [rankOrAbstain_of_abstention h]; rfl
  · rw [rankOrAbstain_of_ranking h]; rfl

end result

/-- A candidate list is equal to itself once its candidates are. -/
theorem isEqv_self {candidates : List (SuspicionCandidate F)}
    (hself : ∀ c ∈ candidates, c.eq c = true) :
    candidates.isEqv candidates SuspicionCandidate.eq = true := by
  induction candidates with
  | nil => rfl
  | cons c cs ih =>
    simp only [List.isEqv, hself c List.mem_cons_self, Bool.true_and]
    exact ih fun d hd => hself d (List.mem_cons_of_mem c hd)

section laws
variable [LawfulPyFloat F] {policy : BaselinePolicy F}

theorem suppliedLead_eq_ok {candidates : List (SuspicionCandidate F)} {lead l : Option F} :
    suppliedLead policy lead candidates = .ok l ↔
      (expectedOutcome policy candidates).1 = .ranking ∧
        Agrees lead (expectedOutcome policy candidates).2.2 ∧ l = lead := by
  match candidates with
  | [] => simp [suppliedLead, expectedOutcome]
  | [top] =>
    cases hweak : lt top.suspicionScore policy.minimumScore <;> cases lead <;>
      simp [suppliedLead, expectedOutcome, Agrees, optionEq, hweak, -bind_pure_comp]
  | top :: second :: rest =>
    cases hweak : lt top.suspicionScore policy.minimumScore with
    | true => simp [suppliedLead, expectedOutcome, hweak]
    | false =>
      simp only [suppliedLead, separatedLead, expectedOutcome, hweak, bind_eq_ok, map_eq_ok,
        require_eq_ok, orRaise_eq_ok, finiteFloat_nonnegative_eq_ok, pure_eq_ok]
      cases hmargin :
        lt (sub top.suspicionScore second.suspicionScore) policy.minimumMargin with
      | true =>
        simp only [Bool.false_eq_true, if_false, if_true, reduceCtorEq, false_and, iff_false]
        rintro ⟨_, _, v, -, _, ⟨_, ⟨-, rfl⟩, _, ⟨heq, hv⟩, rfl⟩, rfl⟩
        rw [lt_congr_left heq, hmargin] at hv
        exact absurd hv (by decide)
      | false =>
        simp only [Bool.false_eq_true, if_false, true_and]
        constructor
        · rintro ⟨_, v, rfl, _, ⟨_, ⟨hv, rfl⟩, _, ⟨heq, -⟩, rfl⟩, rfl⟩
          exact ⟨⟨fun _ h => Option.some.inj h ▸ hv, heq⟩, rfl⟩
        · rintro ⟨⟨hfin, heq⟩, hl⟩
          cases lead with
          | none => exact absurd heq (by simp [optionEq])
          | some v =>
            have hv : lt v policy.minimumMargin = false := by rw [lt_congr_left heq, hmargin]
            exact ⟨(), v, rfl, v, ⟨v, ⟨hfin v rfl, rfl⟩, (), ⟨heq, hv⟩, rfl⟩, hl.symm⟩

/-- **A supplied decision is accepted when it agrees with the expected one**, and
    all but its lead is then recomputed. -/
theorem ledgerDecision_eq_ok {value d : MetricShiftDecision F}
    {candidates : List (SuspicionCandidate F)} :
    ledgerDecision value policy candidates = .ok d ↔
      DecisionAgrees value (expectedDecision policy candidates) ∧
        d = { expectedDecision policy candidates with lead := value.lead } := by
  simp only [ledgerDecision, bind_eq_ok, keys_eq_ok, count_eq_ok, optionalScore_eq_ok,
    require_eq_ok]
  constructor
  · rintro ⟨_, ⟨hvalid, rfl⟩, _, ⟨_, rfl⟩, _, ⟨htop, rfl⟩, _, ⟨hsecond, rfl⟩, _,
      ⟨hkeys, hcount, heqTop, heqSecond⟩, hkind⟩
    have hcommon := fun hk hr hl => (⟨hk, hr, hvalid, hkeys, hcount, ⟨htop, heqTop⟩,
      ⟨hsecond, heqSecond⟩, hl⟩ : DecisionAgrees value (expectedDecision policy candidates))
    split at hkind
    · next hk =>
      simp only [bind_eq_ok, require_eq_ok, suppliedLead_eq_ok, pure_eq_ok] at hkind
      obtain ⟨_, hreason, _, ⟨hout, hlead, rfl⟩, rfl⟩ := hkind
      -- the kind was checked against the expected outcome
      obtain ⟨r, hr⟩ | ⟨l, hl⟩ := expectedOutcome_cases policy candidates
      · simp [hr] at hout
      · refine ⟨hcommon (hk.trans hout.symm) (by simp [expectedDecision, hl, hreason]) hlead, ?_⟩
        simp [expectedDecision, hl, hk, hkeys, hcount]
    · next hk =>
      simp only [bind_eq_ok, require_eq_ok, expectedReason_eq_ok, pure_eq_ok] at hkind
      obtain ⟨_, ⟨_, hnone⟩, r, ⟨hout, hr⟩, _, hreason, rfl⟩ := hkind
      have hlead : value.lead = none := by simpa using hnone
      obtain ⟨r', hr'⟩ | ⟨l, hl⟩ := expectedOutcome_cases policy candidates
      · refine ⟨hcommon (hk.trans hout.symm) (hreason.trans hr.symm) ?_, ?_⟩
        · simp [expectedDecision, Agrees, optionEq, hlead, hr']
        · simp [expectedDecision, hr, hout, hk, hkeys, hcount, hlead]
      · simp [hl] at hout
  · rintro ⟨⟨hk, hr, hvalid, hkeys, hcount, ⟨htop, heqTop⟩, ⟨hsecond, heqSecond⟩, hlead⟩, rfl⟩
    have hnonneg : 0 ≤ value.eligibleSignalCount := by
      rw [hcount]
      exact Int.natCast_nonneg _
    refine ⟨_, ⟨hvalid, rfl⟩, _, ⟨hnonneg, rfl⟩, _, ⟨htop, rfl⟩, _, ⟨hsecond, rfl⟩, (),
      ⟨hkeys, hcount, heqTop, heqSecond⟩, ?_⟩
    simp only [expectedDecision] at hk hr hlead hkeys hcount
    obtain ⟨r, hout⟩ | ⟨l, hout⟩ := expectedOutcome_cases policy candidates
    · rw [hout] at hk hr hlead
      have hnone : value.lead = none := by
        cases hv : value.lead with
        | none => rfl
        | some v => simp [Agrees, optionEq, hv] at hlead
      simp only [hk, bind_eq_ok, require_eq_ok, expectedReason_eq_ok, pure_eq_ok]
      exact ⟨(), by simp [hr, hnone], r, by simp [hout], (), hr,
        by simp [expectedDecision, hout, hkeys, hcount, hnone]⟩
    · rw [hout] at hk hr hlead
      simp only [hk, bind_eq_ok, require_eq_ok, suppliedLead_eq_ok, pure_eq_ok]
      exact ⟨(), hr, value.lead, ⟨by simp [hout], by simpa [hout] using hlead, rfl⟩,
        by simp [expectedDecision, hout, hkeys, hcount]⟩

/-- Two candidates in order of score have a finite non-negative lead. -/
theorem lead_nonneg {top second : SuspicionCandidate F}
    (htop : FiniteNonnegative top.suspicionScore)
    (hsecond : FiniteNonnegative second.suspicionScore)
    (hle : le second.suspicionScore top.suspicionScore = true) :
    isFinite (sub top.suspicionScore second.suspicionScore) = true ∧
      lt (sub top.suspicionScore second.suspicionScore) zero = false :=
  finiteNonnegative_iff.mp (LawfulPyFloat.sub_nonneg htop.1 hsecond.1 hsecond.2 hle)

theorem rankingLead_of_ranking {candidates : List (SuspicionCandidate F)} {lead : Option F}
    (hscore : ∀ c ∈ candidates, FiniteNonnegative c.suspicionScore)
    (hsorted : candidates.Pairwise fun a b => le b.suspicionScore a.suspicionScore = true)
    (h : expectedOutcome policy candidates = (.ranking, none, lead)) :
    rankingLead policy (lead.getD inf) candidates = .ok lead := by
  match candidates with
  | [] => simp [expectedOutcome] at h
  | [top] =>
    have hinf : lt (inf : F) zero = false := by
      simp [lt, LawfulPyFloat.zero_le_inf]
    simp only [expectedOutcome] at h
    split at h
    · simp at h
    · simp only [Prod.mk.injEq, true_and] at h
      subst h
      simp_all [rankingLead, LawfulPyFloat.isInf_inf]
  | top :: second :: rest =>
    have hlead := lead_nonneg (hscore top (by simp)) (hscore second (by simp))
      (List.rel_of_pairwise_cons hsorted (by simp))
    simp only [expectedOutcome] at h
    split at h
    · simp at h
    · next hweak =>
      split at h
      · simp at h
      · next hmargin =>
        simp only [Prod.mk.injEq, true_and] at h
        subst h
        simp only [rankingLead, separatedLead, bind_eq_ok, require_eq_ok, map_eq_ok,
          finiteFloat_nonnegative_eq_ok, pure_eq_ok, Option.getD_some]
        exact ⟨(), by simpa only [Bool.not_eq_true] using hweak, _,
          ⟨_, ⟨hlead, rfl⟩, (), ⟨PyFloat.eq_refl hlead.1,
            by simpa only [Bool.not_eq_true] using hmargin⟩, rfl⟩, rfl⟩

/-- **The result of ranking valid candidates is accepted**, and its decision is the
    expected one. -/
theorem decision_rankOrAbstain {evaluations : List (SignalEvaluation F)}
    {candidates : List (SuspicionCandidate F)} (hself : ∀ c ∈ candidates, c.eq c = true)
    (hscore : ∀ c ∈ candidates, FiniteNonnegative c.suspicionScore)
    (hsorted : candidates.Pairwise fun a b => le b.suspicionScore a.suspicionScore = true) :
    decision (rankOrAbstain policy evaluations candidates) policy candidates =
      .ok (expectedDecision policy candidates) := by
  obtain ⟨reason, hout⟩ | ⟨lead, hout⟩ := expectedOutcome_cases policy candidates
  · have hscores : ∀ i : Nat, ∀ v, candidates[i]?.map (·.suspicionScore) = some v →
        isFinite v = true ∧ lt v zero = false := by
      intro i v hv
      obtain ⟨c, hc, rfl⟩ := Option.map_eq_some_iff.mp hv
      exact finiteNonnegative_iff.mp (hscore c (List.mem_of_getElem? hc))
    have hagree : ∀ i : Nat, optionEq PyFloat.eq (candidates[i]?.map (·.suspicionScore))
        (candidates[i]?.map (·.suspicionScore)) = true := by
      intro i
      cases hv : candidates[i]?.map (·.suspicionScore) with
      | none => rfl
      | some v => exact PyFloat.eq_refl (hscores i v hv).1
    have hreason : expectedReason policy candidates = .ok reason := by
      simp [expectedReason_eq_ok, hout]
    simp only [rankOrAbstain_of_abstention hout, decision, bind_eq_ok, require_eq_ok, count_eq_ok,
      optionalScore_eq_ok, hreason, Except.ok.injEq, pure_eq_ok]
    exact ⟨(), isEqv_self hself, _, ⟨Int.natCast_nonneg _, rfl⟩, _, ⟨hscores 0, rfl⟩,
      _, ⟨hscores 1, rfl⟩, (), ⟨rfl, hagree 0, hagree 1⟩, reason, rfl, (), rfl,
      by simp [expectedDecision, hout]⟩
  · simp only [rankOrAbstain_of_ranking hout, decision, bind_eq_ok, require_eq_ok, pure_eq_ok]
    exact ⟨(), isEqv_self hself, lead, rankingLead_of_ranking hscore hsorted hout,
      by simp [expectedDecision, hout]⟩

end laws

end Decisions

end IncidentEvidence
