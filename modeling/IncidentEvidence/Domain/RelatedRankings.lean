import IncidentEvidence.Domain.Baseline
import IncidentEvidence.Py.Median

/-! # Related rankings

    Two runs of the baseline over inputs that correspond one to one. When the
    evaluations of every pair of inputs are related, and related candidates have
    one key and equal scores, the two sorts make the same moves and the decision
    takes the same branch: the results are related too.

    What "related" means is a parameter: candidates in other units in
    `UnitIndependence`, candidates that compare equal in `Locality`.
-/

namespace IncidentEvidence

open Py PyFloat

variable {F : Type} [PyFloat F]

/-! ### Relations -/

/-- Relations on evaluations and candidates that the ranking cannot tell from
    equality. -/
structure RankedAlike (RE : SignalEvaluation F → SignalEvaluation F → Prop)
    (R : SuspicionCandidate F → SuspicionCandidate F → Prop) : Prop where
  key : ∀ {e e'}, RE e e' → e.signalKey = e'.signalKey
  candidate : ∀ {e e'}, RE e e' → Option.Rel R e.candidate e'.candidate
  candidateKey : ∀ {c c'}, R c c' → c.signalKey = c'.signalKey
  score : ∀ {c c'}, R c c' → eq c.suspicionScore c'.suspicionScore = true
  finite : ∀ {c c'}, R c c' →
    isFinite c.suspicionScore = true ∧ isFinite c'.suspicionScore = true

/-- Two results of one kind, for one reason, whose parts are related in order. -/
inductive BaselineResult.Related (RE : SignalEvaluation F → SignalEvaluation F → Prop)
    (R : SuspicionCandidate F → SuspicionCandidate F → Prop) :
    BaselineResult F → BaselineResult F → Prop where
  | ranking {policy : BaselinePolicy F} {evaluations evaluations' : List (SignalEvaluation F)}
      {candidates candidates' : List (SuspicionCandidate F)} {lead lead' : F} :
      List.Forall₂ RE evaluations evaluations' → List.Forall₂ R candidates candidates' →
      Same lead lead' →
      Related RE R (.ranking ⟨policy, evaluations, candidates, lead⟩)
        (.ranking ⟨policy, evaluations', candidates', lead'⟩)
  | abstention {policy : BaselinePolicy F} {reason : AbstentionReason}
      {evaluations evaluations' : List (SignalEvaluation F)}
      {candidates candidates' : List (SuspicionCandidate F)} {count : Int}
      {top top' second second' : Option F} :
      List.Forall₂ RE evaluations evaluations' → List.Forall₂ R candidates candidates' →
      Option.Rel Same top top' → Option.Rel Same second second' →
      Related RE R
        (.abstention ⟨policy, reason, evaluations, candidates, count, top, second⟩)
        (.abstention ⟨policy, reason, evaluations', candidates', count, top', second'⟩)

section congruence
variable [LawfulPyFloat F] {RE : SignalEvaluation F → SignalEvaluation F → Prop}
  {R : SuspicionCandidate F → SuspicionCandidate F → Prop}

/-! ### The two sorts -/

/-- Related candidates come in the same order. -/
theorem candidateLt_congr (h : RankedAlike RE R) {a a' b b' : SuspicionCandidate F} (ha : R a a')
    (hb : R b b') : candidateLt a b = candidateLt a' b' := by
  obtain ⟨hfa, hfa'⟩ := h.finite ha
  obtain ⟨hfb, hfb'⟩ := h.finite hb
  have hneg : eq (neg a.suspicionScore) (neg a'.suspicionScore) = true := by
    have hscore := eq_eq_true.mp (h.score ha)
    rw [eq_eq_true, LawfulPyFloat.neg_le_neg hfa hfa', LawfulPyFloat.neg_le_neg hfa' hfa]
    exact ⟨hscore.2, hscore.1⟩
  have hneg' : eq (neg b.suspicionScore) (neg b'.suspicionScore) = true := by
    have hscore := eq_eq_true.mp (h.score hb)
    rw [eq_eq_true, LawfulPyFloat.neg_le_neg hfb hfb', LawfulPyFloat.neg_le_neg hfb' hfb]
    exact ⟨hscore.2, hscore.1⟩
  have heq : eq (neg a.suspicionScore) (neg b.suspicionScore) =
      eq (neg a'.suspicionScore) (neg b'.suspicionScore) := by
    rw [Bool.eq_iff_iff]
    constructor
    · intro hab
      exact eq_trans (eq_trans (eq_symm hneg) hab) hneg'
    · intro hab
      exact eq_trans (eq_trans hneg hab) (eq_symm hneg')
  simp only [candidateLt, heq, lt_congr hneg hneg', h.candidateKey ha, h.candidateKey hb]

/-- The candidates of related evaluations are related in rank. -/
theorem rankedCandidates_related (h : RankedAlike RE R)
    {evaluations evaluations' : List (SignalEvaluation F)}
    (hevaluations : List.Forall₂ RE evaluations evaluations') :
    List.Forall₂ R (rankedCandidates evaluations) (rankedCandidates evaluations') := by
  have hcandidates : List.Forall₂ R (evaluations.filterMap (·.candidate))
      (evaluations'.filterMap (·.candidate)) := by
    induction hevaluations with
    | nil => exact .nil
    | @cons e e' evaluations evaluations' he _ ih =>
      have hcandidate := h.candidate he
      cases hc : e.candidate with
      | none =>
        cases hc' : e'.candidate with
        | none => simpa [hc, hc'] using ih
        | some c' =>
          rw [hc, hc'] at hcandidate
          cases hcandidate
      | some c =>
        cases hc' : e'.candidate with
        | none =>
          rw [hc, hc'] at hcandidate
          cases hcandidate
        | some c' =>
          rw [hc, hc'] at hcandidate
          cases hcandidate with
          | some hR => simpa [hc, hc'] using ⟨hR, ih⟩
  apply forall₂_sortedBy hcandidates
  intro a _ a' _ b _ b' _ hab hab'
  exact candidateLt_congr h hab hab'

omit [LawfulPyFloat F] in
/-- The evaluations come in the order of their keys on both sides. -/
theorem sortedOn_key_related (h : RankedAlike RE R)
    {evaluations evaluations' : List (SignalEvaluation F)}
    (hevaluations : List.Forall₂ RE evaluations evaluations') :
    List.Forall₂ RE (sortedOn (fun e => e.signalKey.value) evaluations)
      (sortedOn (fun e => e.signalKey.value) evaluations') := by
  apply forall₂_sortedBy hevaluations
  intro a _ a' _ b _ b' _ hab hab'
  apply decide_eq_decide.mpr
  simp only [h.key hab, h.key hab']

/-! ### The decision -/

variable [CongruentPyFloat F]

/-- **The decision** on related candidates takes the same branch. -/
theorem rankOrAbstain_related (h : RankedAlike RE R) (policy : BaselinePolicy F)
    (hpolicy : policy.Valid) {evaluations evaluations' : List (SignalEvaluation F)}
    {candidates candidates' : List (SuspicionCandidate F)}
    (hevaluations : List.Forall₂ RE evaluations evaluations')
    (hcandidates : List.Forall₂ R candidates candidates') :
    BaselineResult.Related RE R (rankOrAbstain policy evaluations candidates)
      (rankOrAbstain policy evaluations' candidates') := by
  have hlength := hcandidates.length_eq
  cases hcandidates with
  | nil => exact .abstention hevaluations .nil .none .none
  | @cons top top' rest rest' htop hrest =>
    have hscore := h.score htop
    have hweak := lt_congr hscore (eq_refl hpolicy.score.1)
    simp only [rankOrAbstain, hweak, ← hlength]
    by_cases hlow : lt top'.suspicionScore policy.minimumScore = true
    · rw [if_pos hlow, if_pos hlow]
      apply BaselineResult.Related.abstention hevaluations (.cons htop hrest)
        (.some (Or.inr hscore))
      cases hrest with
      | nil => exact .none
      | cons hsecond _ => exact .some (Or.inr (h.score hsecond))
    · rw [if_neg hlow, if_neg hlow]
      cases hrest with
      | nil => exact .ranking hevaluations (.cons htop .nil) (Or.inl rfl)
      | @cons second second' rest rest' hsecond hrest =>
        simp only [List.head?_cons, Option.map_some]
        have hlead : Alike (sub top.suspicionScore second.suspicionScore)
            (sub top'.suspicionScore second'.suspicionScore) :=
          CongruentPyFloat.sub_congr (Or.inl hscore) (Or.inl (h.score hsecond))
        have hclose : lt (sub top.suspicionScore second.suspicionScore) policy.minimumMargin =
            lt (sub top'.suspicionScore second'.suspicionScore) policy.minimumMargin :=
          lt_congr_left_alike hlead hpolicy.margin.1
        by_cases hnear :
            lt (sub top'.suspicionScore second'.suspicionScore) policy.minimumMargin = true
        · rw [hclose, if_pos hnear, if_pos hnear]
          exact .abstention hevaluations (.cons htop (.cons hsecond hrest)) (.some (Or.inr hscore))
            (.some (Or.inr (h.score hsecond)))
        · rw [hclose, if_neg hnear, if_neg hnear]
          -- a difference of finite scores is a number
          have hnumber := CongruentPyFloat.number_sub (h.finite htop).1 (h.finite hsecond).1
          exact .ranking hevaluations (.cons htop (.cons hsecond hrest))
            (Or.inr (hlead.eq_of_number hnumber))

/-- **Related evaluations make related results**, and a run fails with the error its
    counterpart fails with. -/
theorem rankMetricShifts_related (h : RankedAlike RE R) {window : IncidentWindow}
    {policy : BaselinePolicy F} (hpolicy : policy.Valid)
    {inputs inputs' : List (SignalBaselineInput F)}
    (hkeys : inputs.map (·.signal.key) = inputs'.map (·.signal.key))
    (hinputs : List.Forall₂ (fun item item' => ExceptRel RE (evaluateSignal window policy item)
      (evaluateSignal window policy item')) inputs inputs') :
    ExceptRel (BaselineResult.Related RE R) (rankMetricShifts window inputs policy)
      (rankMetricShifts window inputs' policy) := by
  have hvalues : inputs.map (·.signal.key.value) = inputs'.map (·.signal.key.value) := by
    simpa [List.map_map, Function.comp_def] using congrArg (List.map SignalKey.value) hkeys
  simp only [rankMetricShifts, hvalues]
  by_cases hdistinct : (inputs'.map (·.signal.key.value)).Nodup
  · simp only [require, if_pos hdistinct, Except.bind, bind]
    have hloop := exceptRel_mapM hinputs
    generalize inputs.mapM (evaluateSignal window policy) = x at hloop
    generalize inputs'.mapM (evaluateSignal window policy) = y at hloop
    cases hloop with
    | error => exact .error
    | ok hevaluations =>
      have hsorted := sortedOn_key_related h hevaluations
      exact .ok (rankOrAbstain_related h policy hpolicy hsorted
        (rankedCandidates_related h hsorted))
  · simp only [require, if_neg hdistinct, Except.bind, bind]
    exact .error

end congruence

end IncidentEvidence
