import IncidentEvidence.Exceptions
import Mathlib.Algebra.BigOperators.Group.List.Basic
import Mathlib.Algebra.Order.BigOperators.Group.List
import Mathlib.Tactic.FieldSimp

/-! # Scoring predictions

    `evaluation/harness/scoring.py`: one case is scored against its label, and the scores of
    a batch are reduced to its summary. The numbers of a summary are rational numbers here,
    so they are the exact ones that the floats of the program approximate.

    A score that `score_case` returns is `Consistent`. From that the metrics of a summary
    lie in their ranges, and the two ways of counting an abstention agree
    (`aggregate_coherent`). -/

namespace IncidentEvidence

open Py

/-! ### One case -/

/-- `CaseScore`. -/
structure CaseScore where
  abstained : Bool
  hitRank : Option ℕ
  predictedServiceCount : ℕ
  invalidEvidenceIdCount : Int
  deriving DecidableEq

namespace CaseScore

def top1 (score : CaseScore) : Bool := score.hitRank = some 1

def top3 (score : CaseScore) : Bool :=
  match score.hitRank with
  | some rank => rank ≤ 3
  | none => false

def reciprocalRank (score : CaseScore) : ℚ :=
  match score.hitRank with
  | some rank => 1 / rank
  | none => 0

end CaseScore

/-- The loop of `score_case` that looks for the label, from a rank on. -/
def hitRankFrom (truth : Str) : ℕ → List Str → Option ℕ
  | _, [] => none
  | rank, service :: services =>
    if service = truth then some rank else hitRankFrom truth (rank + 1) services

/-- `score_case`. -/
def scoreCase (predictedServices : List Str) (groundTruthService : Str) (abstained : Bool)
    (invalidEvidenceIdCount : Int) : Except PyException CaseScore :=
  if invalidEvidenceIdCount < 0 then .error .valueError
  else
    let ranking := if abstained then [] else predictedServices
    .ok {
      abstained := abstained
      hitRank := hitRankFrom groundTruthService 1 ranking
      predictedServiceCount := ranking.length
      invalidEvidenceIdCount := invalidEvidenceIdCount }

/-- What holds of every score: an abstention does not hit, and a rank counts from one. -/
structure CaseScore.Consistent (score : CaseScore) : Prop where
  abstained : score.abstained = true → score.hitRank = none
  rank : ∀ rank, score.hitRank = some rank → 1 ≤ rank

theorem le_hitRankFrom {truth : Str} {first rank : ℕ} {services : List Str}
    (h : hitRankFrom truth first services = some rank) : first ≤ rank := by
  induction services generalizing first with
  | nil => exact absurd h (by simp [hitRankFrom])
  | cons service services ih =>
    unfold hitRankFrom at h
    by_cases hhit : service = truth
    · rw [if_pos hhit] at h
      exact le_of_eq (Option.some.inj h)
    · rw [if_neg hhit] at h
      exact Nat.le_of_succ_le (ih h)

theorem scoreCase_consistent {services : List Str} {truth : Str} {abstained : Bool}
    {invalid : Int} {score : CaseScore}
    (h : scoreCase services truth abstained invalid = .ok score) : score.Consistent := by
  unfold scoreCase at h
  by_cases hnegative : invalid < 0
  · rw [if_pos hnegative] at h
    exact absurd h (by simp)
  · rw [if_neg hnegative] at h
    rw [← Except.ok.inj h]
    constructor
    · intro habstained
      show hitRankFrom truth 1 (if abstained = true then [] else services) = none
      rw [if_pos habstained]
      rfl
    · intro rank hrank
      exact le_hitRankFrom hrank

/-! ### A batch -/

/-- `EvaluationSummary`. -/
structure EvaluationSummary where
  caseCount : ℕ
  abstainedCount : ℕ
  answeredCount : ℕ
  abstentionRate : ℚ
  top1Accuracy : ℚ
  top3Accuracy : ℚ
  mrr : ℚ
  top1AccuracyAnswered : ℚ
  top3AccuracyAnswered : ℚ
  mrrAnswered : ℚ
  invalidEvidenceIdCount : Int
  deriving DecidableEq

/-- `_ratio`. -/
def ratio (numerator : ℚ) (denominator : ℕ) : ℚ :=
  if denominator = 0 then 0 else numerator / denominator

/-- `sum(1 for s in scores if s.top1)`. -/
def top1Hits (scores : List CaseScore) : ℕ := scores.countP (·.top1)

/-- `sum(1 for s in scores if s.top3)`. -/
def top3Hits (scores : List CaseScore) : ℕ := scores.countP (·.top3)

/-- `sum(s.reciprocal_rank for s in scores)`. -/
def reciprocalRanks (scores : List CaseScore) : ℚ := (scores.map (·.reciprocalRank)).sum

/-- `[score for score in scores if not score.abstained]`. -/
def answered (scores : List CaseScore) : List CaseScore := scores.filter (! ·.abstained)

/-- `aggregate`. -/
def aggregate (scores : List CaseScore) : EvaluationSummary :=
  let caseCount := scores.length
  let abstainedCount := scores.countP (·.abstained)
  let answeredCount := caseCount - abstainedCount
  { caseCount := caseCount
    abstainedCount := abstainedCount
    answeredCount := answeredCount
    abstentionRate := ratio abstainedCount caseCount
    top1Accuracy := ratio (top1Hits scores) caseCount
    top3Accuracy := ratio (top3Hits scores) caseCount
    mrr := ratio (reciprocalRanks scores) caseCount
    top1AccuracyAnswered := ratio (top1Hits (answered scores)) answeredCount
    top3AccuracyAnswered := ratio (top3Hits (answered scores)) answeredCount
    mrrAnswered := ratio (reciprocalRanks (answered scores)) answeredCount
    invalidEvidenceIdCount := (scores.map (·.invalidEvidenceIdCount)).sum }

/-- The summary does not depend on the order of the scores. -/
theorem aggregate_perm {scores scores' : List CaseScore} (h : scores.Perm scores') :
    aggregate scores = aggregate scores' := by
  have hanswered : (answered scores).Perm (answered scores') := h.filter _
  have hcount : ∀ {p : CaseScore → Bool}, scores.countP p = scores'.countP p :=
    fun {p} => h.countP_eq p
  have hranks : ∀ {l l' : List CaseScore}, l.Perm l' → reciprocalRanks l = reciprocalRanks l' :=
    fun hperm => (hperm.map _).sum_eq
  simp only [aggregate, top1Hits, top3Hits, h.length_eq, hcount, hranks h, hranks hanswered,
    hanswered.countP_eq, (h.map _).sum_eq]

/-! ### Ranges -/

/-- The ranges of the metrics of a summary, and what the two ways of counting an abstention
    have to do with each other. -/
structure EvaluationSummary.Coherent (summary : EvaluationSummary) : Prop where
  top1_nonneg : 0 ≤ summary.top1Accuracy
  top1_le_mrr : summary.top1Accuracy ≤ summary.mrr
  mrr_le_one : summary.mrr ≤ 1
  top1_le_top3 : summary.top1Accuracy ≤ summary.top3Accuracy
  top3_le_one : summary.top3Accuracy ≤ 1
  counts : summary.answeredCount + summary.abstainedCount = summary.caseCount
  top1_answered :
    summary.top1Accuracy = summary.top1AccuracyAnswered * (1 - summary.abstentionRate)
  top3_answered :
    summary.top3Accuracy = summary.top3AccuracyAnswered * (1 - summary.abstentionRate)
  mrr_answered : summary.mrr = summary.mrrAnswered * (1 - summary.abstentionRate)

theorem ratio_le_ratio {a b : ℚ} {n : ℕ} (h : a ≤ b) : ratio a n ≤ ratio b n := by
  unfold ratio
  by_cases hn : n = 0
  · rw [if_pos hn, if_pos hn]
  · rw [if_neg hn, if_neg hn]
    exact div_le_div_of_nonneg_right h (Nat.cast_nonneg n)

theorem ratio_nonneg {a : ℚ} {n : ℕ} (h : 0 ≤ a) : 0 ≤ ratio a n := by
  unfold ratio
  by_cases hn : n = 0
  · rw [if_pos hn]
  · rw [if_neg hn]
    exact div_nonneg h (Nat.cast_nonneg n)

theorem ratio_le_one {a : ℚ} {n : ℕ} (h : a ≤ n) : ratio a n ≤ 1 := by
  unfold ratio
  by_cases hn : n = 0
  · rw [if_pos hn]
    exact zero_le_one
  · rw [if_neg hn]
    exact div_le_one_of_le₀ h (Nat.cast_nonneg n)

/-- A number that is zero when nobody answers, over all cases and over the answered ones. -/
theorem ratio_eq_answered {a : ℚ} {cases abstained : ℕ} (hle : abstained ≤ cases)
    (hzero : abstained = cases → a = 0) :
    ratio a cases = ratio a (cases - abstained) * (1 - ratio abstained cases) := by
  unfold ratio
  by_cases hcases : cases = 0
  · simp [hcases]
  · by_cases hall : abstained = cases
    · simp [hall, hzero hall]
    · have hanswered : cases - abstained ≠ 0 := by omega
      have hcast : ((cases - abstained : ℕ) : ℚ) = cases - abstained := Nat.cast_sub hle
      have hpos : (cases : ℚ) ≠ 0 := Nat.cast_ne_zero.mpr hcases
      have hdiff : (cases : ℚ) - abstained ≠ 0 := by
        rw [← hcast]
        exact Nat.cast_ne_zero.mpr hanswered
      rw [if_neg hcases, if_neg hanswered, if_neg hcases, hcast]
      field_simp

namespace CaseScore

variable {score : CaseScore}

theorem reciprocalRank_nonneg : 0 ≤ score.reciprocalRank := by
  unfold reciprocalRank
  cases score.hitRank with
  | none => exact le_refl 0
  | some rank => exact div_nonneg zero_le_one (Nat.cast_nonneg rank)

theorem Consistent.reciprocalRank_le_one (h : score.Consistent) : score.reciprocalRank ≤ 1 := by
  unfold reciprocalRank
  cases hrank : score.hitRank with
  | none => exact zero_le_one
  | some rank =>
    have hone : (1 : ℚ) ≤ rank := by exact_mod_cast h.rank rank hrank
    exact div_le_one_of_le₀ hone (Nat.cast_nonneg rank)

/-- A hit at the first rank counts for one in the reciprocal rank too. -/
theorem top1_le_reciprocalRank : (if score.top1 = true then 1 else 0) ≤ score.reciprocalRank := by
  by_cases htop : score.top1 = true
  · have hrank : score.hitRank = some 1 := by simpa [top1] using htop
    rw [if_pos htop, reciprocalRank, hrank]
    norm_num
  · rw [if_neg htop]
    exact reciprocalRank_nonneg

theorem top3_of_top1 (h : score.top1 = true) : score.top3 = true := by
  have hrank : score.hitRank = some 1 := by simpa [top1] using h
  simp [top3, hrank]

/-- An abstention hits nothing. -/
theorem Consistent.of_abstained (h : score.Consistent) (habstained : score.abstained = true) :
    score.top1 = false ∧ score.top3 = false ∧ score.reciprocalRank = 0 := by
  simp [top1, top3, reciprocalRank, h.abstained habstained]

end CaseScore

section batch
variable {scores : List CaseScore}

/-- Abstentions add nothing to the sum of reciprocal ranks. -/
theorem reciprocalRanks_answered (h : ∀ score ∈ scores, score.Consistent) :
    reciprocalRanks (answered scores) = reciprocalRanks scores := by
  induction scores with
  | nil => rfl
  | cons score scores ih =>
    obtain ⟨hscore, hscores⟩ := List.forall_mem_cons.mp h
    have hrest := ih hscores
    unfold reciprocalRanks answered at hrest ⊢
    by_cases habstained : score.abstained = true
    · have hzero := (hscore.of_abstained habstained).2.2
      rw [List.filter_cons_of_neg (by simp [habstained]), hrest, List.map_cons, List.sum_cons, hzero,
        zero_add]
    · rw [List.filter_cons_of_pos (by simp [habstained]), List.map_cons, List.map_cons,
        List.sum_cons, List.sum_cons, hrest]

/-- Abstentions add nothing to a count of hits. -/
theorem countP_answered {hit : CaseScore → Bool}
    (h : ∀ score ∈ scores, score.abstained = true → hit score = false) :
    (answered scores).countP hit = scores.countP hit := by
  unfold answered
  rw [List.countP_filter]
  apply List.countP_congr
  intro score hmem
  cases habstained : score.abstained with
  | false => simp
  | true => simp [h score hmem habstained]

theorem reciprocalRanks_le_length (h : ∀ score ∈ scores, score.Consistent) :
    reciprocalRanks scores ≤ scores.length := by
  induction scores with
  | nil => exact le_refl _
  | cons score scores ih =>
    obtain ⟨hscore, hscores⟩ := List.forall_mem_cons.mp h
    have hhead := hscore.reciprocalRank_le_one
    have hrest := ih hscores
    unfold reciprocalRanks at hrest ⊢
    rw [List.map_cons, List.sum_cons, List.length_cons]
    push_cast
    linarith

theorem top1Hits_le_reciprocalRanks : (top1Hits scores : ℚ) ≤ reciprocalRanks scores := by
  induction scores with
  | nil => exact le_refl _
  | cons score scores ih =>
    have hhead : (if score.top1 = true then 1 else 0) ≤ score.reciprocalRank :=
      CaseScore.top1_le_reciprocalRank
    unfold top1Hits reciprocalRanks at ih ⊢
    rw [List.countP_cons, List.map_cons, List.sum_cons]
    push_cast
    linarith

/-- **The metrics of a summary are consistent**, whatever the mix of answers and
    abstentions. -/
theorem aggregate_coherent (h : ∀ score ∈ scores, score.Consistent) :
    (aggregate scores).Coherent := by
  have habstained : scores.countP (·.abstained) ≤ scores.length := List.countP_le_length
  have htop1 : top1Hits (answered scores) = top1Hits scores :=
    countP_answered fun score hmem hscore => ((h score hmem).of_abstained hscore).1
  have htop3 : top3Hits (answered scores) = top3Hits scores :=
    countP_answered fun score hmem hscore => ((h score hmem).of_abstained hscore).2.1
  have hmrr := reciprocalRanks_answered h
  -- with nobody left to answer, nothing is hit
  have hnobody : scores.countP (·.abstained) = scores.length → answered scores = [] := by
    intro hall
    apply List.filter_eq_nil_iff.mpr
    intro score hmem
    simp [List.countP_eq_length.mp hall score hmem]
  have hsame : ∀ {a : ℚ}, (answered scores = [] → a = 0) →
      ratio a scores.length = ratio a (scores.length - scores.countP (·.abstained)) *
        (1 - ratio (scores.countP (·.abstained) : ℕ) scores.length) :=
    fun hzero => ratio_eq_answered habstained fun hall => hzero (hnobody hall)
  refine ⟨?_, ?_, ?_, ?_, ?_, ?_, ?_, ?_, ?_⟩
  · exact ratio_nonneg (Nat.cast_nonneg _)
  · exact ratio_le_ratio top1Hits_le_reciprocalRanks
  · exact ratio_le_one (reciprocalRanks_le_length h)
  · apply ratio_le_ratio
    have hle : top1Hits scores ≤ top3Hits scores :=
      List.countP_mono_left fun score _ hscore => CaseScore.top3_of_top1 hscore
    exact_mod_cast hle
  · apply ratio_le_one
    have hle : top3Hits scores ≤ scores.length := List.countP_le_length
    exact_mod_cast hle
  · exact Nat.sub_add_cancel habstained
  · show ratio _ _ = ratio _ _ * _
    rw [htop1]
    exact hsame fun hnone => by rw [← htop1, hnone]; rfl
  · show ratio _ _ = ratio _ _ * _
    rw [htop3]
    exact hsame fun hnone => by rw [← htop3, hnone]; rfl
  · show ratio _ _ = ratio _ _ * _
    rw [hmrr]
    exact hsame fun hnone => by rw [← hmrr, hnone]; rfl

end batch

end IncidentEvidence
