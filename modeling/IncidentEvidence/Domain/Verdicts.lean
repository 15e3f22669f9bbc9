import IncidentEvidence.Domain.Evidence.Faithful
import IncidentEvidence.Domain.Verifier

/-! # Verdicts from raw observations

    The pipeline from inputs to verdicts (rank, compile, verify) in exact
    arithmetic. What a verdict means is said here in the rationals, from the
    observed values alone (`Decisive`, `Moves`); `verdicts_from_observations`
    connects it to what the code returns.
-/

namespace IncidentEvidence

open Py PyFloat Parsing Decisions

/-! ### The meaning of a verdict -/

namespace Exact

/-- The values of a signal observed in `[start, end)`. -/
def valuesIn (signal : MetricSignal ExactFloat) (start «end» : Datetime) : List ℚ :=
  (signal.points.filter fun p => decide (start ≤ p.observedAt ∧ p.observedAt < «end»)).map
    (·.value.toRat)

def pre (window : IncidentWindow) (item : SignalBaselineInput ExactFloat) : List ℚ :=
  valuesIn item.signal window.start window.injection

def post (window : IncidentWindow) (item : SignalBaselineInput ExactFloat) : List ℚ :=
  valuesIn item.signal window.injection window.end

/-- The median absolute deviation. -/
def mad (data : List ℚ) : ℚ :=
  ExactFloat.ratMedian (data.map fun v => |v - ExactFloat.ratMedian data|)

/-- The scale on which the shift of a signal is measured. -/
def scale (window : IncidentWindow) (policy : BaselinePolicy ExactFloat)
    (item : SignalBaselineInput ExactFloat) : ℚ :=
  let floor := item.absoluteScaleFloor.toRat
  max (max (14826 / 10000 * mad (pre window item)) floor)
    (policy.relativeScaleFloor.toRat * max |ExactFloat.ratMedian (pre window item)| floor)

/-- The signed shift of the median. -/
def shift (window : IncidentWindow) (item : SignalBaselineInput ExactFloat) : ℚ :=
  ExactFloat.ratMedian (post window item) - ExactFloat.ratMedian (pre window item)

/-- Enough observations on both sides of the injection. -/
def Enough (window : IncidentWindow) (policy : BaselinePolicy ExactFloat)
    (item : SignalBaselineInput ExactFloat) : Prop :=
  policy.minimumPointsPerWindow ≤ (pre window item).length ∧
    policy.minimumPointsPerWindow ≤ (post window item).length

/-- The observations decide a predicate about this signal: there are enough of
    them, the median moved, and it moved far enough. -/
def Decisive (window : IncidentWindow) (policy : BaselinePolicy ExactFloat)
    (item : SignalBaselineInput ExactFloat) : Prop :=
  Enough window policy item ∧ shift window item ≠ 0 ∧
    policy.minimumScore.toRat ≤ |shift window item| / scale window policy item

instance (window : IncidentWindow) (policy : BaselinePolicy ExactFloat)
    (item : SignalBaselineInput ExactFloat) : Decidable (Decisive window policy item) :=
  inferInstanceAs (Decidable ((_ ∧ _) ∧ _ ∧ _))

/-- The median of a signal moved in a direction. -/
def Moves (window : IncidentWindow) (item : SignalBaselineInput ExactFloat) :
    ExpectedDirection → Prop
  | .increase => 0 < shift window item
  | .decrease => shift window item < 0

instance (window : IncidentWindow) (item : SignalBaselineInput ExactFloat)
    (direction : ExpectedDirection) : Decidable (Moves window item direction) :=
  match direction with
  | .increase => inferInstanceAs (Decidable (0 < shift window item))
  | .decrease => inferInstanceAs (Decidable (shift window item < 0))

end Exact

/-- The opposite direction. -/
def ExpectedDirection.reverse : ExpectedDirection → ExpectedDirection
  | .increase => .decrease
  | .decrease => .increase

theorem ObservedDirection.value_eq_iff {observed : ObservedDirection}
    {expected : ExpectedDirection} :
    observed.value = expected.value ↔ (observed = .increase ↔ expected = .increase) := by
  cases observed <;> cases expected <;> decide

/-! ### What the baseline computes exactly -/

section exact
variable {window : IncidentWindow} {policy : BaselinePolicy ExactFloat}
  {item : SignalBaselineInput ExactFloat}

/-- Observed values are finite. -/
theorem map_value_eq (points : List (MetricPoint ExactFloat)) :
    points.map (·.value) = (points.map (·.value.toRat)).map ExactFloat.fin := by
  rw [List.map_map]
  exact List.map_congr_left fun p _ => (ExactFloat.fin_toRat p.finite).symm

theorem preValues_eq : preValues window item.signal = (Exact.pre window item).map .fin :=
  map_value_eq _

theorem postValues_eq : postValues window item.signal = (Exact.post window item).map .fin :=
  map_value_eq _

theorem floor_pos : 0 < item.absoluteScaleFloor.toRat := by
  have hpos := item.positive
  rw [← ExactFloat.fin_toRat item.finite] at hpos
  simpa using hpos

theorem scale_pos : 0 < Exact.scale window policy item := by
  have hfloor : 0 < item.absoluteScaleFloor.toRat := floor_pos
  exact lt_of_lt_of_le hfloor (le_trans (le_max_right _ _) (le_max_left _ _))

/-- Enough points on both sides are not none. -/
theorem nonempty_of_enough (hpolicy : policy.Valid) (h : Exact.Enough window policy item) :
    Exact.pre window item ≠ [] ∧ Exact.post window item ≠ [] := by
  have hone := hpolicy.points
  constructor
  · rintro hnil
    have := h.1
    rw [hnil] at this
    simp at this
    omega
  · rintro hnil
    have := h.2
    rw [hnil] at this
    simp at this
    omega

/-- The scale of the code is the exact one. -/
theorem combinedScale_eq (hpolicy : policy.Valid) :
    combinedScale (robustScale (.fin (Exact.mad (Exact.pre window item)))) item.absoluteScaleFloor
        (relativeScale policy.relativeScaleFloor
          (.fin (ExactFloat.ratMedian (Exact.pre window item))) item.absoluteScaleFloor) =
      .fin (Exact.scale window policy item) := by
  rw [← ExactFloat.fin_toRat item.finite, ← ExactFloat.fin_toRat hpolicy.floor.1]
  simp [combinedScale, robustScale, relativeScale, madScale, Exact.scale]
  norm_num

variable (window policy item) in
/-- The candidate of a signal with enough points. -/
def Exact.candidate : SuspicionCandidate ExactFloat where
  signalKey := item.signal.key
  prePointCount := (preValues window item.signal).length
  postPointCount := (postValues window item.signal).length
  preMedian := .fin (ExactFloat.ratMedian (pre window item))
  postMedian := .fin (ExactFloat.ratMedian (post window item))
  preMad := .fin (mad (pre window item))
  absoluteScaleFloor := item.absoluteScaleFloor
  relativeScaleFloor := policy.relativeScaleFloor
  scale := .fin (scale window policy item)
  signedScore := .fin (shift window item / scale window policy item)
  suspicionScore := .fin (|shift window item| / scale window policy item)

/-- **With exact numbers every eligible signal is scored**, by its exact candidate. -/
theorem scored_candidate (hpolicy : policy.Valid) (henough : Exact.Enough window policy item) :
    Scored item policy (preValues window item.signal) (postValues window item.signal)
      (Exact.candidate window policy item) := by
  obtain ⟨hpre, hpost⟩ := nonempty_of_enough hpolicy henough
  have hscale : 0 < Exact.scale window policy item := scale_pos
  have hdev : ((Exact.pre window item).map ExactFloat.fin).map (fun v => PyFloat.abs
      (PyFloat.sub v (.fin (ExactFloat.ratMedian (Exact.pre window item))))) =
      ((Exact.pre window item).map fun v => |v - ExactFloat.ratMedian (Exact.pre window item)|).map
        ExactFloat.fin := by
    rw [List.map_map, List.map_map]
    exact List.map_congr_left fun v _ => by simp
  refine ⟨rfl, rfl, rfl, ?_, ?_, ?_, rfl, rfl, (combinedScale_eq hpolicy).symm, ?_, ?_, ?_⟩
  · rw [preValues_eq, ExactFloat.median_fin hpre]
    rfl
  · rw [postValues_eq, ExactFloat.median_fin hpost]
    rfl
  · rw [preValues_eq, Exact.candidate, hdev, ExactFloat.median_fin (by simpa using hpre)]
    rfl
  · rw [Exact.candidate, ExactFloat.sub_fin, ExactFloat.truediv_fin _ hscale.ne']
    rfl
  · rw [Exact.candidate, ExactFloat.abs_fin, abs_div, abs_of_pos hscale]
  · simp only [Exact.candidate]
    rw [← ExactFloat.fin_toRat item.finite, ← ExactFloat.fin_toRat hpolicy.floor.1]
    simp [robustScale, relativeScale, madScale]

theorem eq_candidate (hpolicy : policy.Valid) (henough : Exact.Enough window policy item)
    {c : SuspicionCandidate ExactFloat}
    (h : Scored item policy (preValues window item.signal) (postValues window item.signal) c) :
    c = Exact.candidate window policy item := by
  have hc := scoreCandidate_eq_ok.mpr h
  rw [scoreCandidate_eq_ok.mpr (scored_candidate hpolicy henough)] at hc
  exact (Except.ok.inj hc).symm

theorem enough_iff {e : SignalEvaluation ExactFloat} (h : Evaluated window policy item e) :
    e.eligible = true ↔ Exact.Enough window policy item := by
  rw [h.eligible, preValues_eq, postValues_eq]
  simp [eligible, Exact.Enough]

/-- In exact arithmetic the baseline always returns a result. -/
theorem exists_rank (window : IncidentWindow) (inputs : List (SignalBaselineInput ExactFloat))
    (hpolicy : policy.Valid)
    (hdistinct : (inputs.map (·.signal.key)).Nodup) :
    ∃ result, rankMetricShifts window inputs policy = .ok result := by
  have hnodup : (inputs.map (·.signal.key.value)).Nodup := by
    have hinj : Function.Injective SignalKey.value := fun ⟨_⟩ ⟨_⟩ h => congrArg SignalKey.mk h
    simpa [Function.comp_def] using hdistinct.map hinj
  have hevaluate : ∀ item : SignalBaselineInput ExactFloat, ∃ e, Evaluated window policy item e := by
    intro item
    by_cases henough : Exact.Enough window policy item
    · have helig : eligible policy (preValues window item.signal).length
          (postValues window item.signal).length = true := by
        rw [preValues_eq, postValues_eq]
        simpa [eligible, Exact.Enough] using henough
      refine ⟨⟨item.signal.key, item.absoluteScaleFloor, _, _, true,
        some (Exact.candidate window policy item)⟩, rfl, rfl, rfl, rfl, helig.symm, rfl, ?_⟩
      rintro c hc
      obtain rfl := Option.some.inj hc
      exact scored_candidate hpolicy henough
    · have helig : eligible policy (preValues window item.signal).length
          (postValues window item.signal).length = false := by
        rw [preValues_eq, postValues_eq, Bool.eq_false_iff]
        simpa [eligible, Exact.Enough] using henough
      exact ⟨⟨item.signal.key, item.absoluteScaleFloor, _, _, false, none⟩, rfl, rfl, rfl, rfl,
        helig.symm, rfl, by simp⟩
  obtain ⟨evaluations, hall⟩ : ∃ evaluations,
      List.Forall₂ (Evaluated window policy) inputs evaluations := by
    clear hdistinct hnodup
    induction inputs with
    | nil => exact ⟨[], .nil⟩
    | cons item items ih =>
      obtain ⟨es, hes⟩ := ih
      obtain ⟨e, he⟩ := hevaluate item
      exact ⟨e :: es, .cons he hes⟩
  exact ⟨_, rankMetricShifts_eq_ok.mpr ⟨hnodup, evaluations, hall, rfl⟩⟩

end exact

/-! ### Looking up a signal -/

theorem bySignal_eq_some {F : Type} {entries : List (MetricShiftEvidence F)} {key : SignalKey}
    {e : MetricShiftEvidence F} (hkeys : (entries.map (·.signalKey.value)).Pairwise (· < ·)) :
    bySignal entries key = some e ↔ e ∈ entries ∧ e.signalKey = key := by
  have hunique : ∀ a ∈ entries, ∀ b ∈ entries, a.signalKey = b.signalKey → a = b := by
    intro a ha b hb hab
    exact List.inj_on_of_nodup_map (hkeys.imp fun hlt => ne_of_lt hlt) ha hb
      (congrArg SignalKey.value hab)
  constructor
  · intro h
    refine ⟨List.mem_reverse.mp (List.mem_of_find?_eq_some h), ?_⟩
    simpa using List.find?_some h
  · rintro ⟨hmem, hkey⟩
    cases hfind : bySignal entries key with
    | none =>
      have hnone := List.find?_eq_none.mp hfind e (List.mem_reverse.mpr hmem)
      simp [hkey] at hnone
    | some a =>
      have ha : a ∈ entries := List.mem_reverse.mp (List.mem_of_find?_eq_some hfind)
      have hakey : a.signalKey = key := by simpa using List.find?_some hfind
      rw [hunique a ha e hmem (hakey.trans hkey.symm)]

/-! ### One predicate -/

/-- A verdict is backed by exactly the entry of its signal. -/
structure Cites {F : Type} (r : PredicateVerificationResult F) (e : MetricShiftEvidence F) :
    Prop where
  supported : r.verdict = .supported →
    r.supportingEvidenceIds = [e.evidenceId] ∧ r.contradictingEvidenceIds = []
  refuted : r.verdict = .refuted →
    r.supportingEvidenceIds = [] ∧ r.contradictingEvidenceIds = [e.evidenceId]
  unknown : r.verdict = .unknown →
    r.supportingEvidenceIds = [] ∧ r.contradictingEvidenceIds = []

/-- **One predicate on one entry**: the observations of its signal decide. -/
theorem evaluatePredicate_spec {window : IncidentWindow} {policy : BaselinePolicy ExactFloat}
    {item : SignalBaselineInput ExactFloat} {p : MetricShiftPredicate}
    {e : MetricShiftEvidence ExactFloat} (hpolicy : policy.Valid)
    (h : Evaluated window policy item e.evaluation) :
    let r := evaluatePredicate p (some e) policy.minimumScore
    (r.verdict = .supported ↔
      Exact.Decisive window policy item ∧ Exact.Moves window item p.expectedDirection) ∧
    (r.verdict = .refuted ↔
      Exact.Decisive window policy item ∧ Exact.Moves window item p.expectedDirection.reverse) ∧
    Cites r e := by
  have hscale : 0 < Exact.scale window policy item := scale_pos
  have hmin := ExactFloat.fin_toRat hpolicy.score.1
  by_cases henough : Exact.Enough window policy item
  · have helig : e.eligible = true := (enough_iff h).mpr henough
    obtain ⟨c, hc⟩ : ∃ c, e.candidate = some c :=
      Option.isSome_iff_exists.mp (h.isSome.trans helig)
    obtain rfl := eq_candidate hpolicy henough (h.candidate c hc)
    have hzero : PyFloat.eq (Exact.candidate window policy item).signedScore zero =
        decide (Exact.shift window item = 0) := by
      simp [Exact.candidate, hscale.ne']
    have hsign : lt zero (Exact.candidate window policy item).signedScore =
        decide (0 < Exact.shift window item) := by
      simp [Exact.candidate, div_pos_iff_of_pos_right hscale]
    have hweak : lt (Exact.candidate window policy item).suspicionScore policy.minimumScore =
        decide (|Exact.shift window item| / Exact.scale window policy item <
          policy.minimumScore.toRat) := by
      conv_lhs => rw [← hmin]
      simp [Exact.candidate]
    simp only [evaluatePredicate, helig, hc, hzero, hsign, hweak, decide_eq_true_eq]
    by_cases hstill : Exact.shift window item = 0
    · have hdecisive : ¬ Exact.Decisive window policy item := fun hd => hd.2.1 hstill
      simp only [hstill, if_true, hdecisive, false_and, iff_false]
      exact ⟨by simp [unknown], by simp [unknown], by constructor <;> simp [unknown]⟩
    · by_cases hsmall : |Exact.shift window item| / Exact.scale window policy item <
          policy.minimumScore.toRat
      · have hdecisive : ¬ Exact.Decisive window policy item := fun hd =>
          absurd hsmall (not_lt.mpr hd.2.2)
        simp only [hstill, hsmall, if_true, if_false, hdecisive, false_and, iff_false]
        exact ⟨by simp [unknown], by simp [unknown], by constructor <;> simp [unknown]⟩
      -- the shift is decisive: its sign against the expected direction is the verdict
      · have hdecisive : Exact.Decisive window policy item :=
          ⟨henough, hstill, not_lt.mp hsmall⟩
        simp only [hstill, hsmall, if_false, hdecisive, true_and]
        rcases lt_or_gt_of_ne hstill with hneg | hpos
        · have hnot : ¬ 0 < Exact.shift window item := not_lt.mpr hneg.le
          cases p.expectedDirection
          all_goals
            refine ⟨?_, ?_, ⟨?_, ?_, ?_⟩⟩ <;>
              simp [hnot, hneg, ObservedDirection.value_eq_iff, Exact.Moves,
                ExpectedDirection.reverse]
        · have hnot : ¬ Exact.shift window item < 0 := not_lt.mpr hpos.le
          have hgt : 0 < Exact.shift window item := hpos
          cases p.expectedDirection
          all_goals
            refine ⟨?_, ?_, ⟨?_, ?_, ?_⟩⟩ <;>
              simp [hnot, hgt, ObservedDirection.value_eq_iff, Exact.Moves,
                ExpectedDirection.reverse]
  · have helig : e.eligible = false := by
      rw [Bool.eq_false_iff]
      exact fun ht => henough ((enough_iff h).mp ht)
    have hdecisive : ¬ Exact.Decisive window policy item := fun hd => henough hd.1
    refine ⟨?_, ?_, ?_⟩
    · simp [evaluatePredicate, helig, unknown, hdecisive]
    · simp [evaluatePredicate, helig, unknown, hdecisive]
    · constructor <;> simp [evaluatePredicate, helig, unknown]

/-! ### The whole pipeline -/

/-- Rank the inputs and compile the result. -/
def rankAndCompile {F : Type} [PyFloat F] [FloatHex F] [Sha256] (tenant : TenantId)
    (incident : IncidentId) (run : RunId) (window : IncidentWindow)
    (inputs : List (SignalBaselineInput F)) (policy : BaselinePolicy F) :
    Except DomainError (MetricEvidenceLedger F) := do
  let result ← rankMetricShifts window inputs policy
  compileMetricShiftLedger tenant incident run window result

/-- What the result of one predicate says about the raw observations, and the
    entry it cites. -/
structure Judged (window : IncidentWindow) (policy : BaselinePolicy ExactFloat)
    (inputs : List (SignalBaselineInput ExactFloat)) (ledger : MetricEvidenceLedger ExactFloat)
    (p : MetricShiftPredicate) (r : PredicateVerificationResult ExactFloat) : Prop where
  supported : r.verdict = .supported ↔ ∃ item ∈ inputs, item.signal.key = p.signalKey ∧
    Exact.Decisive window policy item ∧ Exact.Moves window item p.expectedDirection
  refuted : r.verdict = .refuted ↔ ∃ item ∈ inputs, item.signal.key = p.signalKey ∧
    Exact.Decisive window policy item ∧ Exact.Moves window item p.expectedDirection.reverse
  cites : (r.verdict = .unknown ∧ r.supportingEvidenceIds = [] ∧ r.contradictingEvidenceIds = []) ∨
    ∃ e ∈ ledger.entries, e.signalKey = p.signalKey ∧ Cites r e

section pipeline
variable [FloatHex ExactFloat] [Sha256] {tenant : TenantId} {incident : IncidentId} {run : RunId}
  {window : IncidentWindow} {inputs : List (SignalBaselineInput ExactFloat)}
  {policy : BaselinePolicy ExactFloat} {ledger : MetricEvidenceLedger ExactFloat}

/-- The ledger of a pipeline holds the evaluations of its inputs. -/
theorem rankAndCompile_eq_ok
    (h : rankAndCompile tenant incident run window inputs policy = .ok ledger) :
    validateMetricEvidenceLedger ledger = .ok ledger ∧ ledger.tenantId = tenant ∧
      ledger.incidentId = incident ∧ ledger.runId = run ∧ ledger.policy = policy ∧
      EvaluationsOf window policy inputs ledger.evaluations := by
  simp only [rankAndCompile, bind_eq_ok] at h
  obtain ⟨result, hrank, hcompile⟩ := h
  obtain ⟨hevals, hresult⟩ := rank_evaluations hrank
  obtain ⟨hvalid, ht, hi, hr, -, hp, hledger⟩ := compile_eq_ok hcompile
  have hsorted : sortedOn (fun e => e.signalKey.value) result.signalEvaluations =
      result.signalEvaluations :=
    sortedOn_eq_self ((List.pairwise_map.mp hevals.increasing).imp fun hab => le_of_lt hab)
  have hpolicy : result.policy = policy := by
    rw [hresult, rankOrAbstain_policy]
  rw [hsorted] at hledger
  exact ⟨hvalid, ht, hi, hr, hp.trans hpolicy, hledger ▸ hevals⟩

/-- Each predicate is judged by the observations of its signal. -/
theorem judged (hvalid : validateMetricEvidenceLedger ledger = .ok ledger)
    (hpolicy : ledger.policy = policy)
    (hevals : EvaluationsOf window policy inputs ledger.evaluations) (p : MetricShiftPredicate) :
    Judged window policy inputs ledger p
      (evaluatePredicate p (bySignal ledger.entries p.signalKey) policy.minimumScore) := by
  obtain ⟨hacc, -⟩ := validate_eq_ok.mp hvalid
  have hvalidPolicy : policy.Valid := hpolicy ▸ hacc.policy
  have hfind : ∀ {e}, bySignal ledger.entries p.signalKey = some e ↔
      e ∈ ledger.entries ∧ e.signalKey = p.signalKey := bySignal_eq_some hacc.increasing
  -- an input with the predicate's key was evaluated to the entry with that key
  have hentry : ∀ item ∈ inputs, item.signal.key = p.signalKey → ∃ e,
      bySignal ledger.entries p.signalKey = some e ∧
        Evaluated window policy item e.evaluation := by
    intro item hitem hkey
    obtain ⟨e, he, heval⟩ := hevals.complete item hitem
    obtain ⟨entry, hentry, rfl⟩ := List.mem_map.mp he
    exact ⟨entry, hfind.mpr ⟨hentry, heval.key.trans hkey⟩, heval⟩
  cases hlook : bySignal ledger.entries p.signalKey with
  | none =>
    have hmissing : ¬ ∃ item ∈ inputs, item.signal.key = p.signalKey := by
      rintro ⟨item, hitem, hkey⟩
      obtain ⟨e, he, -⟩ := hentry item hitem hkey
      rw [hlook] at he
      cases he
    refine ⟨⟨nofun, ?_⟩, ⟨nofun, ?_⟩, Or.inl ⟨rfl, rfl, rfl⟩⟩
    · rintro ⟨item, hitem, hkey, -⟩
      exact absurd ⟨item, hitem, hkey⟩ hmissing
    · rintro ⟨item, hitem, hkey, -⟩
      exact absurd ⟨item, hitem, hkey⟩ hmissing
  | some e =>
    obtain ⟨hmem, hkey⟩ := hfind.mp hlook
    obtain ⟨item, hitem, heval⟩ := hevals.evaluated e.evaluation (List.mem_map_of_mem hmem)
    obtain ⟨hsupported, hrefuted, hcites⟩ := evaluatePredicate_spec (p := p) hvalidPolicy heval
    have hitemKey : item.signal.key = p.signalKey := heval.key.symm.trans hkey
    have hother : ∀ item' ∈ inputs, item'.signal.key = p.signalKey →
        Evaluated window policy item' e.evaluation := by
      intro item' hitem' hkey'
      obtain ⟨e', he', heval'⟩ := hentry item' hitem' hkey'
      rw [hlook, Option.some.injEq] at he'
      exact he' ▸ heval'
    refine ⟨⟨fun hr => ⟨item, hitem, hitemKey, hsupported.mp hr⟩, ?_⟩,
      ⟨fun hr => ⟨item, hitem, hitemKey, hrefuted.mp hr⟩, ?_⟩, Or.inr ⟨e, hmem, hkey, hcites⟩⟩
    · rintro ⟨item', hitem', hkey', hdecides⟩
      exact (evaluatePredicate_spec hvalidPolicy (hother item' hitem' hkey')).1.mpr hdecides
    · rintro ⟨item', hitem', hkey', hdecides⟩
      exact (evaluatePredicate_spec hvalidPolicy (hother item' hitem' hkey')).2.1.mpr hdecides

/-- **Verdicts are those of the raw observations.** The pipeline returns a ledger,
    and on it a document of another context or a causal one is unknown without
    evidence, while every predicate of a descriptive one is judged by the values
    observed for its signal. -/
theorem verdicts_from_observations [LawfulFloatHex ExactFloat] (hwindow : window.Valid)
    (hpolicy : policy.Valid) (htenant : TextIdentifier.Valid tenant ∧ Encodable tenant.value)
    (hincident : TextIdentifier.Valid incident ∧ Encodable incident.value)
    (hrun : TextIdentifier.Valid run ∧ Encodable run.value)
    (hkeys : ∀ item ∈ inputs, Encodable item.signal.key.value)
    (hdistinct : (inputs.map (·.signal.key)).Nodup) (h : HypothesisDocument) :
    (inputs.length ≤ maxsize → policy.minimumPointsPerWindow < 10 ^ maxStrDigits →
      ∃ ledger, rankAndCompile tenant incident run window inputs policy = .ok ledger) ∧
    ∀ ledger, rankAndCompile tenant incident run window inputs policy = .ok ledger →
      ∃ result, verifyHypothesis h ledger = .ok result ∧
        ((h.tenantId ≠ tenant ∨ h.incidentId ≠ incident ∨ h.runId ≠ run ∨
            h.semantics = .causal) →
          List.Forall₂ (fun p r => r.predicateId = p.predicateId ∧ r.verdict = .unknown ∧
            r.supportingEvidenceIds = [] ∧ r.contradictingEvidenceIds = [])
            h.predicates result.predicateResults) ∧
        (h.tenantId = tenant ∧ h.incidentId = incident ∧ h.runId = run ∧
            h.semantics = .descriptive →
          List.Forall₂ (fun p r => r.predicateId = p.predicateId ∧
            Judged window policy inputs ledger p r) h.predicates result.predicateResults) := by
  refine ⟨?_, ?_⟩
  · intro hsize hpoints
    obtain ⟨result, hrank⟩ := exists_rank window inputs hpolicy hdistinct
    obtain ⟨entries, -, -, hcompile⟩ := compile_rank htenant hincident hrun hwindow hpolicy hkeys
      hsize (fun _ => hpoints) hrank
    exact ⟨_, by rw [rankAndCompile, hrank]; exact hcompile⟩
  · intro ledger hledger
    obtain ⟨hvalid, rfl, rfl, rfl, hp, hevals⟩ := rankAndCompile_eq_ok hledger
    obtain ⟨hacc, hnorm⟩ := validate_eq_ok.mp hvalid
    refine ⟨_, verifyHypothesis_eq_ok.mpr ⟨hacc, rfl⟩, ?_, ?_⟩
    · intro hgated
      -- a gate gives every predicate its reason and no evidence
      cases hgate : documentReason UnknownReason.contextMismatch .causalClaimNotVerifiable h
          ledger.tenantId ledger.incidentId ledger.runId with
      | none =>
        obtain ⟨⟨ht, hi, hr⟩, hsemantics⟩ := documentReason_eq_none.mp hgate
        simp [ht, hi, hr, hsemantics] at hgated
      | some reason =>
        simp only [verifyDocument, List.forall₂_map_right_iff, List.forall₂_same]
        exact fun p _ => ⟨rfl, rfl, rfl, rfl⟩
    · rintro ⟨ht, hi, hr, hsemantics⟩
      -- no gate applies: each predicate is evaluated
      have hgate : documentReason UnknownReason.contextMismatch .causalClaimNotVerifiable h
          ledger.tenantId ledger.incidentId ledger.runId = none :=
        documentReason_eq_none.mpr ⟨⟨ht, hi, hr⟩, hsemantics⟩
      rw [hgate, ← hnorm, hp]
      simp only [verifyDocument, List.forall₂_map_right_iff, List.forall₂_same]
      exact fun p _ => ⟨evaluatePredicate_id _ _ _, judged hvalid hp hevals p⟩

end pipeline

namespace Demo

/-- Latency and errors both increase in the run of the small incident. -/
theorem p1_notBlank : isBlank (str "p-1") = false := by decide

theorem p2_notBlank : isBlank (str "p-2") = false := by decide

theorem checkout_valid : TextIdentifier.Valid (⟨str "checkout"⟩ : ChangeEventKey) := by decide

def hypothesis : HypothesisDocument where
  hypothesisId := str "h-1"
  tenantId := tenant
  incidentId := incident
  runId := run
  semantics := .descriptive
  composition := .all
  predicates := [⟨str "p-1", latency.signal.key, .increase, by decide, by decide⟩,
    ⟨str "p-2", errors.signal.key, .decrease, by decide, by decide⟩]
  ok := by decide

/-- The small incident has a ledger. -/
theorem exists_ledger : ∃ ledger,
    rankAndCompile tenant incident run window [latency, errors] policy = .ok ledger := by
  obtain ⟨result, hrank⟩ := exists_rank window [latency, errors] policy_ok (by decide)
  obtain ⟨entries, -, -, hcompile⟩ := compile_rank tenant_ok incident_ok run_ok (by decide)
    policy_ok keys_ok (by decide) (fun _ => two_lt_limit) hrank
  exact ⟨_, by rw [rankAndCompile, hrank]; exact hcompile⟩

end Demo

open Demo in
/-- The latency of the small incident increased and so did the errors, but not
    enough to decide. -/
theorem verdicts_from_observations_demo : ∃ ledger result,
    rankAndCompile tenant incident run window [latency, errors] policy = .ok ledger ∧
    verifyHypothesis hypothesis ledger = .ok result ∧
    result.predicateResults.map (·.verdict) = [.supported, .unknown] := by
  have hwindow : window.Valid := by decide
  obtain ⟨hok, hall⟩ := verdicts_from_observations hwindow policy_ok tenant_ok incident_ok run_ok
    keys_ok (by decide) hypothesis
  obtain ⟨ledger, hledger⟩ := hok (by decide) two_lt_limit
  obtain ⟨result, hresult, -, hjudged⟩ := hall ledger hledger
  refine ⟨ledger, result, hledger, hresult, ?_⟩
  have hforall := hjudged ⟨rfl, rfl, rfl, rfl⟩
  simp only [hypothesis] at hforall
  generalize result.predicateResults = results at hforall
  rcases hforall with _ | ⟨⟨-, hr⟩, _ | ⟨⟨-, hs⟩, _ | _⟩⟩
  rename_i r s
  have hlatency := hr.supported.mpr ⟨latency, by simp, rfl, by decide +kernel, by decide +kernel⟩
  have herrors : ∀ item ∈ [latency, errors], item.signal.key = errors.signal.key →
      ¬ Exact.Decisive window policy item := by
    intro item hitem
    simp only [List.mem_cons, List.not_mem_nil, or_false] at hitem
    rcases hitem with rfl | rfl
    · intro hkey
      exact absurd hkey (by decide)
    · intro
      decide +kernel
  simp only [List.map_cons, List.map_nil, hlatency, List.cons.injEq, and_true, true_and]
  cases hverdict : s.verdict with
  | supported =>
    obtain ⟨item, hitem, hkey, hdecisive, -⟩ := hs.supported.mp hverdict
    exact absurd hdecisive (herrors item hitem hkey)
  | refuted =>
    obtain ⟨item, hitem, hkey, hdecisive, -⟩ := hs.refuted.mp hverdict
    exact absurd hdecisive (herrors item hitem hkey)
  | unknown => rfl

end IncidentEvidence
