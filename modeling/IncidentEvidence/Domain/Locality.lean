import IncidentEvidence.Domain.RelatedRankings
import Mathlib.Data.List.Perm.Basic

/-! # Locality of the ranking

    The ranking reads the values inside the window and nothing else: the order of the
    inputs and the points outside `[start, end)` have no part in it, down to the last
    bit. The order of the values inside one side of the window has none either, up to
    what Python compares equal: sorting `0.0` and `-0.0` keeps the order they came in.
-/

namespace IncidentEvidence

open Py PyFloat

variable {F : Type} [PyFloat F]

/-! ### Inputs that differ out of sight -/

/-- The points of a signal inside `[start, end)`. -/
def insidePoints (window : IncidentWindow) (signal : MetricSignal F) : List (MetricPoint F) :=
  signal.points.filter fun p => decide (window.start ≤ p.observedAt ∧ p.observedAt < window.end)

/-- Two inputs for one signal that differ in points outside the window only. -/
structure SameInside (window : IncidentWindow) (item item' : SignalBaselineInput F) : Prop where
  key : item.signal.key = item'.signal.key
  floor : item.absoluteScaleFloor = item'.absoluteScaleFloor
  inside : insidePoints window item.signal = insidePoints window item'.signal

/-- Two inputs for one signal with values exchanged between the instants before the
    injection, or between those after it. -/
structure Exchanged (window : IncidentWindow) (item item' : SignalBaselineInput F) : Prop where
  key : item.signal.key = item'.signal.key
  floor : item.absoluteScaleFloor = item'.absoluteScaleFloor
  instants : item.signal.points.map (·.observedAt) = item'.signal.points.map (·.observedAt)
  pre : (preValues window item.signal).Perm (preValues window item'.signal)
  post : (postValues window item.signal).Perm (postValues window item'.signal)

/-! ### Points outside the window -/

theorem preValues_of_inside {window : IncidentWindow} (hwindow : window.Valid)
    {s s' : MetricSignal F} (h : insidePoints window s = insidePoints window s') :
    preValues window s = preValues window s' := by
  have hinside : ∀ s : MetricSignal F, preValues window s = ((insidePoints window s).filter
      fun p => decide (window.start ≤ p.observedAt ∧ p.observedAt < window.injection)).map
        (·.value) := by
    intro s
    rw [preValues, insidePoints, List.filter_filter]
    congr 1
    apply List.filter_congr
    intro p _
    rw [← Bool.decide_and]
    apply decide_eq_decide.mpr
    constructor
    · intro hp
      exact ⟨hp, hp.1, lt_trans hp.2 hwindow.2⟩
    · intro hp
      exact hp.1
  rw [hinside, hinside, h]

theorem postValues_of_inside {window : IncidentWindow} (hwindow : window.Valid)
    {s s' : MetricSignal F} (h : insidePoints window s = insidePoints window s') :
    postValues window s = postValues window s' := by
  have hinside : ∀ s : MetricSignal F, postValues window s = ((insidePoints window s).filter
      fun p => decide (window.injection ≤ p.observedAt ∧ p.observedAt < window.end)).map
        (·.value) := by
    intro s
    rw [postValues, insidePoints, List.filter_filter]
    congr 1
    apply List.filter_congr
    intro p _
    rw [← Bool.decide_and]
    apply decide_eq_decide.mpr
    constructor
    · intro hp
      exact ⟨hp, le_trans hwindow.1 hp.1, hp.2⟩
    · intro hp
      exact hp.1
  rw [hinside, hinside, h]

/-- **Points outside the window** have no part in an evaluation. -/
theorem evaluateSignal_of_sameInside {window : IncidentWindow} (hwindow : window.Valid)
    {item item' : SignalBaselineInput F} (h : SameInside window item item')
    (policy : BaselinePolicy F) :
    evaluateSignal window policy item = evaluateSignal window policy item' := by
  simp only [evaluateSignal, scoreCandidate, h.key, h.floor,
    preValues_of_inside hwindow h.inside, postValues_of_inside hwindow h.inside]

/-- **Points outside the window** have no part in the ranking. -/
theorem rankMetricShifts_of_sameInside {window : IncidentWindow} (hwindow : window.Valid)
    (policy : BaselinePolicy F) {inputs inputs' : List (SignalBaselineInput F)}
    (h : List.Forall₂ (SameInside window) inputs inputs') :
    rankMetricShifts window inputs policy = rankMetricShifts window inputs' policy := by
  have hkeys : inputs.map (·.signal.key.value) = inputs'.map (·.signal.key.value) := by
    induction h with
    | nil => rfl
    | cons hitem _ ih => rw [List.map_cons, List.map_cons, hitem.key, ih]
  have hloop : inputs.mapM (evaluateSignal window policy) =
      inputs'.mapM (evaluateSignal window policy) := by
    clear hkeys
    induction h with
    | nil => rfl
    | cons hitem _ ih =>
      rw [List.mapM_cons, List.mapM_cons, evaluateSignal_of_sameInside hwindow hitem policy, ih]
  simp only [rankMetricShifts, hkeys, hloop]

/-! ### The order of the inputs -/

/-- Scoring fails as a computation. -/
theorem scoreCandidate_eq_error {item : SignalBaselineInput F} {policy : BaselinePolicy F}
    {pre post : List F} {e : DomainError} (h : scoreCandidate item policy pre post = .error e) :
    e = .baselineComputation := by
  simp only [scoreCandidate, requireFinite, bind_eq_error, orRaise_eq_error, require_eq_error,
    pure_ne_error, and_false, exists_false, or_false] at h
  rcases h with ⟨-, rfl⟩ | ⟨_, -, ⟨-, rfl⟩ | ⟨_, -, ⟨-, rfl⟩ | ⟨_, -, ⟨-, rfl⟩ | ⟨_, -, -, rfl⟩⟩⟩⟩ <;>
    rfl

/-- The evaluation of a signal fails only where its scoring does. -/
theorem evaluateSignal_eq_error {window : IncidentWindow} {policy : BaselinePolicy F}
    {item : SignalBaselineInput F} {e : DomainError}
    (h : evaluateSignal window policy item = .error e) : e = .baselineComputation := by
  simp only [evaluateSignal, bind_eq_error, pure_ne_error, and_false, exists_false,
    or_false] at h
  split at h
  · cases hscore : scoreCandidate item policy (preValues window item.signal)
        (postValues window item.signal) with
    | ok c =>
      rw [hscore] at h
      exact absurd h (by simp)
    | error e' =>
      rw [hscore] at h
      have he : (.error e' : Except DomainError (Option (SuspicionCandidate F))) = .error e := h
      cases he
      exact scoreCandidate_eq_error hscore
  · exact absurd h (by simp)

/-- **The order of the inputs** has no part in the ranking. -/
theorem rankMetricShifts_perm {window : IncidentWindow} {policy : BaselinePolicy F}
    {inputs inputs' : List (SignalBaselineInput F)} (hperm : inputs.Perm inputs') :
    rankMetricShifts window inputs policy = rankMetricShifts window inputs' policy := by
  have hkeys := hperm.map (·.signal.key.value)
  simp only [rankMetricShifts]
  by_cases hdistinct : (inputs.map (·.signal.key.value)).Nodup
  · rw [require, if_pos hdistinct, require, if_pos (hkeys.nodup_iff.mp hdistinct)]
    cases hloop : inputs.mapM (evaluateSignal window policy) with
    | ok evaluations =>
      -- the evaluations of the other order are a permutation of these
      have hevaluations := mapM_eq_ok.mp hloop
      obtain ⟨evaluations', hevaluations', hperm'⟩ :=
        List.perm_comp_forall₂ hperm.symm hevaluations
      have hdistinct' : (evaluations.map fun e => e.signalKey.value).Nodup := by
        have hsame : List.Forall₂ (fun item v => v = item.signal.key.value) inputs
            (evaluations.map fun e => e.signalKey.value) := by
          rw [List.forall₂_map_right_iff]
          apply hevaluations.imp
          intro item e he
          rw [(evaluateSignal_eq_ok.mp he).key]
        have hlist := map_eq_of_forall₂ hsame fun _ _ h => h
        rwa [hlist]
      rw [mapM_eq_ok.mpr hevaluations']
      simp only [Except.bind, bind]
      rw [sortedOn_eq_of_perm hperm'.symm hdistinct']
    | error e =>
      obtain ⟨earlier, item, later, hl, -, hitem⟩ := mapM_eq_error.mp hloop
      cases hloop' : inputs'.mapM (evaluateSignal window policy) with
      | ok evaluations' =>
        exfalso
        have hall := exists_mapM_eq_ok.mp ⟨evaluations', hloop'⟩
        obtain ⟨e', he'⟩ := hall item (hperm.mem_iff.mp (by rw [hl]; simp))
        rw [hitem] at he'
        exact absurd he' (by simp)
      | error e' =>
        obtain ⟨_, item', _, _, -, hitem'⟩ := mapM_eq_error.mp hloop'
        rw [evaluateSignal_eq_error hitem, evaluateSignal_eq_error hitem']
  · rw [require, if_neg hdistinct, require,
      if_neg fun hdistinct' => hdistinct (hkeys.nodup_iff.mpr hdistinct')]
    rfl

/-! ### The order of the values -/

/-- Candidates that compare equal. -/
structure EqualCandidate (c c' : SuspicionCandidate F) : Prop where
  key : c.signalKey = c'.signalKey
  preCount : c.prePointCount = c'.prePointCount
  postCount : c.postPointCount = c'.postPointCount
  preMedian : eq c.preMedian c'.preMedian = true
  postMedian : eq c.postMedian c'.postMedian = true
  preMad : eq c.preMad c'.preMad = true
  absoluteFloor : c.absoluteScaleFloor = c'.absoluteScaleFloor
  relativeFloor : c.relativeScaleFloor = c'.relativeScaleFloor
  scale : eq c.scale c'.scale = true
  signedScore : eq c.signedScore c'.signedScore = true
  suspicionScore : eq c.suspicionScore c'.suspicionScore = true
  finite : isFinite c.suspicionScore = true ∧ isFinite c'.suspicionScore = true

/-- Evaluations that compare equal. -/
structure EqualEvaluation (e e' : SignalEvaluation F) : Prop where
  key : e.signalKey = e'.signalKey
  floor : e.absoluteScaleFloor = e'.absoluteScaleFloor
  preCount : e.prePointCount = e'.prePointCount
  postCount : e.postPointCount = e'.postPointCount
  eligible : e.eligible = e'.eligible
  candidate : Option.Rel EqualCandidate e.candidate e'.candidate

/-- Results that compare equal, part by part. -/
def EqualResult (r r' : BaselineResult F) : Prop :=
  BaselineResult.Related EqualEvaluation EqualCandidate r r'

theorem rankedAlike_equal : RankedAlike (F := F) EqualEvaluation EqualCandidate where
  key h := h.key
  candidate h := h.candidate
  candidateKey h := h.key
  score h := h.suspicionScore
  finite h := h.finite

section exchange
variable [LawfulPyFloat F] [CongruentPyFloat F]

omit [CongruentPyFloat F] in
/-- Alike and finite numbers are equal. -/
theorem eq_of_alike_finite {a b : F} (h : Alike a b) (ha : isFinite a = true) : eq a b = true :=
  h.eq_of_number (eq_refl ha)

omit [LawfulPyFloat F] in
theorem finite_of_eq {a b : F} (h : eq a b = true) (ha : isFinite a = true) : isFinite b = true := by
  rw [← CongruentPyFloat.finite_congr h]
  exact ha

/-- The deviations of exchanged values from equal centres have equal medians. -/
theorem median_deviations_perm {pre pre' : List F} {m m' : F}
    (hfinite : ∀ v ∈ pre, isFinite v = true) (hperm : pre.Perm pre') (hm : isFinite m = true)
    (hcenter : eq m m' = true) :
    Option.Rel Alike (median (pre.map fun v => PyFloat.abs (sub v m)))
      (median (pre'.map fun v => PyFloat.abs (sub v m'))) := by
  have hnumber : ∀ v ∈ pre, eq (PyFloat.abs (sub v m)) (PyFloat.abs (sub v m)) = true := by
    intro v hv
    exact CongruentPyFloat.number_abs (CongruentPyFloat.number_sub (hfinite v hv) hm)
  apply median_perm _ (hperm.map _)
  · rw [List.forall₂_map_left_iff, List.forall₂_map_right_iff, List.forall₂_same]
    intro v hv
    have hdistance : Alike (PyFloat.abs (sub v m)) (PyFloat.abs (sub v m')) :=
      CongruentPyFloat.abs_congr (CongruentPyFloat.sub_congr (.refl v) (Or.inl hcenter))
    exact hdistance.eq_of_number (hnumber v (hperm.mem_iff.mpr hv))
  · intro d hd
    obtain ⟨v, hv, rfl⟩ := List.mem_map.mp hd
    exact hnumber v hv

/-- **Exchanged values score the same.** -/
theorem scored_of_perm {item item' : SignalBaselineInput F}
    (hkey : item.signal.key = item'.signal.key)
    (hfloor : item.absoluteScaleFloor = item'.absoluteScaleFloor) {policy : BaselinePolicy F}
    {pre pre' post post' : List F} (hpre : ∀ v ∈ pre, isFinite v = true)
    (hpost : ∀ v ∈ post, isFinite v = true) (hprePerm : pre.Perm pre')
    (hpostPerm : post.Perm post') {c : SuspicionCandidate F} (h : Scored item policy pre post c) :
    ∃ c', Scored item' policy pre' post' c' ∧ EqualCandidate c c' := by
  have hfin := h.finite
  simp only [List.mem_cons, List.not_mem_nil, or_false, forall_eq_or_imp, forall_eq] at hfin
  obtain ⟨hm, hm', hmad, hrobust, hrelative, hscale, hsigned, hsuspicion⟩ := hfin
  have hself : ∀ {l : List F}, (∀ v ∈ l, isFinite v = true) → ∀ v ∈ l, eq v v = true := by
    intro l hl v hv
    exact eq_refl (hl v hv)
  have hrefl : ∀ {l : List F}, (∀ v ∈ l, isFinite v = true) →
      List.Forall₂ (fun a b => eq a b = true) l l := by
    intro l hl
    rw [List.forall₂_same]
    exact hself hl
  -- the two medians
  have hpreMedian := median_perm (hself hpre) hprePerm
    (hrefl fun v hv => hpre v (hprePerm.mem_iff.mpr hv))
  have hpostMedian := median_perm (hself hpost) hpostPerm
    (hrefl fun v hv => hpost v (hpostPerm.mem_iff.mpr hv))
  rw [h.preMedian] at hpreMedian
  rw [h.postMedian] at hpostMedian
  obtain ⟨m, hmedian, hcenter⟩ : ∃ m, median pre' = some m ∧ eq c.preMedian m = true := by
    generalize median pre' = x at hpreMedian
    cases hpreMedian with
    | some hab => exact ⟨_, rfl, eq_of_alike_finite hab hm⟩
  obtain ⟨m', hmedian', hcenter'⟩ : ∃ m', median post' = some m' ∧ eq c.postMedian m' = true := by
    generalize median post' = x at hpostMedian
    cases hpostMedian with
    | some hab => exact ⟨_, rfl, eq_of_alike_finite hab hm'⟩
  -- the deviation
  have hdeviations := median_deviations_perm hpre hprePerm hm hcenter
  rw [h.preMad] at hdeviations
  obtain ⟨mad, hmedianMad, hmadEq⟩ : ∃ mad,
      median (pre'.map fun v => PyFloat.abs (sub v m)) = some mad ∧ eq c.preMad mad = true := by
    generalize median (pre'.map fun v => PyFloat.abs (sub v m)) = x at hdeviations
    cases hdeviations with
    | some hab => exact ⟨_, rfl, eq_of_alike_finite hab hmad⟩
  -- the scale
  have hfloorEq : eq item.absoluteScaleFloor item'.absoluteScaleFloor = true := by
    rw [← hfloor]
    exact eq_refl item.finite
  have hrobustEq : eq (robustScale c.preMad) (robustScale mad) = true :=
    eq_of_alike_finite (CongruentPyFloat.mul_congr (.refl _) (Or.inl hmadEq)) hrobust
  have habsEq : eq (PyFloat.abs c.preMedian) (PyFloat.abs m) = true :=
    (CongruentPyFloat.abs_congr (Or.inl hcenter)).eq_of_number
      (CongruentPyFloat.number_abs (eq_refl hm))
  have hrelativeEq : eq
      (relativeScale policy.relativeScaleFloor c.preMedian item.absoluteScaleFloor)
      (relativeScale policy.relativeScaleFloor m item'.absoluteScaleFloor) = true :=
    eq_of_alike_finite
      (CongruentPyFloat.mul_congr (.refl _) (Or.inl (max_congr habsEq hfloorEq))) hrelative
  let scale := combinedScale (robustScale mad) item'.absoluteScaleFloor
    (relativeScale policy.relativeScaleFloor m item'.absoluteScaleFloor)
  have hscaleEq : eq c.scale scale = true := by
    rw [h.scale]
    exact max_congr (max_congr hrobustEq hfloorEq) hrelativeEq
  -- the score
  have hscore := CongruentPyFloat.truediv_congr
    (CongruentPyFloat.sub_congr (Or.inl hcenter') (Or.inl hcenter)) (Or.inl hscaleEq)
  rw [h.signedScore] at hscore
  obtain ⟨signed, hdiv, hsignedEq⟩ : ∃ signed,
      truediv (sub m' m) scale = some signed ∧ eq c.signedScore signed = true := by
    generalize truediv (sub m' m) scale = x at hscore
    cases hscore with
    | some hab => exact ⟨_, rfl, eq_of_alike_finite hab hsigned⟩
  have hsuspicionEq : eq c.suspicionScore (PyFloat.abs signed) = true := by
    rw [h.suspicionScore] at hsuspicion ⊢
    exact eq_of_alike_finite (CongruentPyFloat.abs_congr (Or.inl hsignedEq)) hsuspicion
  refine ⟨⟨item'.signal.key, pre'.length, post'.length, m, m', mad, item'.absoluteScaleFloor,
    policy.relativeScaleFloor, scale, signed, PyFloat.abs signed⟩, ?_, ?_⟩
  · constructor
    case key => rfl
    case preCount => rfl
    case postCount => rfl
    case preMedian => exact hmedian
    case postMedian => exact hmedian'
    case preMad => exact hmedianMad
    case absoluteFloor => rfl
    case relativeFloor => rfl
    case scale => rfl
    case signedScore => exact hdiv
    case suspicionScore => rfl
    case finite =>
      simp only [List.mem_cons, List.not_mem_nil, or_false, forall_eq_or_imp, forall_eq]
      exact ⟨finite_of_eq hcenter hm, finite_of_eq hcenter' hm', finite_of_eq hmadEq hmad,
        finite_of_eq hrobustEq hrobust, finite_of_eq hrelativeEq hrelative,
        finite_of_eq hscaleEq hscale, finite_of_eq hsignedEq hsigned,
        finite_of_eq hsuspicionEq hsuspicion⟩
  · constructor
    case key => rw [h.key, hkey]
    case preCount => rw [h.preCount, hprePerm.length_eq]
    case postCount => rw [h.postCount, hpostPerm.length_eq]
    case preMedian => exact hcenter
    case postMedian => exact hcenter'
    case preMad => exact hmadEq
    case absoluteFloor => rw [h.absoluteFloor, hfloor]
    case relativeFloor => rw [h.relativeFloor]
    case scale => exact hscaleEq
    case signedScore => exact hsignedEq
    case suspicionScore => exact hsuspicionEq
    case finite => exact ⟨hsuspicion, finite_of_eq hsuspicionEq hsuspicion⟩

/-- Scoring exchanged values fails as before, or returns an equal candidate. -/
theorem scoreCandidate_perm {item item' : SignalBaselineInput F}
    (hkey : item.signal.key = item'.signal.key)
    (hfloor : item.absoluteScaleFloor = item'.absoluteScaleFloor) {policy : BaselinePolicy F}
    {pre pre' post post' : List F} (hpre : ∀ v ∈ pre, isFinite v = true)
    (hpost : ∀ v ∈ post, isFinite v = true) (hprePerm : pre.Perm pre')
    (hpostPerm : post.Perm post') :
    ExceptRel EqualCandidate (scoreCandidate item policy pre post)
      (scoreCandidate item' policy pre' post') := by
  have hpre' : ∀ v ∈ pre', isFinite v = true := fun v hv => hpre v (hprePerm.mem_iff.mpr hv)
  have hpost' : ∀ v ∈ post', isFinite v = true := fun v hv => hpost v (hpostPerm.mem_iff.mpr hv)
  cases hscore : scoreCandidate item policy pre post with
  | ok c =>
    obtain ⟨c', hc', hequal⟩ := scored_of_perm hkey hfloor hpre hpost hprePerm hpostPerm
      (scoreCandidate_eq_ok.mp hscore)
    rw [scoreCandidate_eq_ok.mpr hc']
    exact .ok hequal
  | error e =>
    cases hscore' : scoreCandidate item' policy pre' post' with
    | ok c' =>
      -- exchanging back would score the first values
      obtain ⟨c, hc, -⟩ := scored_of_perm hkey.symm hfloor.symm hpre' hpost' hprePerm.symm
        hpostPerm.symm (scoreCandidate_eq_ok.mp hscore')
      rw [scoreCandidate_eq_ok.mpr hc] at hscore
      exact absurd hscore (by simp)
    | error e' =>
      rw [scoreCandidate_eq_error hscore, scoreCandidate_eq_error hscore']
      exact .error

omit [LawfulPyFloat F] [CongruentPyFloat F] in
theorem finite_preValues (window : IncidentWindow) (s : MetricSignal F) :
    ∀ v ∈ preValues window s, isFinite v = true := by
  intro v hv
  obtain ⟨p, -, rfl⟩ := List.mem_map.mp hv
  exact p.finite

omit [LawfulPyFloat F] [CongruentPyFloat F] in
theorem finite_postValues (window : IncidentWindow) (s : MetricSignal F) :
    ∀ v ∈ postValues window s, isFinite v = true := by
  intro v hv
  obtain ⟨p, -, rfl⟩ := List.mem_map.mp hv
  exact p.finite

/-- The evaluation of a signal with exchanged values. -/
theorem evaluateSignal_of_exchanged {window : IncidentWindow} {item item' : SignalBaselineInput F}
    (h : Exchanged window item item') (policy : BaselinePolicy F) :
    ExceptRel EqualEvaluation (evaluateSignal window policy item)
      (evaluateSignal window policy item') := by
  have hscore := @scoreCandidate_perm _ _ _ _ _ _ h.key h.floor policy _ _ _ _
    (finite_preValues window item.signal) (finite_postValues window item.signal) h.pre h.post
  simp only [evaluateSignal, h.key, h.floor, h.pre.length_eq, h.post.length_eq]
  by_cases helig : eligible policy (preValues window item'.signal).length
      (postValues window item'.signal).length = true
  · rw [if_pos helig, if_pos helig]
    generalize scoreCandidate item policy _ _ = x at hscore
    generalize scoreCandidate item' policy _ _ = y at hscore
    cases hscore with
    | error => exact .error
    | ok hequal => exact .ok ⟨rfl, rfl, rfl, rfl, rfl, .some hequal⟩
  · rw [if_neg helig, if_neg helig]
    exact .ok ⟨rfl, rfl, rfl, rfl, rfl, .none⟩

end exchange

/-! ### Locality -/

/-- **The ranking is local to the window and blind to order.** Any order of the inputs
    and any points outside `[start, end)` give the identical result; values exchanged
    between instants on one side of the injection give a result that compares equal. -/
theorem ranking_local [LawfulPyFloat F] [CongruentPyFloat F] (window : IncidentWindow)
    (hwindow : window.Valid) (policy : BaselinePolicy F) (hpolicy : policy.Valid)
    (inputs : List (SignalBaselineInput F)) :
    (∀ inputs' inputs'', List.Forall₂ (SameInside window) inputs inputs' → inputs'.Perm inputs'' →
      rankMetricShifts window inputs'' policy = rankMetricShifts window inputs policy) ∧
    (∀ inputs', List.Forall₂ (Exchanged window) inputs inputs' →
      ExceptRel EqualResult (rankMetricShifts window inputs policy)
        (rankMetricShifts window inputs' policy)) := by
  constructor
  · intro inputs' inputs'' hinside hperm
    rw [rankMetricShifts_of_sameInside hwindow policy hinside]
    exact rankMetricShifts_perm hperm.symm
  · intro inputs' hexchanged
    have hkeys : inputs.map (·.signal.key) = inputs'.map (·.signal.key) := by
      induction hexchanged with
      | nil => rfl
      | cons hitem _ ih => rw [List.map_cons, List.map_cons, hitem.key, ih]
    apply rankMetricShifts_related rankedAlike_equal hpolicy hkeys
    apply hexchanged.imp
    intro item item' hitem
    exact evaluateSignal_of_exchanged hitem policy

namespace Demo

/-- The latency with a point after the window and the two late values exchanged. -/
def lateLatency : SignalBaselineInput ExactFloat :=
  { latency with signal := { latency.signal with
      points := latency.signal.points ++ [⟨at' 20 Datetime.twenty_lt, .fin 999, rfl⟩]
      increasing := by
        have h : [at' 0, at' 5, at' 10, at' 15, at' 20].Pairwise (· < ·) := by decide
        exact List.pairwise_map.mp h } }

def exchangedLatency : SignalBaselineInput ExactFloat :=
  { latency with signal := signal ⟨str "checkout.latency"⟩ latency_valid 2 2 12 10 }

theorem ranking_local_demo :
    rankMetricShifts window [errors, lateLatency] policy =
      rankMetricShifts window [latency, errors] policy ∧
    ExceptRel EqualResult (rankMetricShifts window [latency, errors] policy)
      (rankMetricShifts window [exchangedLatency, errors] policy) :=
  ⟨(ranking_local window (by decide) policy (by constructor <;> decide +kernel)
      [latency, errors]).1 [lateLatency, errors] [errors, lateLatency]
      (.cons ⟨rfl, rfl, rfl⟩ (.cons ⟨rfl, rfl, rfl⟩ .nil)) (List.Perm.swap _ _ _),
    (ranking_local window (by decide) policy (by constructor <;> decide +kernel)
      [latency, errors]).2 [exchangedLatency, errors]
      (.cons ⟨rfl, rfl, rfl, .refl _, List.Perm.swap _ _ _⟩
        (.cons ⟨rfl, rfl, rfl, .refl _, .refl _⟩ .nil))⟩

end Demo

end IncidentEvidence
