import IncidentEvidence.Domain.Locality
import IncidentEvidence.Runtime.ResponseBoundary

/-! # From series to signals

    `series_to_signals` keeps the series that have a finite sample. It accepts when
    each of them can be named, no two share a name and the finite samples of each
    come in increasing order of time; what it then returns is those series with
    their finite samples and nothing repaired. In every other case it raises a
    `PrometheusError`.
-/

namespace IncidentEvidence

open Py

variable {F : Type} [PyFloat F]

/-! ### What a series comes to -/

/-- The finite samples of a series. -/
def finiteSamples (one : PrometheusSeries F) : List (PrometheusPoint F) :=
  one.points.filter fun sample => PyFloat.isFinite sample.value

/-- The series with a finite sample. -/
def keptSeries (series : List (PrometheusSeries F)) : List (PrometheusSeries F) :=
  series.filter fun one => decide (finiteSamples one ≠ [])

/-- The signal has the name of the series and its finite samples, in their order. -/
structure SignalOf (one : PrometheusSeries F) (signal : MetricSignal F) : Prop where
  name : signal.key.value = one.name
  samples : signal.points.map (fun p => (p.observedAt, p.value)) =
    (finiteSamples one).map fun sample => (sample.at, sample.value)

/-- A series that can be a signal. -/
structure CanBeSignal (one : PrometheusSeries F) : Prop where
  named : isBlank one.name = false
  increasing : (finiteSamples one).Pairwise fun p q => p.at < q.at

/-- A response that the domain can represent. -/
structure Representable (series : List (PrometheusSeries F)) : Prop where
  each : ∀ one ∈ keptSeries series, CanBeSignal one
  distinct : ((keptSeries series).map (·.name)).Nodup

/-! ### One series -/

/-- The body of the loop for a series with a finite sample. -/
def toSignal (one : PrometheusSeries F) : Except SourceException (MetricSignal F) :=
  rescue SourceException.isDomainError .prometheusError (do
    let key ← fromDomain (SignalKey.construct one.name)
    let points ← (finiteSamples one).mapM fun sample =>
      fromDomain (MetricPoint.construct sample.at sample.value)
    fromDomain (MetricSignal.construct key points))

theorem fromDomain_eq_ok {α : Type} {x : Except DomainError α} {a : α} :
    fromDomain x = .ok a ↔ x = .ok a := by
  cases x <;> simp [fromDomain]

theorem construct_point_eq_ok {«at» : Datetime} {value : F} {p : MetricPoint F} :
    MetricPoint.construct «at» value = .ok p ↔ p.observedAt = «at» ∧ p.value = value := by
  unfold MetricPoint.construct
  by_cases h : PyFloat.isFinite value = true
  · rw [dif_pos h, Except.ok.injEq]
    constructor
    · rintro rfl
      exact ⟨rfl, rfl⟩
    · rintro ⟨rfl, rfl⟩
      rfl
  · rw [dif_neg h]
    constructor
    · intro hp
      exact absurd hp (by simp)
    · rintro ⟨-, rfl⟩
      exact absurd p.finite h

/-- The points of the finite samples. -/
theorem mapM_construct_eq_ok {samples : List (PrometheusPoint F)} {points : List (MetricPoint F)} :
    (samples.mapM fun sample => fromDomain (MetricPoint.construct sample.at sample.value)) =
        .ok points ↔
      points.map (fun p => (p.observedAt, p.value)) =
        samples.map fun sample => (sample.at, sample.value) := by
  rw [mapM_eq_ok]
  constructor
  · intro h
    apply map_eq_of_forall₂ (R := fun sample v => v = (sample.at, sample.value)) _ fun _ _ h => h
    rw [List.forall₂_map_right_iff]
    apply h.imp
    intro sample p hp
    obtain ⟨hat, hvalue⟩ := construct_point_eq_ok.mp (fromDomain_eq_ok.mp hp)
    rw [hat, hvalue]
  · intro h
    have hpairs : List.Forall₂ (fun v v' => v = v')
        (samples.map fun sample => (sample.at, sample.value))
        (points.map fun p => (p.observedAt, p.value)) := by
      rw [h, List.forall₂_same]
      intro v _
      rfl
    rw [List.forall₂_map_left_iff, List.forall₂_map_right_iff] at hpairs
    apply hpairs.imp
    intro sample p hp
    obtain ⟨hat, hvalue⟩ := Prod.mk.inj hp
    exact fromDomain_eq_ok.mpr (construct_point_eq_ok.mpr ⟨hat.symm, hvalue.symm⟩)

theorem construct_signal_eq_ok {key : { k : SignalKey // TextIdentifier.Valid k }}
    {points : List (MetricPoint F)} {signal : MetricSignal F} :
    MetricSignal.construct key points = .ok signal ↔
      (points.Pairwise fun p q => p.observedAt < q.observedAt) ∧
        signal.key = key.1 ∧ signal.points = points := by
  have : Trans (fun p q : MetricPoint F => p.observedAt < q.observedAt)
      (fun p q : MetricPoint F => p.observedAt < q.observedAt)
      (fun p q : MetricPoint F => p.observedAt < q.observedAt) := ⟨lt_trans⟩
  unfold MetricSignal.construct
  by_cases h : points.IsChain fun current following => current.observedAt < following.observedAt
  · rw [dif_pos h, Except.ok.injEq]
    constructor
    · rintro rfl
      exact ⟨List.isChain_iff_pairwise.mp h, rfl, rfl⟩
    · intro hsignal
      obtain ⟨-, hkey, hpoints⟩ := hsignal
      cases signal
      subst hkey hpoints
      rfl
  · rw [dif_neg h]
    constructor
    · intro hsignal
      exact absurd hsignal (by simp)
    · intro hsignal
      exact absurd (List.isChain_iff_pairwise.mpr hsignal.1) h

/-- **One series**: it becomes a signal exactly when it can be one, unchanged. -/
theorem toSignal_eq_ok {one : PrometheusSeries F} {signal : MetricSignal F} :
    toSignal one = .ok signal ↔ CanBeSignal one ∧ SignalOf one signal := by
  have htimes : ∀ {points : List (MetricPoint F)},
      points.map (fun p => (p.observedAt, p.value)) =
        (finiteSamples one).map (fun sample => (sample.at, sample.value)) →
      ((points.Pairwise fun p q => p.observedAt < q.observedAt) ↔
        (finiteSamples one).Pairwise fun p q => p.at < q.at) := by
    intro points hpoints
    have hinstants : points.map (·.observedAt) = (finiteSamples one).map (·.at) := by
      simpa [List.map_map, Function.comp_def] using congrArg (List.map Prod.fst) hpoints
    rw [← List.pairwise_map (f := fun p : MetricPoint F => p.observedAt) (R := fun s t => s < t),
      hinstants, List.pairwise_map]
  simp only [toSignal, rescue_eq_ok, bind_eq_ok, fromDomain_eq_ok, mapM_construct_eq_ok,
    construct_signal_eq_ok]
  constructor
  · intro h
    obtain ⟨key, hkey, points, hpoints, hincreasing, hname, rfl⟩ := h
    unfold SignalKey.construct at hkey
    by_cases hblank : isBlank one.name = false
    · rw [dif_pos hblank, Except.ok.injEq] at hkey
      subst hkey
      exact ⟨⟨hblank, (htimes hpoints).mp hincreasing⟩, ⟨congrArg (·.value) hname, hpoints⟩⟩
    · rw [dif_neg hblank] at hkey
      exact absurd hkey (by simp)
  · intro h
    obtain ⟨⟨hblank, hincreasing⟩, ⟨hname, hpoints⟩⟩ := h
    refine ⟨⟨⟨one.name⟩, hblank⟩, ?_, signal.points, hpoints, signal.increasing, ?_, rfl⟩
    · unfold SignalKey.construct
      rw [dif_pos hblank]
    · cases hkey : signal.key
      rw [hkey] at hname
      exact congrArg SignalKey.mk hname

theorem exists_signalOf {one : PrometheusSeries F} (h : CanBeSignal one) :
    ∃ signal, SignalOf one signal := by
  have hpoints : ∀ sample ∈ finiteSamples one, ∃ p : MetricPoint F,
      fromDomain (MetricPoint.construct sample.at sample.value) = .ok p := by
    intro sample hsample
    have hfinite : PyFloat.isFinite sample.value = true := by
      simpa using (List.mem_filter.mp hsample).2
    exact ⟨⟨sample.at, sample.value, hfinite⟩,
      fromDomain_eq_ok.mpr (construct_point_eq_ok.mpr ⟨rfl, rfl⟩)⟩
  obtain ⟨points, hmap⟩ := exists_mapM_eq_ok.mpr hpoints
  have hsame := mapM_construct_eq_ok.mp hmap
  have hinstants : points.map (·.observedAt) = (finiteSamples one).map (·.at) := by
    simpa [List.map_map, Function.comp_def] using congrArg (List.map Prod.fst) hsame
  have hincreasing : points.Pairwise fun p q => p.observedAt < q.observedAt := by
    have hlater : ((finiteSamples one).map (·.at)).Pairwise (· < ·) := by
      rw [List.pairwise_map]
      exact h.increasing
    rw [← hinstants, List.pairwise_map] at hlater
    exact hlater
  exact ⟨⟨⟨one.name⟩, h.named, points, hincreasing⟩, ⟨rfl, hsame⟩⟩

/-! ### The loop -/

/-- One turn of the loop. -/
theorem seriesToSignals_cons (seen : List Str) (one : PrometheusSeries F)
    (rest : List (PrometheusSeries F)) :
    seriesToSignals seen (one :: rest) =
      if finiteSamples one = [] then seriesToSignals seen rest
      else if one.name ∈ seen then .error .prometheusError
      else do
        let signal ← toSignal one
        let signals ← seriesToSignals (one.name :: seen) rest
        return signal :: signals :=
  rfl

theorem keptSeries_cons_of_empty {one : PrometheusSeries F} {rest : List (PrometheusSeries F)}
    (h : finiteSamples one = []) : keptSeries (one :: rest) = keptSeries rest := by
  simp [keptSeries, h]

theorem keptSeries_cons_of_nonempty {one : PrometheusSeries F} {rest : List (PrometheusSeries F)}
    (h : finiteSamples one ≠ []) : keptSeries (one :: rest) = one :: keptSeries rest := by
  simp [keptSeries, h]

/-- **The loop**, from any names seen before: it accepts when every kept series can be
    a signal under a name of its own, and returns their signals. -/
theorem seriesToSignals_eq_ok {seen : List Str} {series : List (PrometheusSeries F)}
    {signals : List (MetricSignal F)} :
    seriesToSignals seen series = .ok signals ↔
      (∀ one ∈ keptSeries series, CanBeSignal one) ∧
      (∀ one ∈ keptSeries series, one.name ∉ seen) ∧
      ((keptSeries series).map (·.name)).Nodup ∧
      List.Forall₂ SignalOf (keptSeries series) signals := by
  induction series generalizing seen signals with
  | nil =>
    show Except.ok [] = Except.ok signals ↔ _
    cases signals <;> simp [keptSeries]
  | cons one rest ih =>
    rw [seriesToSignals_cons]
    -- a series without finite samples is dropped before its name counts
    by_cases hempty : finiteSamples one = []
    · rw [if_pos hempty, keptSeries_cons_of_empty hempty]
      exact ih
    · rw [if_neg hempty, keptSeries_cons_of_nonempty hempty]
      by_cases hseen : one.name ∈ seen
      · rw [if_pos hseen]
        constructor
        · intro h
          exact absurd h (by simp)
        · intro h
          exact absurd hseen (h.2.1 one List.mem_cons_self)
      · rw [if_neg hseen]
        simp only [bind_eq_ok, pure_eq_ok, toSignal_eq_ok, ih, List.map_cons, List.nodup_cons,
          List.mem_cons, forall_eq_or_imp, not_or]
        constructor
        · intro h
          obtain ⟨signal, ⟨hcan, hsignal⟩, signals, ⟨heach, hnames, hdistinct, hsignals⟩, rfl⟩ := h
          refine ⟨⟨hcan, heach⟩, ⟨hseen, fun other hother => (hnames other hother).2⟩,
            ⟨?_, hdistinct⟩, .cons hsignal hsignals⟩
          intro hmem
          obtain ⟨other, hother, hname⟩ := List.mem_map.mp hmem
          exact (hnames other hother).1 hname
        · intro h
          obtain ⟨⟨hcan, heach⟩, ⟨-, hnames⟩, ⟨hfresh, hdistinct⟩, hsignals⟩ := h
          cases hsignals with
          | cons hsignal hsignals =>
            refine ⟨_, ⟨hcan, hsignal⟩, _, ⟨heach, ?_, hdistinct, hsignals⟩, rfl⟩
            intro other hother
            refine ⟨?_, hnames other hother⟩
            intro hname
            exact hfresh (List.mem_map.mpr ⟨other, hother, hname⟩)

/-- Every kept series of a representable response has its signal. -/
theorem exists_signals {series : List (PrometheusSeries F)} (h : Representable series) :
    ∃ signals, List.Forall₂ SignalOf (keptSeries series) signals := by
  have heach := h.each
  generalize keptSeries series = kept at heach
  induction kept with
  | nil => exact ⟨[], .nil⟩
  | cons one rest ih =>
    obtain ⟨hone, hrest⟩ := List.forall_mem_cons.mp heach
    obtain ⟨signal, hsignal⟩ := exists_signalOf hone
    obtain ⟨signals, hsignals⟩ := ih hrest
    exact ⟨signal :: signals, .cons hsignal hsignals⟩

/-- The keys of the inputs are the names of the signals. -/
theorem keys_of_toBaselineInputs {policy : ScaleFloorPolicy F} {signals : List (MetricSignal F)}
    {inputs : List (SignalBaselineInput F)} (h : toBaselineInputs policy signals = .ok inputs) :
    inputs.map (·.signal.key.value) = signals.map (·.key.value) := by
  have hinputs := mapM_eq_ok.mp h
  apply map_eq_of_forall₂ (R := fun signal v => v = signal.key.value) _ fun _ _ h => h
  rw [List.forall₂_map_right_iff]
  apply hinputs.imp
  intro signal input hinput
  simp only [bind_eq_ok, fromDomain_eq_ok] at hinput
  obtain ⟨floor, -, hconstruct⟩ := hinput
  unfold SignalBaselineInput.construct at hconstruct
  split at hconstruct
  · cases hconstruct
    rfl
  · exact absurd hconstruct (by simp)

/-- Inputs with distinct keys are not refused as duplicates. -/
theorem rankMetricShifts_ne_duplicate {window : IncidentWindow} {policy : BaselinePolicy F}
    {inputs : List (SignalBaselineInput F)} (h : (inputs.map (·.signal.key.value)).Nodup) :
    rankMetricShifts window inputs policy ≠ .error .duplicateSignal := by
  intro herror
  simp only [rankMetricShifts, bind_eq_error, require_eq_error, pure_ne_error, and_false,
    exists_false, or_false] at herror
  rcases herror with ⟨hnot, -⟩ | ⟨-, -, hloop⟩
  · exact hnot h
  · obtain ⟨_, item, _, -, -, hitem⟩ := mapM_eq_error.mp hloop
    exact absurd (evaluateSignal_eq_error hitem) (by decide)

/-! ### Exactness -/

/-- **The mapping is exact.** A representable response becomes one signal for each kept
    series, in order, with its finite samples; any other raises a `PrometheusError` and
    nothing else; and the baseline never finds a duplicate among the inputs made of
    what was accepted. -/
theorem series_mapping_exact (series : List (PrometheusSeries F)) :
    (Representable series → ∃ signals, seriesToSignals [] series = .ok signals ∧
      List.Forall₂ SignalOf (keptSeries series) signals) ∧
    (¬ Representable series → seriesToSignals [] series = .error .prometheusError) ∧
    (∀ signals, seriesToSignals [] series = .ok signals →
      ∀ floorPolicy inputs, toBaselineInputs floorPolicy signals = .ok inputs →
        ∀ window policy, rankMetricShifts window inputs policy ≠ .error .duplicateSignal) := by
  refine ⟨?_, ?_, ?_⟩
  · intro h
    obtain ⟨signals, hsignals⟩ := exists_signals h
    exact ⟨signals, seriesToSignals_eq_ok.mpr ⟨h.each, by simp, h.distinct, hsignals⟩, hsignals⟩
  · intro h
    cases hmap : seriesToSignals [] series with
    | ok signals =>
      obtain ⟨heach, -, hdistinct, -⟩ := seriesToSignals_eq_ok.mp hmap
      exact absurd ⟨heach, hdistinct⟩ h
    | error e =>
      by_contra hother
      exact raises_seriesToSignals (p := fun e => e ≠ .prometheusError) (by simp)
        ⟨e, hmap, fun he => hother (by rw [he])⟩
  · intro signals hmap floorPolicy inputs hinputs window policy
    obtain ⟨-, -, hdistinct, hsignals⟩ := seriesToSignals_eq_ok.mp hmap
    apply rankMetricShifts_ne_duplicate
    rw [keys_of_toBaselineInputs hinputs]
    have hnames : signals.map (·.key.value) = (keptSeries series).map (·.name) := by
      apply map_eq_of_forall₂ (R := fun one v => v = one.name) _ fun _ _ h => h
      rw [List.forall₂_map_right_iff]
      exact hsignals.imp fun one signal h => h.name
    rw [hnames]
    exact hdistinct

end IncidentEvidence
