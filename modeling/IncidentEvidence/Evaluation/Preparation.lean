import IncidentEvidence.Domain.Verdicts
import IncidentEvidence.Evaluation.Runner

/-! # What the LLM arm has when it calls the provider

    Before the first call of the provider a case has become inputs, a baseline and a
    ledger. `prepare_eq_ok` says what they are. In exact arithmetic nothing on the way
    raises (`case_is_prepared`): the floor of a signal is positive, the identifier of a case
    can be written, and the compiler accepts what the baseline computes. -/

namespace IncidentEvidence

open Py

/-! ### The identifiers of a case -/

theorem isBlank_uuid (u : UUID) : isBlank u.str = false := by
  have hdash : CodePoint.scalar '-' ∈ u.str := by
    unfold UUID.str
    simp only [List.mem_append]
    exact .inl (.inr (List.mem_singleton.mpr rfl))
  exact isBlank_eq_false_of_mem hdash (by decide)

/-! ### Inputs -/

section inputs
variable {F : Type} [PyFloat F]

theorem fromSource_eq_ok {α : Type} {x : Except SourceException α} {a : α} :
    fromSource x = .ok a ↔ x = .ok a := by
  cases x with
  | ok b => simp [fromSource]
  | error e => cases e <;> simp [fromSource]

end inputs

/-- A floor policy that its constructor accepts, in exact arithmetic. -/
structure ScaleFloorPolicy.Valid (policy : ScaleFloorPolicy ExactFloat) : Prop where
  fraction : ∃ q : ℚ, policy.relativeFloorFraction = .fin q
  epsilon : ∃ q : ℚ, policy.absoluteEpsilon = .fin q ∧ 0 < q

theorem ScaleFloorPolicy.default_valid : (ScaleFloorPolicy.default : ScaleFloorPolicy ExactFloat).Valid :=
  ⟨⟨_, rfl⟩, ⟨_, rfl, by norm_num⟩⟩

/-- The floor of a signal is a positive number. -/
theorem floorFor_pos {policy : ScaleFloorPolicy ExactFloat} (h : policy.Valid)
    (signal : MetricSignal ExactFloat) : ∃ q : ℚ, policy.floorFor signal = .ok (.fin q) ∧ 0 < q := by
  obtain ⟨fraction, hfraction⟩ := h.fraction
  obtain ⟨epsilon, hepsilon, hpositive⟩ := h.epsilon
  unfold ScaleFloorPolicy.floorFor
  by_cases hempty : (signal.points.map fun point => PyFloat.abs point.value) = []
  · simp only [hempty, if_true]
    exact ⟨epsilon, congrArg Except.ok hepsilon, hpositive⟩
  · have hmagnitudes : (signal.points.map fun point => PyFloat.abs point.value) =
        (signal.points.map fun point => |point.value.toRat|).map .fin := by
      rw [List.map_map]
      apply List.map_congr_left
      intro point _
      rw [Function.comp_apply, ← ExactFloat.abs_fin, ExactFloat.fin_toRat point.finite]
    simp only [hempty, if_false]
    rw [hmagnitudes, ExactFloat.median_fin (by simpa using hempty), hfraction, hepsilon]
    have hfloor (typical : ℚ) : PyFloat.max (ExactFloat.fin epsilon)
        (PyFloat.mul (.fin fraction) (.fin typical)) = .fin (max epsilon (fraction * typical)) := by
      rw [ExactFloat.mul_fin, ExactFloat.max_fin]
    exact ⟨_, congrArg Except.ok (hfloor _), lt_max_of_lt_left hpositive⟩

/-- Signals always become inputs. -/
theorem exists_inputs {policy : ScaleFloorPolicy ExactFloat} (h : policy.Valid)
    (signals : List (MetricSignal ExactFloat)) :
    ∃ inputs, toBaselineInputs policy signals = .ok inputs := by
  apply exists_mapM_eq_ok.mpr
  intro signal _
  obtain ⟨floor, hfloor, hpositive⟩ := floorFor_pos h signal
  have haccepted : PyFloat.isFinite (ExactFloat.fin floor) = true ∧
      PyFloat.le PyFloat.zero (ExactFloat.fin floor) = true ∧
      PyFloat.le (ExactFloat.fin floor) PyFloat.zero = false := by
    refine ⟨rfl, ?_, ?_⟩
    · simpa using hpositive.le
    · simpa using hpositive
  rw [hfloor]
  refine ⟨⟨signal, .fin floor, haccepted.1, haccepted.2.2⟩, ?_⟩
  show fromDomain (SignalBaselineInput.construct signal (.fin floor)) = _
  unfold SignalBaselineInput.construct
  rw [dif_pos haccepted]
  rfl

/-! ### Preparation -/

section preparation
variable {F : Type} [PyFloat F] [FloatHex F] [Sha256] {H : Harness F} {case : InvestigationCase F}

/-- The steps up to the first call of the provider. -/
theorem prepare_eq_ok {prepared : PreparedCase F} :
    H.prepare case = .ok prepared ↔ ∃ inputs baseline ledger,
      H.inputs case = .ok inputs ∧ rankMetricShifts case.window inputs H.policy = .ok baseline ∧
        compileMetricShiftLedger evaluationTenant ⟨case.caseId.value.str⟩ ⟨case.caseId.value.str⟩
          case.window baseline = .ok ledger ∧
        prepared = ⟨baseline, ledger, ⟨evaluationTenant, ⟨case.caseId.value.str⟩,
          ⟨case.caseId.value.str⟩, allowedSignals ledger⟩⟩ := by
  unfold Harness.prepare
  simp only [bind_eq_ok, liftDomain_eq_ok, pure_eq_ok]
  constructor
  · intro h
    obtain ⟨inputs, hinputs, baseline, hrank, ledger, hcompile, hprepared⟩ := h
    exact ⟨inputs, baseline, ledger, hinputs, hrank, hcompile, hprepared⟩
  · intro h
    obtain ⟨inputs, baseline, ledger, hinputs, hrank, hcompile, hprepared⟩ := h
    exact ⟨inputs, hinputs, baseline, hrank, ledger, hcompile, hprepared⟩

end preparation

/-- **Every case is prepared**: in exact arithmetic nothing raises before the first call of
    the provider, for the cases that the adapter loads and a policy with a printable
    minimum. -/
theorem case_is_prepared [FloatHex ExactFloat] [LawfulFloatHex ExactFloat] [Sha256]
    {H : Harness ExactFloat} {case : InvestigationCase ExactFloat} (hwindow : case.window.Valid)
    (hpolicy : H.policy.Valid) (hfloors : (H.floorPolicy.getD .default).Valid)
    (hkeys : ∀ signal ∈ case.signals, Encodable signal.key.value)
    (hdistinct : (case.signals.map (·.key)).Nodup) (hsize : case.signals.length ≤ maxsize)
    (hpoints : H.policy.minimumPointsPerWindow < 10 ^ maxStrDigits) :
    ∃ prepared, H.prepare case = .ok prepared := by
  obtain ⟨inputs, hinputs⟩ := exists_inputs hfloors case.signals
  have hsignals := signals_of_inputs hinputs
  have hinputKeys : inputs.map (·.signal.key) = case.signals.map (·.key) := by
    rw [← hsignals, List.map_map]
    rfl
  obtain ⟨baseline, hrank⟩ := exists_rank case.window inputs hpolicy (hinputKeys ▸ hdistinct)
  have hencodable : ∀ item ∈ inputs, Encodable item.signal.key.value :=
    fun item hitem => hkeys _ (hsignals ▸ List.mem_map_of_mem hitem)
  have hlength : inputs.length ≤ maxsize := by
    have hlengths := congrArg List.length hsignals
    rw [List.length_map] at hlengths
    rw [hlengths]
    exact hsize
  have htenant : TextIdentifier.Valid evaluationTenant ∧ Encodable evaluationTenant.value :=
    ⟨by decide, encodable_str _⟩
  have hincident : TextIdentifier.Valid (⟨case.caseId.value.str⟩ : IncidentId) ∧
      Encodable case.caseId.value.str := ⟨isBlank_uuid _, UUID.encodable_str _⟩
  have hrun : TextIdentifier.Valid (⟨case.caseId.value.str⟩ : RunId) ∧
      Encodable case.caseId.value.str := ⟨isBlank_uuid _, UUID.encodable_str _⟩
  obtain ⟨entries, -, -, hcompile⟩ := compile_rank htenant hincident hrun hwindow hpolicy hencodable
    hlength (fun _ => hpoints) hrank
  exact ⟨_, prepare_eq_ok.mpr
    ⟨inputs, baseline, _, fromSource_eq_ok.mpr hinputs, hrank, hcompile, rfl⟩⟩

end IncidentEvidence
