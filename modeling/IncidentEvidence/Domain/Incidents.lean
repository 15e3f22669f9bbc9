import IncidentEvidence.Py.Datetime
import IncidentEvidence.Py.Except
import IncidentEvidence.Py.Float

/-! # Identifiers, incident windows and metric signals

    The value types of `errors.py`, `identifiers.py`, `incidents.py` and
    `metrics.py`.

    A ledger validator does not trust the objects it is handed, so identifiers,
    keys and windows are plain records here and `Valid` says what their
    constructors check. Metric points and signals never reach a validator; they
    carry the checks of their constructors as fields.
-/

namespace IncidentEvidence

open Py

/-! ### Errors -/

/-- The domain errors, one for each class of `errors.py`. -/
inductive DomainError where
  | invalidIdentifier
  | invalidTimestamp
  | invalidIncidentWindow
  | invalidMetricPoint
  | invalidMetricSignal
  | invalidBaselineConfiguration
  | duplicateSignal
  | baselineComputation
  | invalidEvidenceLedger
  | invalidHypothesis
  | invalidChangeEvent
  | invalidChangeEventLedger
  | invalidChangeHypothesis
  | canonicalSerialization
  deriving DecidableEq, Repr

/-- The `code` of an error class. -/
def DomainError.code : DomainError → Str
  | .invalidIdentifier => str "invalid_identifier"
  | .invalidTimestamp => str "invalid_timestamp"
  | .invalidIncidentWindow => str "invalid_incident_window"
  | .invalidMetricPoint => str "invalid_metric_point"
  | .invalidMetricSignal => str "invalid_metric_signal"
  | .invalidBaselineConfiguration => str "invalid_baseline_configuration"
  | .duplicateSignal => str "duplicate_signal"
  | .baselineComputation => str "baseline_computation_failed"
  | .invalidEvidenceLedger => str "invalid_evidence_ledger"
  | .invalidHypothesis => str "invalid_hypothesis"
  | .invalidChangeEvent => str "invalid_change_event"
  | .invalidChangeEventLedger => str "invalid_change_event_ledger"
  | .invalidChangeHypothesis => str "invalid_change_hypothesis"
  | .canonicalSerialization => str "canonical_serialization_failed"

/-! ### Identifiers -/

structure TenantId where
  value : Str
  deriving DecidableEq

structure IncidentId where
  value : Str
  deriving DecidableEq

structure RunId where
  value : Str
  deriving DecidableEq

structure EvidenceId where
  value : Str
  deriving DecidableEq

/-- `metrics.SignalKey`; keys are ordered by their text. -/
structure SignalKey where
  value : Str
  deriving DecidableEq

/-- The identifier types whose constructor is `_validate_text_identifier`. -/
class TextIdentifier (ι : Type) where
  value : ι → Str
  make : Str → ι
  make_value : ∀ i, make (value i) = i

instance : TextIdentifier TenantId := ⟨TenantId.value, TenantId.mk, fun _ => rfl⟩
instance : TextIdentifier IncidentId := ⟨IncidentId.value, IncidentId.mk, fun _ => rfl⟩
instance : TextIdentifier RunId := ⟨RunId.value, RunId.mk, fun _ => rfl⟩
instance : TextIdentifier EvidenceId := ⟨EvidenceId.value, EvidenceId.mk, fun _ => rfl⟩
instance : TextIdentifier SignalKey := ⟨SignalKey.value, SignalKey.mk, fun _ => rfl⟩

/-- The text of an identifier is not blank. -/
def TextIdentifier.Valid {ι : Type} [TextIdentifier ι] (i : ι) : Prop :=
  isBlank (TextIdentifier.value i) = false

instance {ι : Type} [TextIdentifier ι] (i : ι) : Decidable (TextIdentifier.Valid i) :=
  inferInstanceAs (Decidable (_ = false))

/-- The constructor of an identifier (`_validate_text_identifier`). -/
def TextIdentifier.construct {ι : Type} [TextIdentifier ι] (value : Str) :
    Except DomainError ι := do
  require (isBlank value = false) .invalidIdentifier
  return make value

/-- `_identifier` of a ledger module, which raises that module's own error. -/
def checkedIdentifier {ι : Type} [TextIdentifier ι] (e : DomainError) (value : ι) :
    Except DomainError ι := do
  require (TextIdentifier.Valid value) e
  return TextIdentifier.make (TextIdentifier.value value)

@[simp] theorem checkedIdentifier_eq_ok {ι : Type} [TextIdentifier ι] {e : DomainError}
    {value i : ι} :
    checkedIdentifier e value = .ok i ↔ TextIdentifier.Valid value ∧ i = value := by
  simp [checkedIdentifier, TextIdentifier.make_value, -bind_pure_comp]

/-! ### Incident windows -/

/-- An incident window with its instants in UTC. -/
structure IncidentWindow where
  start : Datetime
  injection : Datetime
  «end» : Datetime
  deriving DecidableEq

/-- `IncidentWindow.__post_init__`: `start <= injection < end`. -/
def IncidentWindow.Valid (w : IncidentWindow) : Prop :=
  w.start ≤ w.injection ∧ w.injection < w.end

instance (w : IncidentWindow) : Decidable w.Valid := inferInstanceAs (Decidable (_ ∧ _))

/-- The constructor of a window, given instants that `to_utc` accepted. -/
def IncidentWindow.construct (start injection «end» : Datetime) :
    Except DomainError IncidentWindow := do
  require (start ≤ injection ∧ injection < «end») .invalidIncidentWindow
  return ⟨start, injection, «end»⟩

theorem IncidentWindow.construct_eq_ok {start injection «end» : Datetime} {w : IncidentWindow} :
    IncidentWindow.construct start injection «end» = .ok w ↔
      w.Valid ∧ w = ⟨start, injection, «end»⟩ := by
  simp only [construct, bind_eq_ok, require_eq_ok, pure_eq_ok, exists_const]
  constructor
  · rintro ⟨h, rfl⟩
    exact ⟨h, rfl⟩
  · rintro ⟨h, rfl⟩
    exact ⟨h, rfl⟩

/-- `_window` of a ledger module, which raises that module's own error. -/
def checkedWindow (e : DomainError) (value : IncidentWindow) : Except DomainError IncidentWindow := do
  require (value.start ≤ value.injection ∧ value.injection < value.end) e
  return ⟨value.start, value.injection, value.end⟩

@[simp] theorem checkedWindow_eq_ok {e : DomainError} {value w : IncidentWindow} :
    checkedWindow e value = .ok w ↔ value.Valid ∧ w = value := by
  simp [checkedWindow, IncidentWindow.Valid, -bind_pure_comp]

/-! ### Metric signals -/

section signals
variable (F : Type) [PyFloat F]

/-- One observation; its value is finite. -/
structure MetricPoint where
  observedAt : Datetime
  value : F
  finite : PyFloat.isFinite value = true

/-- A named series of observations in strictly increasing order of time. -/
structure MetricSignal where
  key : SignalKey
  keyValid : TextIdentifier.Valid key
  points : List (MetricPoint F)
  increasing : points.Pairwise fun p q => p.observedAt < q.observedAt

end signals

end IncidentEvidence
