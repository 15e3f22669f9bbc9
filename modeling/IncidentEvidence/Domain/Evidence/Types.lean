import IncidentEvidence.Domain.Baseline

/-! # Metric-shift evidence values

    `evidence/types.py`: the decision, the entries and the ledger, with the
    equality Python gives them. Python compares floats with `==`, which tells
    `0.0` and `-0.0` not apart, so its equality is coarser than Lean's.
-/

namespace IncidentEvidence

open Py

/-- `SCHEMA_VERSION`. -/
def SCHEMA_VERSION : Str := str "metric-evidence-ledger.v1"

/-- The aggregate decision retained as diagnostic context. -/
inductive MetricShiftDecisionKind where
  | ranking
  | abstention
  deriving DecidableEq

def MetricShiftDecisionKind.value : MetricShiftDecisionKind → Str
  | .ranking => str "ranking"
  | .abstention => str "abstention"

section types
variable (F : Type)

/-- A snapshot of the aggregate baseline decision. -/
structure MetricShiftDecision where
  kind : MetricShiftDecisionKind
  abstentionReason : Option AbstentionReason
  candidateSignalKeys : List SignalKey
  eligibleSignalCount : Int
  topScore : Option F
  secondScore : Option F
  lead : Option F

/-- Replayable evidence for exactly one evaluated metric signal. -/
structure MetricShiftEvidence where
  evidenceId : EvidenceId
  signalKey : SignalKey
  prePointCount : Int
  postPointCount : Int
  eligible : Bool
  absoluteScaleFloor : F
  relativeScaleFloor : F
  candidate : Option (SuspicionCandidate F)

/-- One baseline bound to an exact incident run context. -/
structure MetricEvidenceLedger where
  schemaVersion : Str
  tenantId : TenantId
  incidentId : IncidentId
  runId : RunId
  window : IncidentWindow
  policy : BaselinePolicy F
  decision : MetricShiftDecision F
  entries : List (MetricShiftEvidence F)

end types

/-- The evaluation an entry replays. -/
def MetricShiftEvidence.evaluation {F : Type} (e : MetricShiftEvidence F) : SignalEvaluation F where
  signalKey := e.signalKey
  absoluteScaleFloor := e.absoluteScaleFloor
  prePointCount := e.prePointCount
  postPointCount := e.postPointCount
  eligible := e.eligible
  candidate := e.candidate

@[simp] theorem MetricShiftEvidence.evaluation_signalKey {F : Type} (e : MetricShiftEvidence F) :
    e.evaluation.signalKey = e.signalKey := rfl

/-! ### Python equality -/

section equality
variable {F : Type} [PyFloat F]

/-- `==` of two optional values. -/
def optionEq {α : Type} (eq : α → α → Bool) : Option α → Option α → Bool
  | none, none => true
  | some a, some b => eq a b
  | _, _ => false

def SuspicionCandidate.eq (a b : SuspicionCandidate F) : Bool :=
  decide (a.signalKey = b.signalKey) && decide (a.prePointCount = b.prePointCount) &&
    decide (a.postPointCount = b.postPointCount) && PyFloat.eq a.preMedian b.preMedian &&
    PyFloat.eq a.postMedian b.postMedian && PyFloat.eq a.preMad b.preMad &&
    PyFloat.eq a.absoluteScaleFloor b.absoluteScaleFloor &&
    PyFloat.eq a.relativeScaleFloor b.relativeScaleFloor && PyFloat.eq a.scale b.scale &&
    PyFloat.eq a.signedScore b.signedScore && PyFloat.eq a.suspicionScore b.suspicionScore

def MetricShiftDecision.eq (a b : MetricShiftDecision F) : Bool :=
  decide (a.kind = b.kind) && decide (a.abstentionReason = b.abstentionReason) &&
    decide (a.candidateSignalKeys = b.candidateSignalKeys) &&
    decide (a.eligibleSignalCount = b.eligibleSignalCount) &&
    optionEq PyFloat.eq a.topScore b.topScore && optionEq PyFloat.eq a.secondScore b.secondScore &&
    optionEq PyFloat.eq a.lead b.lead

def MetricShiftEvidence.eq (a b : MetricShiftEvidence F) : Bool :=
  decide (a.evidenceId = b.evidenceId) && decide (a.signalKey = b.signalKey) &&
    decide (a.prePointCount = b.prePointCount) && decide (a.postPointCount = b.postPointCount) &&
    decide (a.eligible = b.eligible) && PyFloat.eq a.absoluteScaleFloor b.absoluteScaleFloor &&
    PyFloat.eq a.relativeScaleFloor b.relativeScaleFloor &&
    optionEq SuspicionCandidate.eq a.candidate b.candidate

def BaselinePolicy.eq (a b : BaselinePolicy F) : Bool :=
  decide (a.minimumPointsPerWindow = b.minimumPointsPerWindow) &&
    PyFloat.eq a.minimumScore b.minimumScore && PyFloat.eq a.minimumMargin b.minimumMargin &&
    PyFloat.eq a.relativeScaleFloor b.relativeScaleFloor

def MetricEvidenceLedger.eq (a b : MetricEvidenceLedger F) : Bool :=
  decide (a.schemaVersion = b.schemaVersion) && decide (a.tenantId = b.tenantId) &&
    decide (a.incidentId = b.incidentId) && decide (a.runId = b.runId) &&
    decide (a.window = b.window) && a.policy.eq b.policy && a.decision.eq b.decision &&
    a.entries.isEqv b.entries MetricShiftEvidence.eq

theorem optionEq_trans {α : Type} {eq : α → α → Bool}
    (htrans : ∀ {a b c}, eq a b = true → eq b c = true → eq a c = true) {a b c : Option α}
    (hab : optionEq eq a b = true) (hbc : optionEq eq b c = true) : optionEq eq a c = true := by
  match a, b, c with
  | none, none, none => rfl
  | some a, some b, some c => exact htrans hab hbc
  | none, some _, _ => exact absurd hab (by simp [optionEq])
  | some _, none, _ => exact absurd hab (by simp [optionEq])
  | none, none, some _ => exact absurd hbc (by simp [optionEq])
  | some _, some _, none => exact absurd hbc (by simp [optionEq])

theorem optionEq_symm {α : Type} {eq : α → α → Bool}
    (hsymm : ∀ {a b}, eq a b = true → eq b a = true) {a b : Option α}
    (hab : optionEq eq a b = true) : optionEq eq b a = true := by
  match a, b with
  | none, none => rfl
  | some a, some b => exact hsymm hab
  | none, some _ => exact absurd hab (by simp [optionEq])
  | some _, none => exact absurd hab (by simp [optionEq])

end equality

end IncidentEvidence
