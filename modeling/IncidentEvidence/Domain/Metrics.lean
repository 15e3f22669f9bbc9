import IncidentEvidence.Domain.Incidents

/-! # Building signals

    The constructors of `metrics.py`. What they check is what the fields of a
    point, a key and a signal carry, so a value that is returned is a value that
    passed.
-/

namespace IncidentEvidence

open Py

variable {F : Type} [PyFloat F]

/-- `SignalKey.__post_init__`. -/
def SignalKey.construct (name : Str) :
    Except DomainError { k : SignalKey // TextIdentifier.Valid k } :=
  if h : isBlank name = false then .ok ⟨⟨name⟩, h⟩ else .error .invalidIdentifier

/-- `MetricPoint.__post_init__`, given an instant in UTC. -/
def MetricPoint.construct (observedAt : Datetime) (value : F) :
    Except DomainError (MetricPoint F) :=
  if h : PyFloat.isFinite value = true then .ok ⟨observedAt, value, h⟩
  else .error .invalidMetricPoint

/-- `MetricSignal.__init__`, which compares neighbours. -/
def MetricSignal.construct (key : { k : SignalKey // TextIdentifier.Valid k })
    (points : List (MetricPoint F)) : Except DomainError (MetricSignal F) :=
  if h : points.IsChain fun current following => current.observedAt < following.observedAt then
    have : Trans (fun p q : MetricPoint F => p.observedAt < q.observedAt)
        (fun p q : MetricPoint F => p.observedAt < q.observedAt)
        (fun p q : MetricPoint F => p.observedAt < q.observedAt) := ⟨lt_trans⟩
    .ok ⟨key.1, key.2, points, List.isChain_iff_pairwise.mp h⟩
  else .error .invalidMetricSignal

end IncidentEvidence
