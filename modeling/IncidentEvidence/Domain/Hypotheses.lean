import IncidentEvidence.Domain.ChangeEvidence

/-! # Hypothesis documents

    `hypotheses.py` and `change_hypotheses.py`: a flat list of one to 32
    predicates bound to a run context. The two kinds of document differ in their
    predicates, in the error they raise and in the keys that must be distinct;
    `Document` is what they share, and it carries the checks of its constructor.
-/

namespace IncidentEvidence

open Py

/-! ### Enumerations -/

/-- Descriptive, or an unverifiable causal claim. -/
inductive HypothesisSemantics where
  | descriptive
  | causal
  deriving DecidableEq

def HypothesisSemantics.value : HypothesisSemantics → Str
  | .descriptive => str "descriptive"
  | .causal => str "causal"

/-- Flat three-valued composition applied to all predicates. -/
inductive HypothesisComposition where
  | all
  | any
  deriving DecidableEq

def HypothesisComposition.value : HypothesisComposition → Str
  | .all => str "all"
  | .any => str "any"

/-- The directional metric shift asserted by a predicate. -/
inductive ExpectedDirection where
  | increase
  | decrease
  deriving DecidableEq

def ExpectedDirection.value : ExpectedDirection → Str
  | .increase => str "increase"
  | .decrease => str "decrease"

/-- The temporal region a change predicate asserts. -/
inductive ChangePhaseConstraint where
  | withinWindow
  | preInjection
  | postInjection
  deriving DecidableEq

def ChangePhaseConstraint.value : ChangePhaseConstraint → Str
  | .withinWindow => str "within_window"
  | .preInjection => str "pre_injection"
  | .postInjection => str "post_injection"

/-! ### Documents -/

/-- `MAX_PREDICATES` and `MAX_CHANGE_PREDICATES`. -/
def MAX_PREDICATES : Nat := 32

/-- The predicates a kind of document holds. -/
class Predicate (P : Type) where
  /-- The error of the documents over these predicates. -/
  invalid : DomainError
  predicateId : P → Str
  /-- The constructor of the predicate applied to its own fields. -/
  copy : P → Except DomainError P
  /-- What must be distinct between predicates besides their ids. -/
  Distinct : List P → Prop
  decidableDistinct : DecidablePred Distinct
  copy_eq : ∀ p, copy p = .ok p

instance {P : Type} [Predicate P] : DecidablePred (Predicate.Distinct (P := P)) :=
  Predicate.decidableDistinct

section documents
variable {P : Type} [Predicate P]

/-- The checks of a document's constructor. -/
structure DocumentOk (hypothesisId : Str) (tenantId : TenantId) (incidentId : IncidentId)
    (runId : RunId) (predicates : List P) : Prop where
  notBlank : isBlank hypothesisId = false
  tenant : TextIdentifier.Valid tenantId
  incident : TextIdentifier.Valid incidentId
  run : TextIdentifier.Valid runId
  nonempty : 1 ≤ predicates.length
  bounded : predicates.length ≤ MAX_PREDICATES
  distinctIds : (predicates.map Predicate.predicateId).Nodup
  distinct : Predicate.Distinct predicates

instance {hypothesisId : Str} {tenantId : TenantId} {incidentId : IncidentId} {runId : RunId}
    {predicates : List P} :
    Decidable (DocumentOk hypothesisId tenantId incidentId runId predicates) :=
  decidable_of_iff (isBlank hypothesisId = false ∧ TextIdentifier.Valid tenantId ∧
      TextIdentifier.Valid incidentId ∧ TextIdentifier.Valid runId ∧ 1 ≤ predicates.length ∧
      predicates.length ≤ MAX_PREDICATES ∧ (predicates.map Predicate.predicateId).Nodup ∧
      Predicate.Distinct predicates)
    ⟨fun ⟨h1, h2, h3, h4, h5, h6, h7, h8⟩ => ⟨h1, h2, h3, h4, h5, h6, h7, h8⟩,
      fun ⟨h1, h2, h3, h4, h5, h6, h7, h8⟩ => ⟨h1, h2, h3, h4, h5, h6, h7, h8⟩⟩

variable (P) in
/-- A flat, bounded hypothesis bound to one exact ledger context. -/
structure Document where
  hypothesisId : Str
  tenantId : TenantId
  incidentId : IncidentId
  runId : RunId
  semantics : HypothesisSemantics
  composition : HypothesisComposition
  predicates : List P
  ok : DocumentOk hypothesisId tenantId incidentId runId predicates

/-- The constructor of a document. All its checks raise the same error. -/
def Document.construct (hypothesisId : Str) (tenantId : TenantId) (incidentId : IncidentId)
    (runId : RunId) (semantics : HypothesisSemantics) (composition : HypothesisComposition)
    (predicates : List P) : Except DomainError (Document P) := do
  let copied ← replaceError (Predicate.invalid P) (predicates.mapM Predicate.copy)
  if h : DocumentOk hypothesisId tenantId incidentId runId copied then
    return ⟨hypothesisId, tenantId, incidentId, runId, semantics, composition, copied, h⟩
  else
    throw (Predicate.invalid P)

theorem Document.construct_eq_ok {hypothesisId : Str} {tenantId : TenantId}
    {incidentId : IncidentId} {runId : RunId} {semantics : HypothesisSemantics}
    {composition : HypothesisComposition} {predicates : List P} {d : Document P} :
    Document.construct hypothesisId tenantId incidentId runId semantics composition predicates =
        .ok d ↔
      ∃ h : DocumentOk hypothesisId tenantId incidentId runId predicates,
        d = ⟨hypothesisId, tenantId, incidentId, runId, semantics, composition, predicates, h⟩ := by
  have hcopy : predicates.mapM Predicate.copy = .ok predicates :=
    (mapM_eq_ok_of (p := fun _ => True) (g := id) fun a _ b => by
      simp [Predicate.copy_eq, eq_comm]).mpr ⟨fun _ _ => trivial, by simp⟩
  simp only [construct, hcopy, replaceError, bind, Except.bind]
  split
  · next h => simp [pure, Except.pure, h, eq_comm]
  · next h => simp [h]

/-- `validate_hypothesis_document` and `validate_change_hypothesis_document`:
    construct the document again. -/
def validateDocument (value : Document P) : Except DomainError (Document P) :=
  replaceError (Predicate.invalid P) (Document.construct value.hypothesisId value.tenantId
    value.incidentId value.runId value.semantics value.composition value.predicates)

/-- Reconstruction returns the document. -/
@[simp] theorem validateDocument_eq (value : Document P) : validateDocument value = .ok value :=
  replaceError_eq_ok.mpr (Document.construct_eq_ok.mpr ⟨value.ok, rfl⟩)

end documents

/-! ### Metric hypotheses -/

/-- One allow-listed assertion over one exact metric signal. -/
structure MetricShiftPredicate where
  predicateId : Str
  signalKey : SignalKey
  expectedDirection : ExpectedDirection
  notBlank : isBlank predicateId = false
  keyValid : TextIdentifier.Valid signalKey
  deriving DecidableEq

/-- `MetricShiftPredicate.__post_init__`. -/
def MetricShiftPredicate.construct (predicateId : Str) (signalKey : SignalKey)
    (expectedDirection : ExpectedDirection) : Except DomainError MetricShiftPredicate :=
  if h : isBlank predicateId = false ∧ TextIdentifier.Valid signalKey then
    .ok ⟨predicateId, signalKey, expectedDirection, h.1, h.2⟩
  else .error .invalidHypothesis

instance : Predicate MetricShiftPredicate where
  invalid := .invalidHypothesis
  predicateId := MetricShiftPredicate.predicateId
  copy p := MetricShiftPredicate.construct p.predicateId p.signalKey p.expectedDirection
  Distinct ps := (ps.map (·.signalKey.value)).Nodup
  decidableDistinct _ := inferInstance
  copy_eq p := by simp [MetricShiftPredicate.construct, p.notBlank, p.keyValid]

abbrev HypothesisDocument := Document MetricShiftPredicate

/-- `validate_hypothesis_document`. -/
def validateHypothesisDocument (value : HypothesisDocument) :
    Except DomainError HypothesisDocument :=
  validateDocument value

/-! ### Change hypotheses -/

/-- One allow-listed assertion over one exact change target, kind and phase. -/
structure ChangeCooccurrencePredicate where
  predicateId : Str
  eventKey : ChangeEventKey
  kind : ChangeKind
  phaseConstraint : ChangePhaseConstraint
  notBlank : isBlank predicateId = false
  keyValid : TextIdentifier.Valid eventKey
  deriving DecidableEq

/-- `ChangeCooccurrencePredicate.__post_init__`. -/
def ChangeCooccurrencePredicate.construct (predicateId : Str) (eventKey : ChangeEventKey)
    (kind : ChangeKind) (phaseConstraint : ChangePhaseConstraint) :
    Except DomainError ChangeCooccurrencePredicate :=
  if h : isBlank predicateId = false ∧ TextIdentifier.Valid eventKey then
    .ok ⟨predicateId, eventKey, kind, phaseConstraint, h.1, h.2⟩
  else .error .invalidChangeHypothesis

/-- Change predicates may name one target several times. -/
instance : Predicate ChangeCooccurrencePredicate where
  invalid := .invalidChangeHypothesis
  predicateId := ChangeCooccurrencePredicate.predicateId
  copy p := ChangeCooccurrencePredicate.construct p.predicateId p.eventKey p.kind p.phaseConstraint
  Distinct _ := True
  decidableDistinct _ := inferInstance
  copy_eq p := by simp [ChangeCooccurrencePredicate.construct, p.notBlank, p.keyValid]

abbrev ChangeHypothesisDocument := Document ChangeCooccurrencePredicate

/-- `validate_change_hypothesis_document`. -/
def validateChangeHypothesisDocument (value : ChangeHypothesisDocument) :
    Except DomainError ChangeHypothesisDocument :=
  validateDocument value

end IncidentEvidence
