import IncidentEvidence.Domain.Hypotheses
import IncidentEvidence.Exceptions
import IncidentEvidence.Py.JsonDecode
import Mathlib.Data.Finset.Basic

/-! # The LLM boundary

    `llm/parsing.py`: untrusted model output becomes a hypothesis document or an
    `LLMValidationError`.

    The interpreter can run out of stack in two places, on values that are nested
    too deeply: while `json.loads` enters containers, and while an enumeration
    class formats a value that is none of its members for the message of its
    `ValueError`. The first `RecursionError` is caught and the second is not.

    The main result says exactly on which inputs the boundary fails typed
    (`parse_metric_hypothesis_typed`).
-/

namespace IncidentEvidence

open Py

/-- How deep the interpreter can go. -/
structure RecursionLimits where
  /-- Containers `json.loads` can enter. -/
  decode : Nat
  /-- Nested calls of `repr`. -/
  repr : Nat

/-! ### Building the document -/

mutual

/-- Nested calls of `repr` to format a decoded value. -/
def reprDepth : Json → Nat
  | .arr items => 1 + reprDepthItems items
  | .obj fields => 1 + reprDepthFields fields
  | _ => 1

def reprDepthItems : List Json → Nat
  | [] => 0
  | v :: vs => Nat.max (reprDepth v) (reprDepthItems vs)

def reprDepthFields : List (Str × Json) → Nat
  | [] => 0
  | (_, v) :: fs => Nat.max (reprDepth v) (reprDepthFields fs)

end

/-- The member of an enumeration with a decoded value. -/
def memberOf {α : Type} (members : List α) (value : α → Str) : Json → Option α
  | .str s => members.find? fun m => value m = s
  | _ => none

/-- The call of an enumeration class: its `ValueError` names the value with `repr`. -/
def enumLookup {α : Type} (limits : RecursionLimits) (members : List α) (value : α → Str)
    (v : Json) : Except PyException α :=
  match memberOf members value v with
  | some m => .ok m
  | none => if limits.repr < reprDepth v then .error .recursionError else .error .valueError

def expectedDirection (limits : RecursionLimits) : Json → Except PyException ExpectedDirection :=
  enumLookup limits [.increase, .decrease] ExpectedDirection.value

def hypothesisSemantics (limits : RecursionLimits) :
    Json → Except PyException HypothesisSemantics :=
  enumLookup limits [.descriptive, .causal] HypothesisSemantics.value

def hypothesisComposition (limits : RecursionLimits) :
    Json → Except PyException HypothesisComposition :=
  enumLookup limits [.all, .any] HypothesisComposition.value

/-- `fields[key]`. -/
def getItem (fields : List (Str × Json)) (key : String) : Except PyException Json :=
  orRaise (fields.lookup (str key)) .keyError

/-- The constructor of an identifier applied to a decoded value. -/
def identifierOf (ι : Type) [TextIdentifier ι] : Json → Except PyException ι
  | .str s => liftDomain (TextIdentifier.construct s)
  | _ => .error (.domain .invalidIdentifier)

/-- `_build_predicate`. -/
def buildPredicate (limits : RecursionLimits) : Json → Except PyException MetricShiftPredicate
  | .obj fields => do
    let predicateId ← getItem fields "predicate_id"
    let signalKey ← identifierOf SignalKey (← getItem fields "signal_key")
    let direction ← expectedDirection limits (← getItem fields "expected_direction")
    match predicateId with
    | .str id => liftDomain (MetricShiftPredicate.construct id signalKey direction)
    | _ => .error (.domain .invalidHypothesis)
  | _ => .error .typeError

/-- The body of the `try` that builds the document. -/
def buildDocument (limits : RecursionLimits) (fields : List (Str × Json)) (predicates : List Json) :
    Except PyException HypothesisDocument := do
  let predicateObjects ← predicates.mapM (buildPredicate limits)
  let hypothesisId ← getItem fields "hypothesis_id"
  let tenant ← identifierOf TenantId (← getItem fields "tenant_id")
  let incident ← identifierOf IncidentId (← getItem fields "incident_id")
  let run ← identifierOf RunId (← getItem fields "run_id")
  let semantics ← hypothesisSemantics limits (← getItem fields "semantics")
  let composition ← hypothesisComposition limits (← getItem fields "composition")
  match hypothesisId with
  | .str id => do
    let document ← liftDomain
      (Document.construct id tenant incident run semantics composition predicateObjects)
    liftDomain (validateHypothesisDocument document)
  | _ => .error (.domain .invalidHypothesis)

/-! ### The parser -/

/-- `MAX_PROPOSAL_CHARS`. -/
def MAX_PROPOSAL_CHARS : Nat := 65536

/-- `json.loads(raw)` with its `except (RecursionError, json.JSONDecodeError)`. -/
def decodeProposal (limits : RecursionLimits) (raw : Str) : Except PyException Json :=
  match loads limits.decode raw with
  | .ok parsed => .ok parsed
  | .error .jsonDecode | .error .recursion => .error (.llm .malformedProposal)
  | .error .value => .error .valueError

/-- `except (KeyError, TypeError, ValueError)`. -/
def isStructuralRejection (e : PyException) : Bool :=
  decide (e = .keyError) || decide (e = .typeError) || e.isValueError

/-- `parse_metric_hypothesis`. -/
def parseMetricHypothesis (limits : RecursionLimits) (raw : Str)
    (allowedSignals : Finset SignalKey) : Except PyException HypothesisDocument := do
  require (¬ MAX_PROPOSAL_CHARS < raw.length) (.llm .proposalTooLarge)
  require (isBlank raw = false) (.llm .emptyProposal)
  let parsed ← decodeProposal limits raw
  match parsed with
  | .obj fields =>
    match fields.lookup (str "predicates") with
    | some (.arr predicates) => do
      require (¬ MAX_PREDICATES < predicates.length) (.llm .tooManyPredicates)
      let document ← exceptRaise isStructuralRejection (.llm .proposalSchema)
        (buildDocument limits fields predicates)
      require (∀ p ∈ document.predicates, p.signalKey ∈ allowedSignals) (.llm .unauthorizedEntity)
      return document
    | _ => .error (.llm .proposalSchema)
  | _ => .error (.llm .proposalSchema)

/-! ### Which exceptions leave the builder -/

/-- A lookup that ends in `RecursionError`: no member has the value, and `repr` runs out
    of stack on it. -/
def TooDeep {α : Type} (limits : RecursionLimits) (members : List α) (value : α → Str)
    (v : Json) : Prop :=
  memberOf members value v = none ∧ limits.repr < reprDepth v

theorem enumLookup_eq_recursion {α : Type} {limits : RecursionLimits} {members : List α}
    {value : α → Str} {v : Json} :
    enumLookup limits members value v = .error .recursionError ↔
      TooDeep limits members value v := by
  unfold enumLookup TooDeep
  split
  · next m hm => simp [hm]
  · next hnone =>
    by_cases h : limits.repr < reprDepth v
    · simp [h, hnone]
    · simp [h]

/-- The exceptions the builder may raise. -/
def BuildException (e : PyException) : Prop :=
  isStructuralRejection e = true ∨ e = .recursionError

theorem enumLookup_exception {α : Type} {limits : RecursionLimits} {members : List α}
    {value : α → Str} {v : Json} {e : PyException}
    (h : enumLookup limits members value v = .error e) : BuildException e := by
  unfold enumLookup at h
  split at h
  · exact absurd h (by simp)
  · split_ifs at h
    · obtain rfl := Except.error.inj h
      exact Or.inr rfl
    · obtain rfl := Except.error.inj h
      exact Or.inl rfl

@[simp] theorem getItem_eq_ok {fields : List (Str × Json)} {key : String} {v : Json} :
    getItem fields key = .ok v ↔ fields.lookup (str key) = some v := by
  simp [getItem]

@[simp] theorem getItem_eq_error {fields : List (Str × Json)} {key : String} {e : PyException} :
    getItem fields key = .error e ↔ fields.lookup (str key) = none ∧ .keyError = e := by
  simp [getItem]

@[simp] theorem identifierOf_eq_ok {ι : Type} [TextIdentifier ι] {v : Json} {i : ι} :
    identifierOf ι v = .ok i ↔ ∃ s, v = .str s ∧ isBlank s = false ∧ i = TextIdentifier.make s := by
  cases v <;> simp [identifierOf, TextIdentifier.construct, -bind_pure_comp]

theorem identifierOf_eq_error {ι : Type} [TextIdentifier ι] {v : Json} {e : PyException}
    (h : identifierOf ι v = .error e) : e = .domain .invalidIdentifier := by
  cases v with
  | str s =>
    simp only [identifierOf, TextIdentifier.construct, liftDomain_eq_error, bind_eq_error,
      require_eq_error, pure_ne_error, and_false, exists_false, or_false] at h
    obtain ⟨d, ⟨-, rfl⟩, rfl⟩ := h
    rfl
  | _ => exact (Except.error.inj h).symm

/-- An entry whose direction is looked up with a value nested too deeply. -/
def DirectionTooDeep (limits : RecursionLimits) (entry : Json) : Prop :=
  ∃ fields id key direction, entry = .obj fields ∧
    fields.lookup (str "predicate_id") = some id ∧
    fields.lookup (str "signal_key") = some (.str key) ∧ isBlank key = false ∧
    fields.lookup (str "expected_direction") = some direction ∧
    TooDeep limits [.increase, .decrease] ExpectedDirection.value direction

/-- The exceptions of `_build_predicate`: all are structural rejections but one. -/
theorem buildPredicate_error (limits : RecursionLimits) (entry : Json) :
    (∀ e, buildPredicate limits entry = .error e → BuildException e) ∧
      (buildPredicate limits entry = .error .recursionError ↔ DirectionTooDeep limits entry) := by
  cases entry with
  | obj fields =>
    constructor
    · intro e h
      -- one case for each read of the constructor's arguments, in their order
      simp only [buildPredicate, bind_eq_error, getItem_eq_error] at h
      rcases h with ⟨-, rfl⟩ | ⟨id, -, ⟨-, rfl⟩ | ⟨key, -, h | ⟨k, -, ⟨-, rfl⟩ | ⟨d, -, h |
        ⟨direction, -, h⟩⟩⟩⟩⟩
      · exact Or.inl rfl
      · exact Or.inl rfl
      · rw [identifierOf_eq_error h]
        exact Or.inl rfl
      · exact Or.inl rfl
      · exact enumLookup_exception h
      · left
        cases id with
        | str id =>
          simp only [liftDomain_eq_error, MetricShiftPredicate.construct] at h
          obtain ⟨d, hd, rfl⟩ := h
          split_ifs at hd
          obtain rfl := Except.error.inj hd
          rfl
        | _ =>
          obtain rfl := Except.error.inj h
          rfl
    · constructor
      · intro h
        simp only [buildPredicate, bind_eq_error, getItem_eq_error, getItem_eq_ok, reduceCtorEq,
          and_false, false_or] at h
        obtain ⟨id, hid, v, hv, h | ⟨k, hk, direction, hdirection, h | ⟨m, -, h⟩⟩⟩ := h
        · exact absurd (identifierOf_eq_error h) (by simp)
        · obtain ⟨s, rfl, hs, -⟩ := identifierOf_eq_ok.mp hk
          exact ⟨fields, id, s, direction, rfl, hid, hv, hs, hdirection,
            enumLookup_eq_recursion.mp h⟩
        · cases id with
          | str id =>
            simp only [liftDomain_eq_error, reduceCtorEq, and_false, exists_false] at h
          | _ => exact absurd (Except.error.inj h) (by simp)
      · intro h
        obtain ⟨fields', id, key, direction, heq, hid, hkey, hblank, hdirection, hdeep⟩ := h
        obtain rfl := Json.obj.inj heq
        -- what is read before the direction is well formed, so the lookup is reached
        simp only [buildPredicate, bind_eq_error, getItem_eq_ok, identifierOf_eq_ok]
        exact Or.inr ⟨id, hid, Or.inr ⟨_, hkey, Or.inr ⟨_, ⟨key, rfl, hblank, rfl⟩, Or.inr
          ⟨direction, hdirection, Or.inl (enumLookup_eq_recursion.mpr hdeep)⟩⟩⟩⟩
  | _ =>
    constructor
    · intro e h
      obtain rfl := Except.error.inj h
      exact Or.inl rfl
    · constructor
      · intro h
        exact absurd (Except.error.inj h) (by simp)
      · intro h
        obtain ⟨_, _, _, _, heq, -⟩ := h
        exact absurd heq (by simp)

/-- The run context of a proposal is complete and its identifiers are not blank. -/
def ContextAccepted (fields : List (Str × Json)) : Prop :=
  (∃ id, fields.lookup (str "hypothesis_id") = some id) ∧
    ∀ key ∈ ["tenant_id", "incident_id", "run_id"],
      ∃ s, fields.lookup (str key) = some (.str s) ∧ isBlank s = false

/-- The builder hands a value nested too deeply to an enumeration class: the direction of
    an entry after entries it accepts, or, when it accepts all entries and the run
    context, the semantics, or the composition after accepted semantics. -/
def DocumentTooDeep (limits : RecursionLimits) (fields : List (Str × Json))
    (predicates : List Json) : Prop :=
  (∃ earlier entry later, predicates = earlier ++ entry :: later ∧
    (∀ e ∈ earlier, ∃ p, buildPredicate limits e = .ok p) ∧ DirectionTooDeep limits entry) ∨
  ((∀ e ∈ predicates, ∃ p, buildPredicate limits e = .ok p) ∧ ContextAccepted fields ∧
    ∃ semantics, fields.lookup (str "semantics") = some semantics ∧
      (TooDeep limits [.descriptive, .causal] HypothesisSemantics.value semantics ∨
        (∃ m, hypothesisSemantics limits semantics = .ok m) ∧
        ∃ composition, fields.lookup (str "composition") = some composition ∧
          TooDeep limits [.all, .any] HypothesisComposition.value composition))

/-- The last step of the builder, once everything is looked up. -/
theorem constructDocument_error {hypothesisId : Json} {tenant : TenantId} {incident : IncidentId}
    {run : RunId} {semantics : HypothesisSemantics} {composition : HypothesisComposition}
    {predicates : List MetricShiftPredicate} {e : PyException}
    (h : (match hypothesisId with
      | .str id => do
        let document ← liftDomain
          (Document.construct id tenant incident run semantics composition predicates)
        liftDomain (validateHypothesisDocument document)
      | _ => .error (.domain .invalidHypothesis) : Except PyException HypothesisDocument) =
        .error e) : e = .domain .invalidHypothesis := by
  cases hypothesisId with
  | str id =>
    simp only [bind_eq_error, liftDomain_eq_error, validateHypothesisDocument, validateDocument_eq,
      reduceCtorEq, false_and, and_false, exists_false, or_false] at h
    obtain ⟨d, hd, rfl⟩ := h
    simp only [Document.construct, bind_eq_error, replaceError_eq_error] at hd
    rcases hd with ⟨-, rfl⟩ | ⟨copied, -, hd⟩
    · rfl
    · split_ifs at hd
      · exact absurd hd pure_ne_error
      · rw [← throw_eq_error.mp hd]
        rfl
  | _ => exact (Except.error.inj h).symm

/-- **The exceptions of the builder**: all are structural rejections but the
    `RecursionError` of an enumeration class. -/
theorem buildDocument_error (limits : RecursionLimits) (fields : List (Str × Json))
    (predicates : List Json) :
    (∀ e, buildDocument limits fields predicates = .error e → BuildException e) ∧
      (buildDocument limits fields predicates = .error .recursionError ↔
        DocumentTooDeep limits fields predicates) := by
  constructor
  · intro e h
    -- the predicates come first, then the fields in the order of the call
    simp only [buildDocument, bind_eq_error, getItem_eq_error] at h
    rcases h with h | ⟨objects, -, ⟨-, rfl⟩ | ⟨id, -, ⟨-, rfl⟩ | ⟨t, -, h | ⟨tenant, -, ⟨-, rfl⟩ |
      ⟨i, -, h | ⟨incident, -, ⟨-, rfl⟩ | ⟨r, -, h | ⟨run, -, ⟨-, rfl⟩ | ⟨s, -, h |
      ⟨semantics, -, ⟨-, rfl⟩ | ⟨c, -, h | ⟨composition, -, h⟩⟩⟩⟩⟩⟩⟩⟩⟩⟩⟩⟩
    · obtain ⟨-, entry, -, -, -, hentry⟩ := mapM_eq_error.mp h
      exact (buildPredicate_error limits entry).1 e hentry
    · exact Or.inl rfl
    · exact Or.inl rfl
    · rw [identifierOf_eq_error h]
      exact Or.inl rfl
    · exact Or.inl rfl
    · rw [identifierOf_eq_error h]
      exact Or.inl rfl
    · exact Or.inl rfl
    · rw [identifierOf_eq_error h]
      exact Or.inl rfl
    · exact Or.inl rfl
    · exact enumLookup_exception h
    · exact Or.inl rfl
    · exact enumLookup_exception h
    · rw [constructDocument_error h]
      exact Or.inl rfl
  · constructor
    · intro h
      simp only [buildDocument, bind_eq_error, getItem_eq_error, getItem_eq_ok, reduceCtorEq,
        and_false, false_or] at h
      rcases h with h | ⟨objects, hobjects, id, hid, t, ht, h | ⟨tenant, htenant, i, hi, h |
        ⟨incident, hincident, r, hr, h | ⟨run, hrun, s, hs, h | ⟨semantics, hsemantics, c, hc, h |
        ⟨composition, -, h⟩⟩⟩⟩⟩⟩
      · obtain ⟨earlier, entry, later, heq, hearlier, hentry⟩ := mapM_eq_error.mp h
        exact Or.inl ⟨earlier, entry, later, heq, hearlier,
          (buildPredicate_error limits entry).2.mp hentry⟩
      · exact absurd (identifierOf_eq_error h) (by simp)
      · exact absurd (identifierOf_eq_error h) (by simp)
      · exact absurd (identifierOf_eq_error h) (by simp)
      -- both enumerations are looked up after the whole run context
      all_goals
        obtain ⟨ts, rfl, htb, -⟩ := identifierOf_eq_ok.mp htenant
        obtain ⟨is, rfl, hib, -⟩ := identifierOf_eq_ok.mp hincident
        obtain ⟨rs, rfl, hrb, -⟩ := identifierOf_eq_ok.mp hrun
        have hcontext : ContextAccepted fields := by
          refine ⟨⟨id, hid⟩, ?_⟩
          simp only [List.forall_mem_cons, List.not_mem_nil, false_implies, implies_true, and_true]
          exact ⟨⟨ts, ht, htb⟩, ⟨is, hi, hib⟩, ⟨rs, hr, hrb⟩⟩
      · exact Or.inr ⟨exists_mapM_eq_ok.mp ⟨objects, hobjects⟩, hcontext, s, hs,
          Or.inl (enumLookup_eq_recursion.mp h)⟩
      · exact Or.inr ⟨exists_mapM_eq_ok.mp ⟨objects, hobjects⟩, hcontext, s, hs,
          Or.inr ⟨⟨semantics, hsemantics⟩, c, hc, enumLookup_eq_recursion.mp h⟩⟩
      · exact absurd (constructDocument_error h) (by simp)
    · intro h
      rcases h with ⟨earlier, entry, later, heq, hearlier, hentry⟩ |
        ⟨hpredicates, ⟨⟨id, hid⟩, hcontext⟩, s, hs, h⟩
      · unfold buildDocument
        exact bind_eq_error.mpr (Or.inl (mapM_eq_error.mpr ⟨earlier, entry, later, heq, hearlier,
          (buildPredicate_error limits entry).2.mpr hentry⟩))
      · obtain ⟨objects, hobjects⟩ := exists_mapM_eq_ok.mpr hpredicates
        obtain ⟨ts, ht, htb⟩ := hcontext "tenant_id" (by simp)
        obtain ⟨is, hi, hib⟩ := hcontext "incident_id" (by simp)
        obtain ⟨rs, hr, hrb⟩ := hcontext "run_id" (by simp)
        simp only [buildDocument, bind_eq_error, getItem_eq_ok, identifierOf_eq_ok]
        refine Or.inr ⟨objects, hobjects, Or.inr ⟨id, hid, Or.inr ⟨_, ht, Or.inr
          ⟨_, ⟨ts, rfl, htb, rfl⟩, Or.inr ⟨_, hi, Or.inr ⟨_, ⟨is, rfl, hib, rfl⟩, Or.inr
          ⟨_, hr, Or.inr ⟨_, ⟨rs, rfl, hrb, rfl⟩, Or.inr ⟨s, hs, ?_⟩⟩⟩⟩⟩⟩⟩⟩⟩
        rcases h with h | ⟨⟨m, hm⟩, c, hc, h⟩
        · exact Or.inl (enumLookup_eq_recursion.mpr h)
        · exact Or.inr ⟨m, hm, Or.inr ⟨c, hc, Or.inl (enumLookup_eq_recursion.mpr h)⟩⟩

/-! ### The boundary fails typed -/

/-- What the boundary promises of an outcome: a typed rejection, or a document whose
    signals are allowed. -/
def TypedOutcome (allowedSignals : Finset SignalKey) :
    Except PyException HypothesisDocument → Prop
  | .ok document => 1 ≤ document.predicates.length ∧ document.predicates.length ≤ 32 ∧
      (document.predicates.map (·.predicateId)).Nodup ∧
      (document.predicates.map (·.signalKey)).Nodup ∧
      ∀ p ∈ document.predicates, p.signalKey ∈ allowedSignals
  | .error e => e.isLLMValidationError = true

/-- A document carries its bounds and its distinctness. -/
theorem typedOutcome_ok {allowedSignals : Finset SignalKey} {document : HypothesisDocument} :
    TypedOutcome allowedSignals (.ok document) ↔
      ∀ p ∈ document.predicates, p.signalKey ∈ allowedSignals := by
  constructor
  · intro h
    exact h.2.2.2.2
  · intro h
    have hkeys : ((document.predicates.map (·.signalKey)).map (·.value)).Nodup := by
      rw [List.map_map]
      exact document.ok.distinct
    exact ⟨document.ok.nonempty, document.ok.bounded, document.ok.distinctIds, hkeys.of_map, h⟩

/-- What is left to go wrong once a proposal is short enough and not blank. -/
def DefectReached (limits : RecursionLimits) (raw : Str) : Prop :=
  ReachesOversized limits.decode (skipWhitespace raw) ∨
    ∃ fields predicates, loads limits.decode raw = .ok (.obj fields) ∧
      fields.lookup (str "predicates") = some (.arr predicates) ∧
      predicates.length ≤ MAX_PREDICATES ∧ DocumentTooDeep limits fields predicates

theorem decodeProposal_eq_ok {limits : RecursionLimits} {raw : Str} {parsed : Json} :
    decodeProposal limits raw = .ok parsed ↔ loads limits.decode raw = .ok parsed := by
  unfold decodeProposal
  cases loads limits.decode raw with
  | ok v => simp
  | error e => cases e <;> simp

/-- Decoding fails typed unless the scan reaches an oversized literal. -/
theorem decodeProposal_error {limits : RecursionLimits} {raw : Str} {e : PyException}
    (h : decodeProposal limits raw = .error e) :
    e = .llm .malformedProposal ∨
      e = .valueError ∧ ReachesOversized limits.decode (skipWhitespace raw) := by
  unfold decodeProposal at h
  cases hloads : loads limits.decode raw with
  | ok v => simp [hloads] at h
  | error d =>
    cases d with
    | jsonDecode => simp_all
    | recursion => simp_all
    | value =>
      rw [hloads] at h
      exact Or.inr ⟨(Except.error.inj h).symm, loads_eq_value.mp hloads⟩

/-- Each way the parser ends, with what it says about the proposal. -/
theorem parseMetricHypothesis_untyped {limits : RecursionLimits} {raw : Str}
    {allowedSignals : Finset SignalKey}
    (h : ¬ TypedOutcome allowedSignals (parseMetricHypothesis limits raw allowedSignals)) :
    raw.length ≤ MAX_PROPOSAL_CHARS ∧ isBlank raw = false ∧ DefectReached limits raw := by
  cases hparse : parseMetricHypothesis limits raw allowedSignals with
  | ok document =>
    -- the last check of the parser is the allow-list
    rw [hparse, typedOutcome_ok] at h
    exfalso
    apply h
    simp only [parseMetricHypothesis, bind_eq_ok] at hparse
    obtain ⟨_, -, _, -, parsed, -, hparse⟩ := hparse
    split at hparse
    · split at hparse
      · simp only [bind_eq_ok, require_eq_ok, pure_eq_ok] at hparse
        obtain ⟨_, -, d, -, _, hallowed, rfl⟩ := hparse
        exact hallowed
      · exact absurd hparse (by simp)
    · exact absurd hparse (by simp)
  | error e =>
    rw [hparse] at h
    have hllm : ∀ l : LLMError, l.isValidation = true → e ≠ .llm l := by
      intro l hl he
      apply h
      rw [he]
      exact hl
    simp only [parseMetricHypothesis, bind_eq_error, require_eq_error, require_eq_ok] at hparse
    rcases hparse with ⟨-, rfl⟩ | ⟨_, hlength, ⟨-, rfl⟩ | ⟨_, hblank, hdecode | ⟨parsed, hdecode,
      hparse⟩⟩⟩
    · exact absurd rfl (hllm _ rfl)
    · exact absurd rfl (hllm _ rfl)
    · refine ⟨by omega, hblank, ?_⟩
      rcases decodeProposal_error hdecode with rfl | ⟨rfl, hreach⟩
      · exact absurd rfl (hllm _ rfl)
      · exact Or.inl hreach
    · refine ⟨by omega, hblank, ?_⟩
      split at hparse
      · next fields =>
        split at hparse
        · next predicates hlookup =>
          simp only [bind_eq_error, require_eq_error, require_eq_ok, exceptRaise_eq_error,
            pure_ne_error, and_false, exists_false, or_false] at hparse
          rcases hparse with ⟨-, rfl⟩ | ⟨_, hbound, ⟨e₀, hbuild, hraised⟩ | ⟨d, -, -, rfl⟩⟩
          · exact absurd rfl (hllm _ rfl)
          · rcases (buildDocument_error limits fields predicates).1 e₀ hbuild with hcaught | rfl
            · rw [if_pos hcaught] at hraised
              exact absurd hraised.symm (hllm _ rfl)
            · exact Or.inr ⟨fields, predicates, decodeProposal_eq_ok.mp hdecode, hlookup,
                by omega, (buildDocument_error limits fields predicates).2.mp hbuild⟩
          · exact absurd rfl (hllm _ rfl)
        · obtain rfl := Except.error.inj hparse
          exact absurd rfl (hllm _ rfl)
      · obtain rfl := Except.error.inj hparse
        exact absurd rfl (hllm _ rfl)

/-- On a proposal that reaches the defect an untyped exception leaves the parser. -/
theorem parseMetricHypothesis_defect {limits : RecursionLimits} {raw : Str}
    (allowedSignals : Finset SignalKey) (hlength : raw.length ≤ MAX_PROPOSAL_CHARS)
    (hblank : isBlank raw = false) (h : DefectReached limits raw) :
    parseMetricHypothesis limits raw allowedSignals = .error .valueError ∨
      parseMetricHypothesis limits raw allowedSignals = .error .recursionError := by
  have hlong : ¬ MAX_PROPOSAL_CHARS < raw.length := by omega
  rcases h with hreach | ⟨fields, predicates, hloads, hlookup, hbound, hdeep⟩
  · left
    have hdecode : decodeProposal limits raw = .error .valueError := by
      rw [decodeProposal, loads_eq_value.mpr hreach]
    simp only [parseMetricHypothesis, bind_eq_error, require_eq_ok]
    exact Or.inr ⟨(), hlong, Or.inr ⟨(), hblank, Or.inl hdecode⟩⟩
  · right
    have hbuild := (buildDocument_error limits fields predicates).2.mpr hdeep
    simp only [parseMetricHypothesis, bind_eq_error, require_eq_ok]
    refine Or.inr ⟨(), hlong, Or.inr ⟨(), hblank, Or.inr ⟨_, decodeProposal_eq_ok.mpr hloads, ?_⟩⟩⟩
    simp only [hlookup, bind_eq_error, require_eq_ok]
    exact Or.inr ⟨(), by omega, Or.inl (exceptRaise_eq_error.mpr ⟨_, hbuild, rfl⟩)⟩

/-- **The LLM boundary fails typed exactly when the proposal is too long, blank, or reaches
    neither an oversized integer literal nor a lookup nested too deeply.** -/
theorem parse_metric_hypothesis_typed (limits : RecursionLimits) (raw : Str)
    (allowedSignals : Finset SignalKey) :
    TypedOutcome allowedSignals (parseMetricHypothesis limits raw allowedSignals) ↔
      MAX_PROPOSAL_CHARS < raw.length ∨ isBlank raw = true ∨ ¬ DefectReached limits raw := by
  constructor
  · intro h
    by_contra hnot
    simp only [not_or, not_not, Bool.not_eq_true] at hnot
    obtain ⟨hlength, hblank, hdefect⟩ := hnot
    rcases parseMetricHypothesis_defect allowedSignals (by omega) hblank
      hdefect with hparse | hparse
    · rw [hparse] at h
      exact absurd h (by simp [TypedOutcome, PyException.isLLMValidationError])
    · rw [hparse] at h
      exact absurd h (by simp [TypedOutcome, PyException.isLLMValidationError])
  · intro h
    by_contra hnot
    obtain ⟨hlength, hblank, hdefect⟩ := parseMetricHypothesis_untyped hnot
    rcases h with h | h | h
    · omega
    · rw [hblank] at h
      exact absurd h (by simp)
    · exact h hdefect

/-- A text of ones. -/
def ones (n : Nat) : Str := List.replicate n (.scalar '1')

theorem matchNumber_ones (n : Nat) :
    matchNumber (ones (n + 1)) = some (.int false (ones (n + 1)), []) := by
  have hdigits : ∀ c ∈ ones n, c.isDigit = true := by
    intro c hc
    rw [List.eq_of_mem_replicate hc]
    rfl
  have hone : (CodePoint.scalar '1').isDigit = true := rfl
  have hcons : ones (n + 1) = .scalar '1' :: ones n := List.replicate_succ
  simp [hcons, matchNumber, scanSign, scanInteger, hone, List.takeWhile_eq_self_iff.mpr hdigits,
    List.dropWhile_eq_nil_iff.mpr hdigits, scanFraction, scanExponent]

theorem skipWhitespace_ones (n : Nat) : skipWhitespace (ones (n + 1)) = ones (n + 1) := by
  unfold skipWhitespace ones
  rw [List.replicate_succ, List.dropWhile_cons_of_neg (by decide)]

/-- An untyped `ValueError` leaves the parser on a proposal of 4301 digits. -/
theorem parse_metric_hypothesis_untyped_number :
    ¬ TypedOutcome ∅ (parseMetricHypothesis ⟨1000, 1000⟩ (ones 4301) ∅) := by
  rw [parse_metric_hypothesis_typed]
  have hlength : (ones 4301).length = 4301 := List.length_replicate
  have hblank : isBlank (ones 4301) = false :=
    isBlank_eq_false_of_mem (c := .scalar '1') (List.mem_replicate.mpr ⟨by omega, rfl⟩) (by decide)
  have hliteral : OversizedLiteral (ones 4301) :=
    ⟨false, _, [], matchNumber_ones 4300, by rw [hlength]; decide⟩
  have hreach : ReachesOversized 1000 (skipWhitespace (ones 4301)) := by
    rw [skipWhitespace_ones 4300]
    exact Or.inl hliteral
  intro h
  rcases h with h | h | h
  · rw [hlength] at h
    exact absurd h (by decide)
  · rw [hblank] at h
    exact absurd h (by simp)
  · exact h (Or.inl hreach)

end IncidentEvidence
