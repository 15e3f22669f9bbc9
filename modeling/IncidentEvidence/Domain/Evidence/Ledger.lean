import IncidentEvidence.Domain.Evidence.Decisions
import IncidentEvidence.Domain.Evidence.Identity

/-! # Compiling and validating metric ledgers

    `evidence/_ledger.py`. The validator rebuilds a ledger from its content and
    recomputes every identifier; the compiler builds a ledger from a baseline
    result and passes it through the validator.

    `validate_eq_ok` characterises the accepted ledgers (`Accepted`) and what the
    validator returns (`normalized`).
-/

namespace IncidentEvidence

open Py PyFloat Parsing Decisions Identity

variable {F : Type}

/-! ### The two entry points -/

section entryPoints
variable [PyFloat F] [FloatHex F] [Sha256]

/-- The ledger entry of an evaluation, with its content-bound identifier. -/
def buildEntry (tenant : TenantId) (incident : IncidentId) (run : RunId) (window : IncidentWindow)
    (policy : BaselinePolicy F) (decision : MetricShiftDecision F)
    (evaluation : SignalEvaluation F) : Except DomainError (MetricShiftEvidence F) := do
  let evidenceId ← evidenceId (entryPayload tenant incident run window policy decision evaluation)
  return {
    evidenceId := evidenceId
    signalKey := evaluation.signalKey
    prePointCount := evaluation.prePointCount
    postPointCount := evaluation.postPointCount
    eligible := evaluation.eligible
    absoluteScaleFloor := evaluation.absoluteScaleFloor
    relativeScaleFloor := policy.relativeScaleFloor
    candidate := evaluation.candidate }

/-- One turn of the validator's loop: the supplied identifier and the evaluation. -/
def checkEntry (policy : BaselinePolicy F) (entry : MetricShiftEvidence F) :
    Except DomainError (EvidenceId × SignalEvaluation F) := do
  let evidenceId ← evidenceIdentifier entry.evidenceId
  let signalKey ← signalKey entry.signalKey
  let preCount ← count entry.prePointCount
  let postCount ← count entry.postPointCount
  let absoluteFloor ← finiteFloat entry.absoluteScaleFloor false true
  let relativeFloor ← finiteFloat entry.relativeScaleFloor true false
  let expectedEligible := eligible policy preCount postCount
  require (PyFloat.eq relativeFloor policy.relativeScaleFloor = true ∧
    entry.eligible = expectedEligible ∧ entry.candidate.isSome = entry.eligible)
    .invalidEvidenceLedger
  let shell : SignalEvaluation F :=
    { signalKey := signalKey
      absoluteScaleFloor := absoluteFloor
      prePointCount := preCount
      postPointCount := postCount
      eligible := entry.eligible
      candidate := none }
  let candidate ← candidateIf entry.eligible entry.candidate shell policy
  return (evidenceId, { shell with candidate := candidate })

/-- `_validated_metric_evidence_ledger`. -/
def validatedMetricEvidenceLedger (value : MetricEvidenceLedger F) :
    Except DomainError (MetricEvidenceLedger F) := do
  require (value.schemaVersion = SCHEMA_VERSION) .invalidEvidenceLedger
  let tenant ← identifier value.tenantId
  let incident ← identifier value.incidentId
  let run ← identifier value.runId
  let normalizedWindow ← window value.window
  let policy ← policy value.policy
  let supplied ← value.entries.mapM (checkEntry policy)
  let (orderedEvaluations, candidates) ← evaluations (supplied.map (·.2)) policy
  require (supplied.map (·.2.signalKey.value) = orderedEvaluations.map (·.signalKey.value))
    .invalidEvidenceLedger
  let decision ← ledgerDecision value.decision policy candidates
  let entries ← orderedEvaluations.mapM
    (buildEntry tenant incident run normalizedWindow policy decision)
  require (entries.map (·.evidenceId) = supplied.map (·.1)) .invalidEvidenceLedger
  return {
    schemaVersion := SCHEMA_VERSION
    tenantId := tenant
    incidentId := incident
    runId := run
    window := normalizedWindow
    policy := policy
    decision := decision
    entries := entries }

/-- Deeply reconstruct a ledger and verify every content-bound evidence id. -/
def validateMetricEvidenceLedger (value : MetricEvidenceLedger F) :
    Except DomainError (MetricEvidenceLedger F) :=
  replaceError .invalidEvidenceLedger (validatedMetricEvidenceLedger value)

/-- `_compile_metric_shift_ledger`: validate and bind a baseline result. -/
def compileMetricShiftLedgerUnchecked (tenantId : TenantId) (incidentId : IncidentId)
    (runId : RunId) (window : IncidentWindow) (baselineResult : BaselineResult F) :
    Except DomainError (MetricEvidenceLedger F) := do
  let tenant ← identifier tenantId
  let incident ← identifier incidentId
  let run ← identifier runId
  let normalizedWindow ← Parsing.window window
  let frozenPolicy ← policy baselineResult.policy
  let (evaluations, candidates) ← evaluations baselineResult.signalEvaluations frozenPolicy
  let decision ← decision baselineResult frozenPolicy candidates
  let entries ← evaluations.mapM
    (buildEntry tenant incident run normalizedWindow frozenPolicy decision)
  validateMetricEvidenceLedger {
    schemaVersion := SCHEMA_VERSION
    tenantId := tenant
    incidentId := incident
    runId := run
    window := normalizedWindow
    policy := frozenPolicy
    decision := decision
    entries := entries }

/-- Compile a baseline result and normalize every failure. -/
def compileMetricShiftLedger (tenantId : TenantId) (incidentId : IncidentId) (runId : RunId)
    (window : IncidentWindow) (baselineResult : BaselineResult F) :
    Except DomainError (MetricEvidenceLedger F) :=
  replaceError .invalidEvidenceLedger
    (compileMetricShiftLedgerUnchecked tenantId incidentId runId window baselineResult)

end entryPoints

/-! ### Accepted ledgers -/

section accepted
variable [PyFloat F]

/-- The evaluations a ledger replays. -/
def MetricEvidenceLedger.evaluations (l : MetricEvidenceLedger F) : List (SignalEvaluation F) :=
  l.entries.map (·.evaluation)

/-- The decision the validator rebuilds: all but the lead is recomputed. -/
def MetricEvidenceLedger.rebuiltDecision (l : MetricEvidenceLedger F) : MetricShiftDecision F :=
  { expectedDecision l.policy (rankedCandidates l.evaluations) with lead := l.decision.lead }

/-- What the validator returns for an accepted ledger. -/
def MetricEvidenceLedger.normalized (l : MetricEvidenceLedger F) : MetricEvidenceLedger F :=
  { l with
    decision := l.rebuiltDecision
    entries := l.entries.map fun e =>
      { e with relativeScaleFloor := l.policy.relativeScaleFloor } }

/-- The payload that is hashed for an entry of a ledger. -/
def MetricEvidenceLedger.payload [FloatHex F] (l : MetricEvidenceLedger F) (e : SignalEvaluation F) : Json :=
  entryPayload l.tenantId l.incidentId l.runId l.window l.policy l.decision e

/-- What the validator requires of one entry. -/
structure EntryOk (policy : BaselinePolicy F) (e : MetricShiftEvidence F) : Prop where
  evidenceId : wellFormedId e.evidenceId.value = true
  relativeFloor : FiniteNonnegative e.relativeScaleFloor
  sameRelative : PyFloat.eq e.relativeScaleFloor policy.relativeScaleFloor = true
  evaluation : EvaluationOk policy e.evaluation

/-- The ledgers the validator accepts. -/
structure MetricEvidenceLedger.Accepted [FloatHex F] [Sha256] (l : MetricEvidenceLedger F) : Prop where
  schemaVersion : l.schemaVersion = SCHEMA_VERSION
  tenant : TextIdentifier.Valid l.tenantId
  incident : TextIdentifier.Valid l.incidentId
  run : TextIdentifier.Valid l.runId
  window : l.window.Valid
  policy : l.policy.Valid
  entries : ∀ e ∈ l.entries, EntryOk l.policy e
  increasing : (l.entries.map (·.signalKey.value)).Pairwise (· < ·)
  decision : DecisionAgrees l.decision (expectedDecision l.policy (rankedCandidates l.evaluations))
  ids : ∀ e ∈ l.entries,
    contentId idDomain (l.normalized.payload e.evaluation) = some e.evidenceId

end accepted

/-! ### What the checks accept -/

/-- Rebuilding entries with the supplied identifiers resets their relative floors. -/
theorem rebuilt_eq {p : BaselinePolicy F} {entries built : List (MetricShiftEvidence F)}
    (hmap : built.map (·.evaluation) = entries.map (·.evaluation))
    (hids : built.map (·.evidenceId) = entries.map (·.evidenceId))
    (hrel : ∀ b ∈ built, b.relativeScaleFloor = p.relativeScaleFloor) :
    built = entries.map fun e => { e with relativeScaleFloor := p.relativeScaleFloor } := by
  induction built generalizing entries with
  | nil => cases entries <;> simp_all
  | cons b bs ih =>
    cases entries with
    | nil => simp at hmap
    | cons e es =>
      simp only [List.map_cons, List.cons.injEq] at hmap hids
      obtain ⟨hb, hbs⟩ := List.forall_mem_cons.mp hrel
      rw [List.map_cons, ← ih hmap.2 hids.2 hbs, ← hb, ← hids.1]
      congr 1
      cases b
      cases e
      simp_all [MetricShiftEvidence.evaluation]

section building
variable [FloatHex F] [Sha256] {t : TenantId} {i : IncidentId} {r : RunId} {w : IncidentWindow}
  {p : BaselinePolicy F} {d : MetricShiftDecision F}

theorem buildEntry_eq_ok {e : SignalEvaluation F} {b : MetricShiftEvidence F} :
    buildEntry t i r w p d e = .ok b ↔ b.evaluation = e ∧
      contentId idDomain (entryPayload t i r w p d b.evaluation) = some b.evidenceId ∧
      b.relativeScaleFloor = p.relativeScaleFloor := by
  simp only [buildEntry, evidenceId, bind_eq_ok, orRaise_eq_ok, pure_eq_ok]
  constructor
  · rintro ⟨id, hid, rfl⟩
    exact ⟨rfl, hid, rfl⟩
  · rintro ⟨rfl, hid, hrel⟩
    refine ⟨_, hid, ?_⟩
    rw [← hrel]
    rfl

theorem buildEntries_eq_ok {evaluations : List (SignalEvaluation F)}
    {entries : List (MetricShiftEvidence F)} :
    evaluations.mapM (buildEntry t i r w p d) = .ok entries ↔
      entries.map (·.evaluation) = evaluations ∧ ∀ b ∈ entries,
        contentId idDomain (entryPayload t i r w p d b.evaluation) = some b.evidenceId ∧
          b.relativeScaleFloor = p.relativeScaleFloor := by
  induction evaluations generalizing entries with
  | nil => cases entries <;> simp
  | cons e es ih =>
    simp only [List.mapM_cons, bind_eq_ok, buildEntry_eq_ok, pure_eq_ok, ih]
    constructor
    · rintro ⟨b, ⟨rfl, hb⟩, bs, ⟨rfl, hbs⟩, rfl⟩
      exact ⟨rfl, List.forall_mem_cons.mpr ⟨hb, hbs⟩⟩
    · cases entries with
      | nil => simp
      | cons b bs =>
        rintro ⟨hmap, hall⟩
        obtain ⟨rfl, rfl⟩ := List.cons.inj hmap
        obtain ⟨hb, hbs⟩ := List.forall_mem_cons.mp hall
        exact ⟨b, ⟨rfl, hb⟩, bs, ⟨rfl, hbs⟩, rfl⟩

/-- Entries with their identifiers, for evaluations whose payloads can be written. -/
theorem exists_entries {evaluations : List (SignalEvaluation F)}
    (h : ∀ e ∈ evaluations, ∃ id, contentId idDomain (entryPayload t i r w p d e) = some id) :
    ∃ entries, evaluations.mapM (buildEntry t i r w p d) = .ok entries := by
  induction evaluations with
  | nil => exact ⟨[], rfl⟩
  | cons e es ih =>
    obtain ⟨entries, hentries⟩ := ih fun e' he' => h e' (List.mem_cons_of_mem e he')
    obtain ⟨id, hid⟩ := h e List.mem_cons_self
    have hb : ∃ b, buildEntry t i r w p d e = .ok b := by
      simp only [buildEntry, evidenceId, bind_eq_ok, orRaise_eq_ok, pure_eq_ok]
      exact ⟨_, id, hid, rfl⟩
    obtain ⟨b, hb⟩ := hb
    exact ⟨b :: entries, by simp [List.mapM_cons, hb, hentries, bind, Except.bind, pure, Except.pure]⟩

end building

section laws
variable [PyFloat F] [LawfulPyFloat F]

theorem checkEntry_eq_ok {policy : BaselinePolicy F} {e : MetricShiftEvidence F}
    {row : EvidenceId × SignalEvaluation F} :
    checkEntry policy e = .ok row ↔ EntryOk policy e ∧ row = (e.evidenceId, e.evaluation) := by
  simp only [checkEntry, bind_eq_ok, evidenceIdentifier_eq_ok, signalKey_eq_ok, count_eq_ok,
    finiteFloat_positive_eq_ok, finiteFloat_nonnegative_eq_ok, require_eq_ok, pure_eq_ok,
    ← finiteNonnegative_iff]
  constructor
  · rintro ⟨_, ⟨hid, rfl⟩, _, ⟨hkey, rfl⟩, _, ⟨hpre, rfl⟩, _, ⟨hpost, rfl⟩, _, ⟨hfloor, rfl⟩,
      _, ⟨hrel, rfl⟩, _, ⟨hsame, helig, hsome⟩, c, hc, rfl⟩
    obtain ⟨rfl, hcand⟩ := (candidateIf_eq_ok hsome).mp hc
    exact ⟨⟨hid, hrel, hsame, ⟨hkey, hfloor, hpre, hpost, helig, hsome, hcand⟩⟩, rfl⟩
  · rintro ⟨⟨hid, hrel, hsame, ⟨hkey, hfloor, hpre, hpost, helig, hsome, hcand⟩⟩, rfl⟩
    exact ⟨_, ⟨hid, rfl⟩, _, ⟨hkey, rfl⟩, _, ⟨hpre, rfl⟩, _, ⟨hpost, rfl⟩, _, ⟨hfloor, rfl⟩,
      _, ⟨hrel, rfl⟩, (), ⟨hsame, helig, hsome⟩, _, (candidateIf_eq_ok hsome).mpr ⟨rfl, hcand⟩,
      rfl⟩

theorem checkEntries_eq_ok {policy : BaselinePolicy F} {entries : List (MetricShiftEvidence F)}
    {rows : List (EvidenceId × SignalEvaluation F)} :
    entries.mapM (checkEntry policy) = .ok rows ↔
      (∀ e ∈ entries, EntryOk policy e) ∧
        rows = entries.map fun e => (e.evidenceId, e.evaluation) :=
  mapM_eq_ok_of fun _ _ _ => checkEntry_eq_ok

omit [PyFloat F] [LawfulPyFloat F] in
/-- The supplied order is the key order, without repetition, when the keys increase. -/
theorem increasing_iff {evaluations : List (SignalEvaluation F)} :
    ((evaluations.map (·.signalKey.value)).Nodup ∧
        evaluations.map (·.signalKey.value) =
          (sortedOn (fun e => e.signalKey.value) evaluations).map (·.signalKey.value)) ↔
      (evaluations.map (·.signalKey.value)).Pairwise (· < ·) := by
  constructor
  · rintro ⟨hnodup, horder⟩
    rw [horder]
    exact List.pairwise_map.mpr (strict_sortedOn hnodup)
  · intro h
    have hle : evaluations.Pairwise fun a b => a.signalKey.value ≤ b.signalKey.value :=
      (List.pairwise_map.mp h).imp fun hab => le_of_lt hab
    refine ⟨h.imp fun hab => ne_of_lt hab, ?_⟩
    rw [sortedOn_eq_self hle]

variable [FloatHex F] [Sha256]

/-- **The validator accepts exactly the `Accepted` ledgers** and returns the
    normalized ledger. -/
theorem validate_eq_ok {l l' : MetricEvidenceLedger F} :
    validateMetricEvidenceLedger l = .ok l' ↔ l.Accepted ∧ l' = l.normalized := by
  simp only [validateMetricEvidenceLedger, replaceError_eq_ok, validatedMetricEvidenceLedger,
    bind_eq_ok, require_eq_ok, identifier_eq_ok, window_eq_ok, policy_eq_ok, checkEntries_eq_ok,
    pure_eq_ok]
  constructor
  · rintro ⟨_, hschema, _, ⟨ht, rfl⟩, _, ⟨hi, rfl⟩, _, ⟨hr, rfl⟩, _, ⟨hw, rfl⟩, _, ⟨hp, rfl⟩,
      rows, ⟨hentries, rfl⟩, ⟨ordered, candidates⟩, hevals, _, horder, d, hd, built, hbuilt,
      _, hids, rfl⟩
    simp only [List.map_map, Function.comp_def] at hevals horder hids
    obtain ⟨-, hnodup, heq⟩ := evaluations_eq_ok.mp hevals
    obtain ⟨rfl, rfl⟩ := Prod.mk.inj heq
    -- keys in order and distinct: sorting the evaluations again changes nothing
    have hincreasing := increasing_iff.mp
      ⟨hnodup, by simpa [Function.comp_def] using horder⟩
    have hsorted : sortedOn (fun e => e.signalKey.value) (l.entries.map (·.evaluation)) =
        l.entries.map (·.evaluation) :=
      sortedOn_eq_self ((List.pairwise_map.mp hincreasing).imp fun hab => le_of_lt hab)
    rw [hsorted] at hbuilt
    obtain ⟨hdec, rfl⟩ := ledgerDecision_eq_ok.mp hd
    obtain ⟨hmap, hall⟩ := buildEntries_eq_ok.mp hbuilt
    -- the ids agree, so the rebuilt entries are the given ones
    obtain rfl := rebuilt_eq hmap hids fun b hb => (hall b hb).2
    refine ⟨⟨hschema, ht, hi, hr, hw, hp, hentries, ?_, hdec, ?_⟩, ?_⟩
    · simpa [Function.comp_def] using hincreasing
    · exact fun e he => (hall _ (List.mem_map_of_mem he)).1
    · rw [← hschema]
      rfl
  · rintro ⟨⟨hschema, ht, hi, hr, hw, hp, hentries, hkeys, hdec, hpayloads⟩, rfl⟩
    have hincreasing : ((l.entries.map (·.evaluation)).map (·.signalKey.value)).Pairwise (· < ·) := by
      simpa [Function.comp_def] using hkeys
    obtain ⟨hnodup, horder⟩ := increasing_iff.mpr hincreasing
    have hsorted : sortedOn (fun e => e.signalKey.value) (l.entries.map (·.evaluation)) =
        l.entries.map (·.evaluation) :=
      sortedOn_eq_self ((List.pairwise_map.mp hincreasing).imp fun hab => le_of_lt hab)
    have hbuilt : (l.entries.map (·.evaluation)).mapM (buildEntry l.tenantId l.incidentId l.runId
        l.window l.policy l.rebuiltDecision) = .ok l.normalized.entries := by
      refine buildEntries_eq_ok.mpr ⟨List.map_map.trans rfl, ?_⟩
      intro b hb
      obtain ⟨e, he, rfl⟩ := List.mem_map.mp hb
      exact ⟨hpayloads e he, rfl⟩
    refine ⟨(), hschema, _, ⟨ht, rfl⟩, _, ⟨hi, rfl⟩, _, ⟨hr, rfl⟩, _, ⟨hw, rfl⟩, _, ⟨hp, rfl⟩,
      _, ⟨hentries, rfl⟩, (l.evaluations, rankedCandidates l.evaluations), ?_, (), ?_,
      l.rebuiltDecision, ledgerDecision_eq_ok.mpr ⟨hdec, rfl⟩, _, hbuilt, (), ?_, ?_⟩
    · simp only [List.map_map, Function.comp_def]
      refine evaluations_eq_ok.mpr ⟨?_, hnodup, ?_⟩
      · intro e he
        obtain ⟨entry, hentry, rfl⟩ := List.mem_map.mp he
        exact (hentries entry hentry).evaluation
      · rw [hsorted]
        rfl
    · simp [MetricEvidenceLedger.evaluations, Function.comp_def]
    · simp [MetricEvidenceLedger.normalized, Function.comp_def]
    · rw [← hschema]
      rfl

end laws

end IncidentEvidence
