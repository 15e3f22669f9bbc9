import IncidentEvidence.Domain.Evidence.ContentId
import IncidentEvidence.Domain.Evidence.Identity
import IncidentEvidence.Py.Sorted
import Mathlib.Data.Prod.Lex

/-! # Change events and their ledgers

    `changes.py` and `change_evidence.py`: a bounded log of typed, timestamped
    changes, and the ledger that binds it to an incident run. The ledger keeps
    the discipline of the metric ledger; as it holds no floats, the validator
    returns what it accepts (`validateChange_eq_ok`).
-/

namespace IncidentEvidence

open Py

/-! ### Change events -/

/-- `MAX_CHANGE_EVENTS`. -/
def MAX_CHANGE_EVENTS : Nat := 512

/-- The closed set of recognized operational change categories. -/
inductive ChangeKind where
  | deployment
  | configuration
  | rollback
  | scaling
  | featureFlag
  deriving DecidableEq

def ChangeKind.value : ChangeKind → Str
  | .deployment => str "deployment"
  | .configuration => str "configuration"
  | .rollback => str "rollback"
  | .scaling => str "scaling"
  | .featureFlag => str "feature_flag"

theorem ChangeKind.value_injective : Function.Injective ChangeKind.value := by
  intro a b h
  cases a <;> cases b <;> first | rfl | exact absurd h (by decide)

/-- An opaque key identifying the changed component. -/
structure ChangeEventKey where
  value : Str
  deriving DecidableEq

instance : TextIdentifier ChangeEventKey := ⟨ChangeEventKey.value, ChangeEventKey.mk, fun _ => rfl⟩

/-- One discrete change occurrence. -/
structure ChangeEvent where
  eventKey : ChangeEventKey
  kind : ChangeKind
  occurredAt : Datetime
  deriving DecidableEq

/-- `_order_key`: time, then kind, then key. -/
abbrev OrderKey := Datetime ×ₗ (Str ×ₗ Str)

def orderKey (event : ChangeEvent) : OrderKey :=
  toLex (event.occurredAt, toLex (event.kind.value, event.eventKey.value))

theorem orderKey_injective : Function.Injective orderKey := by
  rintro ⟨⟨k⟩, kind, t⟩ ⟨⟨k'⟩, kind', t'⟩ h
  simp only [orderKey, EmbeddingLike.apply_eq_iff_eq, Prod.mk.injEq] at h
  obtain ⟨rfl, hkind, rfl⟩ := h
  rw [ChangeKind.value_injective hkind]

/-- What `(event_key, kind, occurred_at)` identifies a change by. -/
def changeIdentity (event : ChangeEvent) : Str × Str × Datetime :=
  (event.eventKey.value, event.kind.value, event.occurredAt)

theorem changeIdentity_injective : Function.Injective changeIdentity := by
  rintro ⟨⟨k⟩, kind, t⟩ ⟨⟨k'⟩, kind', t'⟩ h
  simp only [changeIdentity, Prod.mk.injEq] at h
  obtain ⟨rfl, hkind, rfl⟩ := h
  rw [ChangeKind.value_injective hkind]

/-- A bounded, canonically ordered, duplicate-free set of change events. -/
structure ChangeEventLog where
  events : List ChangeEvent

/-- `ChangeEventLog.__init__`. -/
def ChangeEventLog.construct (events : List ChangeEvent) : Except DomainError ChangeEventLog := do
  require (¬ events.length > MAX_CHANGE_EVENTS) .invalidChangeEvent
  require (events.map changeIdentity).Nodup .invalidChangeEvent
  return ⟨sortedOn orderKey events⟩

/-! ### Ledgers -/

/-- A change event's timing relative to the incident window. -/
inductive ChangePhase where
  | beforeWindow
  | preInjection
  | postInjection
  | afterWindow
  deriving DecidableEq

def ChangePhase.value : ChangePhase → Str
  | .beforeWindow => str "before_window"
  | .preInjection => str "pre_injection"
  | .postInjection => str "post_injection"
  | .afterWindow => str "after_window"

theorem ChangePhase.value_injective : Function.Injective ChangePhase.value := by
  intro a b h
  cases a <;> cases b <;> first | rfl | exact absurd h (by decide)

/-- Replayable evidence for exactly one observed change event. -/
structure ChangeEventEvidence where
  evidenceId : EvidenceId
  eventKey : ChangeEventKey
  kind : ChangeKind
  occurredAt : Datetime
  phase : ChangePhase
  deriving DecidableEq

/-- One immutable change-event log bound to an exact incident run context. -/
structure ChangeEventLedger where
  schemaVersion : Str
  tenantId : TenantId
  incidentId : IncidentId
  runId : RunId
  window : IncidentWindow
  entries : List ChangeEventEvidence

/-- The event an entry replays. -/
def ChangeEventEvidence.event (e : ChangeEventEvidence) : ChangeEvent :=
  ⟨e.eventKey, e.kind, e.occurredAt⟩

namespace ChangeEvidence

/-- `SCHEMA_VERSION`. -/
def SCHEMA_VERSION : Str := str "change-event-ledger.v1"

/-- `_ID_DOMAIN`. -/
def idDomain : List UInt8 := bytes "incident-evidence-compiler.change-event-evidence.v1\x00"

/-- `_identifier` and `_event_key`. -/
def identifier {ι : Type} [TextIdentifier ι] (value : ι) : Except DomainError ι :=
  checkedIdentifier .invalidChangeEventLedger value

/-- `_window`. -/
def window (value : IncidentWindow) : Except DomainError IncidentWindow :=
  checkedWindow .invalidChangeEventLedger value

/-- `_phase`. -/
def phase (occurredAt : Datetime) (window : IncidentWindow) : ChangePhase :=
  if occurredAt < window.start then .beforeWindow
  else if occurredAt < window.injection then .preInjection
  else if occurredAt < window.end then .postInjection
  else .afterWindow

/-- `_entry_payload`. -/
def entryPayload (tenant : TenantId) (incident : IncidentId) (run : RunId)
    (window : IncidentWindow) (event : ChangeEvent) (phase : ChangePhase) : Json :=
  jsonObj [
    ("event_key", .str event.eventKey.value),
    ("incident_id", .str incident.value),
    ("incident_window", windowPayload window),
    ("kind", .str event.kind.value),
    ("occurred_at", .str (timestamp event.occurredAt)),
    ("phase", .str phase.value),
    ("run_id", .str run.value),
    ("schema_version", .str SCHEMA_VERSION),
    ("tenant_id", .str tenant.value)]

/-- `_evidence_identifier`. -/
def evidenceIdentifier (value : EvidenceId) : Except DomainError EvidenceId := do
  require (wellFormedId value.value = true) .invalidChangeEventLedger
  return ⟨value.value⟩

theorem identifier_eq_ok {ι : Type} [TextIdentifier ι] {value i : ι} :
    identifier value = .ok i ↔ TextIdentifier.Valid value ∧ i = value := by
  simp [identifier]

theorem window_eq_ok {value w : IncidentWindow} :
    window value = .ok w ↔ value.Valid ∧ w = value := by
  simp [window]

theorem evidenceIdentifier_eq_ok {value i : EvidenceId} :
    evidenceIdentifier value = .ok i ↔
      wellFormedId value.value = true ∧ i = value := by
  simp [evidenceIdentifier, -bind_pure_comp]

/-- Entries of the same events in the same window with the same identifiers. -/
theorem entries_ext {w : IncidentWindow} {built entries : List ChangeEventEvidence}
    (hmap : built.map (·.event) = entries.map (·.event))
    (hids : built.map (·.evidenceId) = entries.map (·.evidenceId))
    (hbuilt : ∀ b ∈ built, b.phase = phase b.occurredAt w)
    (hentries : ∀ e ∈ entries, e.phase = phase e.occurredAt w) : built = entries := by
  induction built generalizing entries with
  | nil => cases entries <;> simp_all
  | cons b bs ih =>
    cases entries with
    | nil => simp at hmap
    | cons e es =>
      simp only [List.map_cons, List.cons.injEq] at hmap hids
      obtain ⟨hb, hbs⟩ := List.forall_mem_cons.mp hbuilt
      obtain ⟨he, hes⟩ := List.forall_mem_cons.mp hentries
      rw [ih hmap.2 hids.2 hbs hes]
      have hevent := hmap.1
      simp only [ChangeEventEvidence.event, ChangeEvent.mk.injEq] at hevent
      have hphase : b.phase = e.phase := by rw [hb, he, hevent.2.2]
      cases b
      cases e
      simp_all

/-- Events in strictly increasing order are those the sort leaves alone and none
    of which occurs twice. -/
theorem orderKey_increasing_iff {events : List ChangeEvent} :
    ((events.map changeIdentity).Nodup ∧
        events.map orderKey = (sortedOn orderKey events).map orderKey) ↔
      (events.map orderKey).Pairwise (· < ·) := by
  have hnodup_iff : (events.map changeIdentity).Nodup ↔ (events.map orderKey).Nodup := by
    rw [List.nodup_map_iff changeIdentity_injective, List.nodup_map_iff orderKey_injective]
  constructor
  · rintro ⟨hnodup, horder⟩
    rw [horder]
    exact List.pairwise_map.mpr (strict_sortedOn (hnodup_iff.mp hnodup))
  · intro h
    have hle : events.Pairwise fun a b => orderKey a ≤ orderKey b :=
      (List.pairwise_map.mp h).imp fun hab => le_of_lt hab
    exact ⟨hnodup_iff.mpr (h.imp fun hab => ne_of_lt hab), by rw [sortedOn_eq_self hle]⟩

section entryPoints
variable [Sha256]

/-- `_evidence_id`. -/
def evidenceId (payload : Json) : Except DomainError EvidenceId :=
  orRaise (contentId idDomain payload) .invalidChangeEventLedger

/-- The entry `_build_entries` makes of one event. -/
def buildEntry (tenant : TenantId) (incident : IncidentId) (run : RunId) (window : IncidentWindow)
    (event : ChangeEvent) : Except DomainError ChangeEventEvidence := do
  let eventKey ← identifier event.eventKey
  let phase := phase event.occurredAt window
  let evidenceId ← evidenceId
    (entryPayload tenant incident run window ⟨eventKey, event.kind, event.occurredAt⟩ phase)
  return {
    evidenceId := evidenceId
    eventKey := eventKey
    kind := event.kind
    occurredAt := event.occurredAt
    phase := phase }

/-- `_build_entries`. -/
def buildEntries (tenant : TenantId) (incident : IncidentId) (run : RunId)
    (window : IncidentWindow) (events : List ChangeEvent) :
    Except DomainError (List ChangeEventEvidence) :=
  (sortedOn orderKey events).mapM (buildEntry tenant incident run window)

/-- The loop of `_change_log`, with the identities seen so far. -/
def copyEvents : List (Str × Str × Datetime) → List ChangeEvent →
    Except DomainError (List ChangeEvent)
  | _, [] => return []
  | seen, event :: events => do
    let eventKey ← identifier event.eventKey
    let copy : ChangeEvent := ⟨eventKey, event.kind, event.occurredAt⟩
    require (changeIdentity copy ∉ seen) .invalidChangeEventLedger
    let copied ← copyEvents (changeIdentity copy :: seen) events
    return copy :: copied

/-- `_change_log`. -/
def changeLog (value : ChangeEventLog) : Except DomainError (List ChangeEvent) := do
  require (¬ value.events.length > MAX_CHANGE_EVENTS) .invalidChangeEventLedger
  copyEvents [] value.events

/-- The validator's loop: the supplied identifiers and the events. -/
def copyEntries (window : IncidentWindow) : List (Str × Str × Datetime) →
    List ChangeEventEvidence → Except DomainError (List (EvidenceId × ChangeEvent))
  | _, [] => return []
  | seen, entry :: entries => do
    let evidenceId ← evidenceIdentifier entry.evidenceId
    let eventKey ← identifier entry.eventKey
    require (entry.phase = phase entry.occurredAt window) .invalidChangeEventLedger
    let event : ChangeEvent := ⟨eventKey, entry.kind, entry.occurredAt⟩
    require (changeIdentity event ∉ seen) .invalidChangeEventLedger
    let copied ← copyEntries window (changeIdentity event :: seen) entries
    return (evidenceId, event) :: copied

/-- `_validated_change_event_ledger`. -/
def validatedChangeEventLedger (value : ChangeEventLedger) :
    Except DomainError ChangeEventLedger := do
  require (value.schemaVersion = SCHEMA_VERSION) .invalidChangeEventLedger
  let tenant ← identifier value.tenantId
  let incident ← identifier value.incidentId
  let run ← identifier value.runId
  let normalizedWindow ← window value.window
  let supplied ← copyEntries normalizedWindow [] value.entries
  let reconstructed := supplied.map (·.2)
  require (reconstructed.map orderKey = (sortedOn orderKey reconstructed).map orderKey)
    .invalidChangeEventLedger
  let entries ← buildEntries tenant incident run normalizedWindow reconstructed
  require (entries.map (·.evidenceId.value) = supplied.map (·.1.value)) .invalidChangeEventLedger
  return {
    schemaVersion := SCHEMA_VERSION
    tenantId := tenant
    incidentId := incident
    runId := run
    window := normalizedWindow
    entries := entries }

/-- `_compile_change_event_ledger`, before its exceptions are normalized. -/
def compileUnchecked (tenantId : TenantId) (incidentId : IncidentId) (runId : RunId)
    (incidentWindow : IncidentWindow) (log : ChangeEventLog) :
    Except DomainError ChangeEventLedger := do
  let tenant ← identifier tenantId
  let incident ← identifier incidentId
  let run ← identifier runId
  let normalizedWindow ← window incidentWindow
  let events ← changeLog log
  let entries ← buildEntries tenant incident run normalizedWindow events
  replaceError .invalidChangeEventLedger <| validatedChangeEventLedger {
    schemaVersion := SCHEMA_VERSION
    tenantId := tenant
    incidentId := incident
    runId := run
    window := normalizedWindow
    entries := entries }

end entryPoints

theorem copyEntries_eq_ok {w : IncidentWindow} {seen : List (Str × Str × Datetime)}
    {entries : List ChangeEventEvidence} {rows : List (EvidenceId × ChangeEvent)} :
    copyEntries w seen entries = .ok rows ↔
      (∀ e ∈ entries, wellFormedId e.evidenceId.value = true ∧ TextIdentifier.Valid e.eventKey ∧
        e.phase = phase e.occurredAt w ∧ changeIdentity e.event ∉ seen) ∧
      (entries.map (changeIdentity ·.event)).Nodup ∧
      rows = entries.map fun e => (e.evidenceId, e.event) := by
  induction entries generalizing seen rows with
  | nil => simp [copyEntries]
  | cons e es ih =>
    simp only [copyEntries, bind_eq_ok, evidenceIdentifier_eq_ok, identifier_eq_ok,
      require_eq_ok, ih, pure_eq_ok, List.forall_mem_cons, List.map_cons, List.nodup_cons]
    constructor
    · rintro ⟨_, ⟨hid, rfl⟩, _, ⟨hkey, rfl⟩, _, hphase, _, hseen, _, ⟨hes, hnodup, rfl⟩, rfl⟩
      refine ⟨⟨⟨hid, hkey, hphase, hseen⟩, fun e' he' => ?_⟩, ⟨?_, hnodup⟩, rfl⟩
      · obtain ⟨h1, h2, h3, h4⟩ := hes e' he'
        exact ⟨h1, h2, h3, fun hmem => h4 (List.mem_cons_of_mem _ hmem)⟩
      · intro hmem
        obtain ⟨e', he', heq⟩ := List.mem_map.mp hmem
        exact (hes e' he').2.2.2 (heq ▸ List.mem_cons_self)
    · rintro ⟨⟨⟨hid, hkey, hphase, hseen⟩, hes⟩, ⟨hnew, hnodup⟩, rfl⟩
      refine ⟨_, ⟨hid, rfl⟩, _, ⟨hkey, rfl⟩, (), hphase, (), hseen, _,
        ⟨fun e' he' => ?_, hnodup, rfl⟩, rfl⟩
      obtain ⟨h1, h2, h3, h4⟩ := hes e' he'
      refine ⟨h1, h2, h3, fun hmem => ?_⟩
      rcases List.mem_cons.mp hmem with heq | hmem
      · exact hnew (heq ▸ List.mem_map_of_mem he')
      · exact h4 hmem

end ChangeEvidence

open ChangeEvidence

section accepted
variable [Sha256]

/-- Deeply reconstruct a change ledger and verify every content-bound id. -/
def validateChangeEventLedger (value : ChangeEventLedger) : Except DomainError ChangeEventLedger :=
  replaceError .invalidChangeEventLedger (validatedChangeEventLedger value)

/-- Validate and bind a change-event log without repairing forged state. -/
def compileChangeEventLedger (tenantId : TenantId) (incidentId : IncidentId) (runId : RunId)
    (window : IncidentWindow) (log : ChangeEventLog) : Except DomainError ChangeEventLedger :=
  replaceError .invalidChangeEventLedger (compileUnchecked tenantId incidentId runId window log)

/-! ### Accepted ledgers -/

/-- The payload hashed for an entry of a change ledger. -/
def ChangeEventLedger.payload (l : ChangeEventLedger) (e : ChangeEventEvidence) : Json :=
  ChangeEvidence.entryPayload l.tenantId l.incidentId l.runId l.window e.event e.phase

/-- The change ledgers the validator accepts. -/
structure ChangeEventLedger.Accepted (l : ChangeEventLedger) : Prop where
  schemaVersion : l.schemaVersion = ChangeEvidence.SCHEMA_VERSION
  tenant : TextIdentifier.Valid l.tenantId
  incident : TextIdentifier.Valid l.incidentId
  run : TextIdentifier.Valid l.runId
  window : l.window.Valid
  keys : ∀ e ∈ l.entries, TextIdentifier.Valid e.eventKey
  phases : ∀ e ∈ l.entries, e.phase = phase e.occurredAt l.window
  increasing : (l.entries.map (orderKey ·.event)).Pairwise (· < ·)
  ids : ∀ e ∈ l.entries, contentId ChangeEvidence.idDomain (l.payload e) = some e.evidenceId

theorem buildChangeEntry_eq_ok {t : TenantId} {i : IncidentId} {r : RunId} {w : IncidentWindow}
    {event : ChangeEvent} {b : ChangeEventEvidence} :
    ChangeEvidence.buildEntry t i r w event = .ok b ↔
      TextIdentifier.Valid event.eventKey ∧ b.event = event ∧ b.phase = phase event.occurredAt w ∧
      contentId ChangeEvidence.idDomain
        (ChangeEvidence.entryPayload t i r w b.event b.phase) = some b.evidenceId := by
  simp only [ChangeEvidence.buildEntry, ChangeEvidence.evidenceId, bind_eq_ok,
    ChangeEvidence.identifier_eq_ok, orRaise_eq_ok, pure_eq_ok]
  constructor
  · rintro ⟨_, ⟨hkey, rfl⟩, id, hid, rfl⟩
    exact ⟨hkey, rfl, rfl, hid⟩
  · rintro ⟨hkey, rfl, hphase, hid⟩
    refine ⟨_, ⟨hkey, rfl⟩, b.evidenceId, ?_, ?_⟩
    · rw [hphase] at hid
      exact hid
    · rw [← hphase]
      rfl

/-- Building the entries of events in order. -/
theorem buildChangeEntries_eq_ok {t : TenantId} {i : IncidentId} {r : RunId} {w : IncidentWindow}
    {events : List ChangeEvent} {built : List ChangeEventEvidence} :
    events.mapM (ChangeEvidence.buildEntry t i r w) = .ok built ↔
      built.map (·.event) = events ∧ ∀ b ∈ built, TextIdentifier.Valid b.eventKey ∧
        b.phase = phase b.occurredAt w ∧ contentId ChangeEvidence.idDomain
          (ChangeEvidence.entryPayload t i r w b.event b.phase) = some b.evidenceId := by
  induction events generalizing built with
  | nil => cases built <;> simp
  | cons e es ih =>
    simp only [List.mapM_cons, bind_eq_ok, buildChangeEntry_eq_ok, pure_eq_ok, ih]
    constructor
    · rintro ⟨b, ⟨hkey, rfl, hphase, hid⟩, bs, ⟨rfl, hbs⟩, rfl⟩
      exact ⟨rfl, List.forall_mem_cons.mpr ⟨⟨hkey, hphase, hid⟩, hbs⟩⟩
    · cases built with
      | nil => simp
      | cons b bs =>
        rintro ⟨hmap, hall⟩
        obtain ⟨rfl, rfl⟩ := List.cons.inj hmap
        obtain ⟨⟨hkey, hphase, hid⟩, hbs⟩ := List.forall_mem_cons.mp hall
        exact ⟨b, ⟨hkey, rfl, hphase, hid⟩, bs, ⟨rfl, hbs⟩, rfl⟩

/-- **The validator accepts exactly the `Accepted` change ledgers** and returns
    them unchanged. -/
theorem validateChange_eq_ok {l l' : ChangeEventLedger} :
    validateChangeEventLedger l = .ok l' ↔ l.Accepted ∧ l' = l := by
  have hvalue : ∀ {a b : List EvidenceId}, a.map (·.value) = b.map (·.value) ↔ a = b := by
    intro a b
    refine ⟨fun h => List.map_injective_iff.mpr ?_ h, fun h => by rw [h]⟩
    rintro ⟨x⟩ ⟨y⟩ hxy
    exact congrArg EvidenceId.mk hxy
  simp only [validateChangeEventLedger, replaceError_eq_ok, validatedChangeEventLedger, bind_eq_ok,
    require_eq_ok, ChangeEvidence.identifier_eq_ok, ChangeEvidence.window_eq_ok, copyEntries_eq_ok,
    ChangeEvidence.buildEntries, pure_eq_ok]
  constructor
  · rintro ⟨_, hschema, _, ⟨ht, rfl⟩, _, ⟨hi, rfl⟩, _, ⟨hr, rfl⟩, _, ⟨hw, rfl⟩, rows,
      ⟨hentries, hnodup, rfl⟩, _, horder, built, hbuilt, _, hids, rfl⟩
    simp only [List.map_map, Function.comp_def] at horder hbuilt hids
    have hincreasing : ((l.entries.map (·.event)).map orderKey).Pairwise (· < ·) :=
      orderKey_increasing_iff.mp ⟨by simpa [Function.comp_def] using hnodup,
        by simpa [Function.comp_def] using horder⟩
    -- keys in order and distinct: sorting again changes nothing
    have hsorted : sortedOn orderKey (l.entries.map (·.event)) = l.entries.map (·.event) :=
      sortedOn_eq_self ((List.pairwise_map.mp hincreasing).imp fun hab => le_of_lt hab)
    rw [hsorted] at hbuilt
    obtain ⟨hmap, hall⟩ := buildChangeEntries_eq_ok.mp hbuilt
    -- equal events, phases and ids: the rebuilt entries are the given ones
    have hsame : built = l.entries := by
      refine ChangeEvidence.entries_ext hmap (hvalue.mp ?_) (fun b hb => (hall b hb).2.1)
        (fun e he => (hentries e he).2.2.1)
      simpa [Function.comp_def] using hids
    subst hsame
    refine ⟨⟨hschema, ht, hi, hr, hw, fun e he => (hall e he).1, fun e he => (hall e he).2.1, ?_,
      fun e he => (hall e he).2.2⟩, ?_⟩
    · simpa [Function.comp_def] using hincreasing
    · rw [← hschema]
  · rintro ⟨⟨hschema, ht, hi, hr, hw, hkeys, hphases, hincreasing, hids⟩, rfl⟩
    have hincreasing' : ((l'.entries.map (·.event)).map orderKey).Pairwise (· < ·) := by
      simpa [Function.comp_def] using hincreasing
    obtain ⟨hnodup, horder⟩ := orderKey_increasing_iff.mpr hincreasing'
    have hsorted : sortedOn orderKey (l'.entries.map (·.event)) = l'.entries.map (·.event) :=
      sortedOn_eq_self ((List.pairwise_map.mp hincreasing').imp fun hab => le_of_lt hab)
    refine ⟨(), hschema, _, ⟨ht, rfl⟩, _, ⟨hi, rfl⟩, _, ⟨hr, rfl⟩, _, ⟨hw, rfl⟩, _,
      ⟨fun e he => ⟨contentId_wellFormed (hids e he), hkeys e he, hphases e he,
        List.not_mem_nil⟩, by simpa [Function.comp_def] using hnodup, rfl⟩, (), ?_, l'.entries,
      ?_, (), ?_, ?_⟩
    · simpa [Function.comp_def] using horder
    · simp only [List.map_map, Function.comp_def]
      rw [hsorted]
      exact buildChangeEntries_eq_ok.mpr
        ⟨rfl, fun e he => ⟨hkeys e he, hphases e he, hids e he⟩⟩
    · simp [Function.comp_def]
    · rw [← hschema]

end accepted

end IncidentEvidence
