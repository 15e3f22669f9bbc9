import IncidentEvidence.Domain.ChangeEvidence
import IncidentEvidence.Domain.Evidence.Faithful

/-! # What the change ledger's compiler and validator accept

    `compileChange_eq_ok` characterises the compiler, as `validateChange_eq_ok`
    does the validator. The two differ in one rule: `_change_log` bounds the
    number of events and the validator does not, so that it accepts ledgers which
    no log compiles to (`change_validator_iff`).
-/

namespace IncidentEvidence

open Py ChangeEvidence

/-! ### Logs -/

theorem construct_eq_ok {events : List ChangeEvent} {log : ChangeEventLog} :
    ChangeEventLog.construct events = .ok log ↔
      events.length ≤ MAX_CHANGE_EVENTS ∧ (events.map changeIdentity).Nodup ∧
        log = ⟨sortedOn orderKey events⟩ := by
  simp only [ChangeEventLog.construct, bind_eq_ok, require_eq_ok, pure_eq_ok, exists_const,
    Nat.not_lt]

/-- A log holds its events in strictly increasing order. -/
theorem increasing_log {events : List ChangeEvent} (h : (events.map changeIdentity).Nodup) :
    (sortedOn orderKey events).Pairwise fun a b => orderKey a < orderKey b :=
  strict_sortedOn ((List.nodup_map_iff orderKey_injective).mpr
    ((List.nodup_map_iff changeIdentity_injective).mp h))

theorem copyEvents_eq_ok {seen : List (Str × Str × Datetime)} {events copied : List ChangeEvent} :
    ChangeEvidence.copyEvents seen events = .ok copied ↔
      (∀ e ∈ events, TextIdentifier.Valid e.eventKey ∧ changeIdentity e ∉ seen) ∧
        (events.map changeIdentity).Nodup ∧ copied = events := by
  induction events generalizing seen copied with
  | nil => simp [ChangeEvidence.copyEvents]
  | cons e es ih =>
    simp only [ChangeEvidence.copyEvents, bind_eq_ok, ChangeEvidence.identifier_eq_ok,
      require_eq_ok, ih, pure_eq_ok, List.forall_mem_cons, List.map_cons, List.nodup_cons]
    constructor
    · rintro ⟨_, ⟨hkey, rfl⟩, _, hseen, _, ⟨hes, hnodup, rfl⟩, rfl⟩
      refine ⟨⟨⟨hkey, hseen⟩, fun e' he' => ?_⟩, ⟨?_, hnodup⟩, rfl⟩
      · obtain ⟨hkey', hseen'⟩ := hes e' he'
        exact ⟨hkey', fun hmem => hseen' (List.mem_cons_of_mem _ hmem)⟩
      · intro hmem
        obtain ⟨e', he', heq⟩ := List.mem_map.mp hmem
        exact (hes e' he').2 (heq ▸ List.mem_cons_self)
    · rintro ⟨⟨⟨hkey, hseen⟩, hes⟩, ⟨hnew, hnodup⟩, rfl⟩
      refine ⟨_, ⟨hkey, rfl⟩, (), hseen, _, ⟨fun e' he' => ?_, hnodup, rfl⟩, rfl⟩
      obtain ⟨hkey', hseen'⟩ := hes e' he'
      refine ⟨hkey', fun hmem => ?_⟩
      rcases List.mem_cons.mp hmem with heq | hmem
      · exact hnew (heq ▸ List.mem_map_of_mem he')
      · exact hseen' hmem

/-! ### The compiler -/

section compiler
variable [Sha256] {tenant : TenantId} {incident : IncidentId} {run : RunId} {window : IncidentWindow}

/-- **The compiler returns the accepted ledger that replays the log**, and it does so
    exactly for the logs within the bound. -/
theorem compileChange_eq_ok {log : ChangeEventLog} {l : ChangeEventLedger} :
    compileChangeEventLedger tenant incident run window log = .ok l ↔
      log.events.length ≤ MAX_CHANGE_EVENTS ∧ (log.events.map changeIdentity).Nodup ∧
        l.Accepted ∧ l.tenantId = tenant ∧ l.incidentId = incident ∧ l.runId = run ∧
        l.window = window ∧ l.entries.map (·.event) = sortedOn orderKey log.events := by
  simp only [compileChangeEventLedger, compileUnchecked, replaceError_eq_ok, bind_eq_ok,
    identifier_eq_ok, window_eq_ok, changeLog, require_eq_ok, Nat.not_lt, copyEvents_eq_ok,
    buildEntries]
  constructor
  · rintro ⟨_, ⟨-, rfl⟩, _, ⟨-, rfl⟩, _, ⟨-, rfl⟩, _, ⟨-, rfl⟩, _, ⟨_, hlength, -, hnodup, rfl⟩,
      entries, hbuilt, hvalid⟩
    obtain ⟨haccepted, rfl⟩ := validateChange_eq_ok.mp (replaceError_eq_ok.mpr hvalid)
    exact ⟨hlength, hnodup, haccepted, rfl, rfl, rfl, rfl, (buildChangeEntries_eq_ok.mp hbuilt).1⟩
  · rintro ⟨hlength, hnodup, haccepted, rfl, rfl, rfl, rfl, hmap⟩
    have hkeys : ∀ e ∈ log.events, TextIdentifier.Valid e.eventKey ∧ changeIdentity e ∉ [] := by
      intro e he
      have hmem : e ∈ l.entries.map (·.event) := hmap ▸ mem_sortedOn.mpr he
      obtain ⟨entry, hentry, rfl⟩ := List.mem_map.mp hmem
      exact ⟨haccepted.keys entry hentry, List.not_mem_nil⟩
    have hbuilt : (sortedOn orderKey log.events).mapM
        (ChangeEvidence.buildEntry l.tenantId l.incidentId l.runId l.window) = .ok l.entries :=
      buildChangeEntries_eq_ok.mpr
        ⟨hmap, fun e he => ⟨haccepted.keys e he, haccepted.phases e he, haccepted.ids e he⟩⟩
    refine ⟨_, ⟨haccepted.tenant, rfl⟩, _, ⟨haccepted.incident, rfl⟩, _, ⟨haccepted.run, rfl⟩, _,
      ⟨haccepted.window, rfl⟩, log.events, ⟨(), hlength, hkeys, hnodup, rfl⟩, l.entries, hbuilt, ?_⟩
    rw [← haccepted.schemaVersion]
    exact replaceError_eq_ok.mp (validateChange_eq_ok.mpr ⟨haccepted, rfl⟩)

/-- The ledger of some events in order, when all texts can be encoded. -/
theorem exists_changeLedger {events : List ChangeEvent}
    (htenant : TextIdentifier.Valid tenant ∧ Encodable tenant.value)
    (hincident : TextIdentifier.Valid incident ∧ Encodable incident.value)
    (hrun : TextIdentifier.Valid run ∧ Encodable run.value) (hwindow : window.Valid)
    (hkeys : ∀ e ∈ events, TextIdentifier.Valid e.eventKey ∧ Encodable e.eventKey.value)
    (horder : events.Pairwise fun a b => orderKey a < orderKey b) :
    ∃ l : ChangeEventLedger, l.Accepted ∧ l.tenantId = tenant ∧ l.incidentId = incident ∧
      l.runId = run ∧ l.window = window ∧ l.entries.map (·.event) = events := by
  -- every payload can be written, so every event gets its entry
  have hbuild : ∀ e ∈ events, ∃ entry,
      ChangeEvidence.buildEntry tenant incident run window e = .ok entry := by
    intro e he
    obtain ⟨hvalid, hencodable⟩ := hkeys e he
    have hkind : Encodable e.kind.value := by
      cases e.kind <;> exact encodable_str _
    have hphase : ∀ phase : ChangePhase, Encodable phase.value := by
      intro phase
      cases phase <;> exact encodable_str _
    obtain ⟨id, hid⟩ := @contentId_isSome _ idDomain
      (entryPayload tenant incident run window e (phase e.occurredAt window))
      (printable_jsonObj (by simp [Identity.printable_windowPayload]))
      (encodable_jsonObj (by simp [Identity.encodable_windowPayload, ChangeEvidence.SCHEMA_VERSION,
        htenant.2, hincident.2, hrun.2, hencodable, hkind, hphase]))
    exact ⟨⟨id, e.eventKey, e.kind, e.occurredAt, phase e.occurredAt window⟩,
      buildChangeEntry_eq_ok.mpr ⟨hvalid, rfl, rfl, hid⟩⟩
  obtain ⟨entries, hentries⟩ := exists_mapM_eq_ok.mpr hbuild
  obtain ⟨hmap, hall⟩ := buildChangeEntries_eq_ok.mp hentries
  refine ⟨⟨ChangeEvidence.SCHEMA_VERSION, tenant, incident, run, window, entries⟩, ?_, rfl, rfl, rfl,
    rfl, hmap⟩
  refine ⟨rfl, htenant.1, hincident.1, hrun.1, hwindow, fun e he => (hall e he).1,
    fun e he => (hall e he).2.1, ?_, fun e he => (hall e he).2.2⟩
  rw [← hmap] at horder
  have hincreasing := List.pairwise_map.mp horder
  exact List.pairwise_map.mpr hincreasing

/-- **An accepted log compiles**, when all texts can be encoded. -/
theorem exists_compileChange {events : List ChangeEvent} {log : ChangeEventLog}
    (htenant : TextIdentifier.Valid tenant ∧ Encodable tenant.value)
    (hincident : TextIdentifier.Valid incident ∧ Encodable incident.value)
    (hrun : TextIdentifier.Valid run ∧ Encodable run.value) (hwindow : window.Valid)
    (hkeys : ∀ e ∈ events, TextIdentifier.Valid e.eventKey ∧ Encodable e.eventKey.value)
    (hlog : ChangeEventLog.construct events = .ok log) :
    ∃ l, compileChangeEventLedger tenant incident run window log = .ok l := by
  obtain ⟨hlength, hnodup, rfl⟩ := construct_eq_ok.mp hlog
  have hperm := perm_sortedOn orderKey events
  have horder := increasing_log hnodup
  obtain ⟨l, haccepted, ht, hi, hr, hw, hmap⟩ := exists_changeLedger htenant hincident hrun hwindow
    (fun e he => hkeys e (mem_sortedOn.mp he)) horder
  refine ⟨l, compileChange_eq_ok.mpr ⟨?_, ?_, haccepted, ht, hi, hr, hw, ?_⟩⟩
  · rw [hperm.length_eq]
    exact hlength
  · exact (hperm.map changeIdentity).nodup_iff.mpr hnodup
  · rw [hmap]
    exact (sortedOn_eq_self (horder.imp fun hab => le_of_lt hab)).symm

/-! ### The validator and the image of the compiler -/

/-- Some log compiles to the ledger. -/
def ChangeEventLedger.Compiled (l : ChangeEventLedger) : Prop :=
  ∃ events log, ChangeEventLog.construct events = .ok log ∧
    compileChangeEventLedger l.tenantId l.incidentId l.runId l.window log = .ok l

/-- **What the compiler returns** are the accepted ledgers within the bound. -/
theorem compiled_iff {l : ChangeEventLedger} :
    l.Compiled ↔ l.Accepted ∧ l.entries.length ≤ MAX_CHANGE_EVENTS := by
  constructor
  · rintro ⟨events, log, hlog, hcompile⟩
    obtain ⟨-, -, rfl⟩ := construct_eq_ok.mp hlog
    obtain ⟨hlength, -, haccepted, -, -, -, -, hmap⟩ := compileChange_eq_ok.mp hcompile
    refine ⟨haccepted, ?_⟩
    have hcount := congrArg List.length hmap
    rw [List.length_map, (perm_sortedOn _ _).length_eq] at hcount
    exact hcount ▸ hlength
  · rintro ⟨haccepted, hlength⟩
    have hincreasing : ((l.entries.map (·.event)).map orderKey).Pairwise (· < ·) := by
      simpa [Function.comp_def] using haccepted.increasing
    obtain ⟨hnodup, -⟩ := orderKey_increasing_iff.mpr hincreasing
    have hsorted : sortedOn orderKey (l.entries.map (·.event)) = l.entries.map (·.event) :=
      sortedOn_eq_self ((List.pairwise_map.mp hincreasing).imp fun hab => le_of_lt hab)
    refine ⟨l.entries.map (·.event), ⟨l.entries.map (·.event)⟩, ?_, ?_⟩
    · exact construct_eq_ok.mpr ⟨by simpa using hlength, hnodup, by rw [hsorted]⟩
    · exact compileChange_eq_ok.mpr
        ⟨by simpa using hlength, hnodup, haccepted, rfl, rfl, rfl, rfl, hsorted.symm⟩

/-- **The validator accepts exactly the compiled ledgers, and returns them as they are,
    unless** a ledger keeps every rule and has more entries than a log may hold. -/
theorem change_validator_iff (l : ChangeEventLedger) :
    (((∃ l', validateChangeEventLedger l = .ok l') ↔ l.Compiled) ∧
        ∀ l', validateChangeEventLedger l = .ok l' → l' = l) ↔
      l.entries.length ≤ MAX_CHANGE_EVENTS ∨ ¬ l.Accepted := by
  have hvalid : (∃ l', validateChangeEventLedger l = .ok l') ↔ l.Accepted := by
    simp only [validateChange_eq_ok, exists_and_left, exists_eq, and_true]
  have hsame : ∀ l', validateChangeEventLedger l = .ok l' → l' = l := fun l' h =>
    (validateChange_eq_ok.mp h).2
  rw [hvalid, compiled_iff]
  constructor
  · rintro ⟨hiff, -⟩
    by_cases haccepted : l.Accepted
    · exact Or.inl (hiff.mp haccepted).2
    · exact Or.inr haccepted
  · intro hcondition
    refine ⟨⟨fun haccepted => ⟨haccepted, ?_⟩, fun h => h.1⟩, hsame⟩
    rcases hcondition with hlength | hnot
    · exact hlength
    · exact absurd haccepted hnot

end compiler

namespace Demo

/-- One deployment of the checkout in each of the first microseconds. -/
def rollouts (n : Nat) (h : n ≤ maxMicros) : List ChangeEvent :=
  List.ofFn fun k : Fin n => ⟨⟨str "checkout"⟩, .deployment, at' k.val (lt_of_lt_of_le k.isLt h)⟩

theorem rollouts_increasing (n : Nat) (h : n ≤ maxMicros) :
    (rollouts n h).Pairwise fun a b => orderKey a < orderKey b := by
  rw [rollouts, List.pairwise_ofFn]
  intro i j hij
  exact Prod.Lex.toLex_lt_toLex.mpr (Or.inl hij)

end Demo

open Demo in
/-- A ledger of one entry more than a log may hold is accepted. -/
theorem change_validator_unbounded : ∃ l : ChangeEventLedger,
    l.entries.length = MAX_CHANGE_EVENTS + 1 ∧ validateChangeEventLedger l = .ok l ∧
      ¬ l.Compiled := by
  have hfew : MAX_CHANGE_EVENTS + 1 ≤ maxMicros := by decide
  have hkeys : ∀ e ∈ rollouts (MAX_CHANGE_EVENTS + 1) hfew,
      TextIdentifier.Valid e.eventKey ∧ Encodable e.eventKey.value := by
    intro e he
    obtain ⟨k, rfl⟩ := List.mem_ofFn.mp he
    have hkey : TextIdentifier.Valid (⟨str "checkout"⟩ : ChangeEventKey) := by decide
    exact ⟨hkey, encodable_str _⟩
  obtain ⟨l, haccepted, -, -, -, -, hmap⟩ := @exists_changeLedger _ tenant incident run window _
    tenant_ok incident_ok run_ok (by decide) hkeys (rollouts_increasing _ _)
  have hlength : l.entries.length = MAX_CHANGE_EVENTS + 1 := by
    have hcount := congrArg List.length hmap
    rwa [List.length_map, rollouts, List.length_ofFn] at hcount
  refine ⟨l, hlength, validateChange_eq_ok.mpr ⟨haccepted, rfl⟩, ?_⟩
  intro hcompiled
  have hbound := (compiled_iff.mp hcompiled).2
  omega

end IncidentEvidence
