import IncidentEvidence.Domain.ChangeLedgers
import IncidentEvidence.Domain.Evidence.Binding
import IncidentEvidence.Domain.LedgerJson
import IncidentEvidence.Py.DatetimeOrder
import Mathlib.Data.List.Perm.Basic

/-! # Ledger documents are canonical

    With one zero, two equal numbers have one rendering, so the serializers'
    comparisons of rendered fields accept every ledger the validators accept. The
    documents do not depend on the order of the inputs, and a document determines
    its ledger (`ledger_bytes_canonical`).
-/

namespace IncidentEvidence

open Py PyFloat Parsing Decisions Identity Serialization

/-! ### Permutations -/

/-- Sorted by distinct keys, what a permuted list is related to is the same list. -/
theorem sortedOn_forall₂_perm {α β κ : Type} [LinearOrder κ] {r : α → β → Prop} (key : β → κ)
    {l l' : List α} {m : List β} (hperm : l'.Perm l) (h : List.Forall₂ r l m)
    (hnodup : (m.map key).Nodup) :
    ∃ m', List.Forall₂ r l' m' ∧ sortedOn key m' = sortedOn key m := by
  obtain ⟨m', hforall, hm⟩ := List.perm_comp_forall₂ hperm h
  exact ⟨m', hforall, (sortedOn_eq_of_perm hm.symm hnodup).symm⟩

/-- The baseline does not see the order of its inputs. -/
theorem rank_perm {F : Type} [PyFloat F] {window : IncidentWindow}
    {inputs inputs' : List (SignalBaselineInput F)} {policy : BaselinePolicy F}
    {result : BaselineResult F} (hperm : inputs'.Perm inputs)
    (h : rankMetricShifts window inputs policy = .ok result) :
    rankMetricShifts window inputs' policy = .ok result := by
  obtain ⟨hnodup, evaluations, hforall, rfl⟩ := rankMetricShifts_eq_ok.mp h
  have hkeys : evaluations.map (·.signalKey.value) = inputs.map (·.signal.key.value) := by
    clear h hnodup hperm
    induction hforall with
    | nil => rfl
    | cons hhead _ ih => rw [List.map_cons, List.map_cons, ih, hhead.key]
  obtain ⟨evaluations', hforall', hsorted⟩ := sortedOn_forall₂_perm
    (fun e : SignalEvaluation F => e.signalKey.value) hperm hforall (hkeys ▸ hnodup)
  refine rankMetricShifts_eq_ok.mpr ⟨(hperm.map _).nodup_iff.mpr hnodup, evaluations', hforall', ?_⟩
  rw [hsorted]

/-- A log does not see the order of its events. -/
theorem log_perm {events events' : List ChangeEvent} {log : ChangeEventLog}
    (hperm : events'.Perm events) (h : ChangeEventLog.construct events = .ok log) :
    ChangeEventLog.construct events' = .ok log := by
  simp only [ChangeEventLog.construct, bind_eq_ok, require_eq_ok, pure_eq_ok, exists_const] at h ⊢
  obtain ⟨hlength, hnodup, rfl⟩ := h
  have horder : (events'.map orderKey).Nodup :=
    ((hperm.map _).nodup_iff.mpr ((List.nodup_map_iff orderKey_injective).mpr
      ((List.nodup_map_iff changeIdentity_injective).mp hnodup)))
  refine ⟨by rwa [hperm.length_eq], (hperm.map _).nodup_iff.mpr hnodup, ?_⟩
  rw [sortedOn_eq_of_perm hperm horder]

/-- A function that tells the elements of two lists apart. -/
theorem eq_of_map_eq {α β : Type} {f : α → β} {l l' : List α} (h : l.map f = l'.map f)
    (hinj : ∀ a ∈ l, ∀ b ∈ l', f a = f b → a = b) : l = l' := by
  induction l generalizing l' with
  | nil => exact (List.map_eq_nil_iff.mp h.symm).symm
  | cons a l ih =>
    cases l' with
    | nil => exact absurd h (by simp)
    | cons b l' =>
      obtain ⟨hab, hrest⟩ := List.cons.inj h
      rw [hinj a List.mem_cons_self b List.mem_cons_self hab, ih hrest fun x hx y hy =>
        hinj x (List.mem_cons_of_mem a hx) y (List.mem_cons_of_mem b hy)]

/-! ### Metric documents -/

section metric
variable {F : Type} [FloatHex F]

/-- The document of a ledger. -/
def ledgerDocument (l : MetricEvidenceLedger F) : Json :=
  jsonObj [
    ("decision", Identity.decisionPayload l.decision),
    ("entries", .arr (l.entries.map entryJson)),
    ("incident_id", .str l.incidentId.value),
    ("incident_window", IncidentEvidence.windowPayload l.window),
    ("policy", Identity.policyPayload l.policy),
    ("run_id", .str l.runId.value),
    ("schema_version", .str l.schemaVersion),
    ("tenant_id", .str l.tenantId.value)]

theorem canonical_entryJson (e : MetricShiftEvidence F) : (entryJson e).Canonical := by
  apply canonical_jsonObj (by simp only [List.map_cons, List.map_nil]; decide)
  have hcand : (jsonOption Identity.candidatePayload e.candidate).Canonical :=
    canonical_jsonOption fun c _ => canonical_candidatePayload c
  simp [hcand, canonical_hexJson]

theorem canonical_ledgerDocument (l : MetricEvidenceLedger F) : (ledgerDocument l).Canonical := by
  apply canonical_jsonObj (by simp only [List.map_cons, List.map_nil]; decide)
  simp [canonical_decisionPayload, canonical_policyPayload, canonical_windowPayload,
    canonical_entryJson]

variable [PyFloat F]

/-- An entry is read back from its document. -/
theorem entryJson_inj [LawfulFloatHex F] {e e' : MetricShiftEvidence F}
    (he : EvaluationFinite e.evaluation) (he' : EvaluationFinite e'.evaluation)
    (hrel : isFinite e.relativeScaleFloor = true) (hrel' : isFinite e'.relativeScaleFloor = true)
    (h : entryJson e = entryJson e') : e = e' := by
  simp only [entryJson, jsonObj, List.map_cons, List.map_nil, Json.obj.injEq, List.cons.injEq,
    Prod.mk.injEq, Json.int.injEq, Json.str.injEq, Json.bool.injEq, true_and, and_true] at h
  obtain ⟨hfloor, hcand, helig, hid, hpost, hpre, hrelative, hkey⟩ := h
  have hcandidate : e.candidate = e'.candidate :=
    jsonOption_inj (by simp [Identity.candidatePayload, jsonObj])
      (fun x y hx hy => candidatePayload_inj (he.candidate x hx) (he'.candidate y hy)) hcand
  have hfloor' : e.absoluteScaleFloor = e'.absoluteScaleFloor :=
    hexJson_inj he.floor he'.floor hfloor
  have hrelative' := hexJson_inj hrel hrel' hrelative
  obtain ⟨⟨i⟩, ⟨k⟩, _⟩ := e
  obtain ⟨⟨i'⟩, ⟨k'⟩, _⟩ := e'
  simp_all

variable [LawfulPyFloat F]

omit [FloatHex F] [LawfulPyFloat F] in
theorem Parsing.CandidateOk.writable {p : BaselinePolicy F} {k : SignalKey} {m n : Int} {floor : F}
    {c : SuspicionCandidate F} (h : CandidateOk p k m n floor c) : CandidateWritable c :=
  ⟨h.positiveFloor, h.postMedian, h.postNonneg, h.preMad, h.preMedian, h.preNonneg, h.relativeFloor,
    h.scale, h.key, h.signedScore, h.suspicionScore⟩

omit [FloatHex F] [LawfulPyFloat F] in
/-- The keys of ranked candidates are distinct when the keys of the evaluations are. -/
theorem nodup_rankedKeys {p : BaselinePolicy F} {evaluations : List (SignalEvaluation F)}
    (h : ∀ e ∈ evaluations, EvaluationOk p e)
    (hkeys : (evaluations.map (·.signalKey.value)).Nodup) :
    ((rankedCandidates evaluations).map (·.signalKey.value)).Nodup := by
  have hperm := (perm_sortedBy candidateLt (evaluations.filterMap (·.candidate))).map
    fun c => c.signalKey.value
  refine hperm.nodup_iff.mpr (List.Sublist.nodup ?_ hkeys)
  clear hperm hkeys
  induction evaluations with
  | nil => exact List.Sublist.refl _
  | cons e es ih =>
    obtain ⟨he, hes⟩ := List.forall_mem_cons.mp h
    rw [List.map_cons]
    cases hc : e.candidate with
    | none =>
      rw [List.filterMap_cons_none hc]
      exact (ih hes).cons _
    | some c =>
      rw [List.filterMap_cons_some hc, List.map_cons, (he.candidate c hc).sameKey]
      exact (ih hes).cons_cons _

omit [FloatHex F] in
theorem optionNonneg_of_agrees {supplied expected : Option F} (h : Agrees supplied expected) :
    ∀ x, supplied = some x → FiniteNonnegative x :=
  fun x hx => finiteNonnegative_iff.mpr (h.1 x hx)

variable [Sha256] {l : MetricEvidenceLedger F}

theorem Accepted.decisionWritable (h : l.Accepted) : DecisionWritable l.decision := by
  obtain ⟨hkind, hreason, hvalid, hkeys, hcount, htop, hsecond, hlead⟩ := h.decision
  have hnodup : (l.evaluations.map (·.signalKey.value)).Nodup := by
    have hincreasing := h.increasing
    unfold MetricEvidenceLedger.evaluations
    rw [List.map_map]
    exact hincreasing.imp fun hab => ne_of_lt hab
  refine ⟨?_, hvalid, ?_, ?_, optionNonneg_of_agrees hlead, optionNonneg_of_agrees hsecond,
    optionNonneg_of_agrees htop⟩
  · rw [hkind, hreason]
    unfold expectedDecision
    rcases expectedOutcome_cases l.policy (rankedCandidates l.evaluations) with
      ⟨reason, hout⟩ | ⟨lead, hout⟩
    · simp [hout]
    · simp [hout]
  · rw [hkeys, expectedDecision, List.map_map]
    exact nodup_rankedKeys h.evaluationOk hnodup
  · rw [hcount, hkeys, expectedDecision, List.length_map]

variable [ExactPyFloat F]

omit [Sha256] [LawfulPyFloat F] in
/-- With one zero a candidate repeats its entry's floors as rendered. -/
theorem EntryOk.writable {p : BaselinePolicy F} {e : MetricShiftEvidence F} (h : EntryOk p e) :
    EntryWritable e := by
  have hevaluation := h.evaluation
  have hcandidate : ∀ c, e.candidate = some c →
      CandidateOk p e.signalKey e.prePointCount e.postPointCount e.absoluteScaleFloor c :=
    hevaluation.candidate
  refine ⟨fun c hc => (hcandidate c hc).writable, hevaluation.key, hevaluation.preNonneg,
    hevaluation.postNonneg, hevaluation.floor, h.relativeFloor, hevaluation.isSome.symm, ?_,
    h.evidenceId⟩
  intro c hc
  have hok := hcandidate c hc
  have habsolute : c.absoluteScaleFloor = e.absoluteScaleFloor :=
    ExactPyFloat.eq_of_eq hok.sameAbsolute
  have hrelative : c.relativeScaleFloor = e.relativeScaleFloor := by
    rw [ExactPyFloat.eq_of_eq hok.sameRelative, ExactPyFloat.eq_of_eq h.sameRelative]
  exact ⟨congrArg SignalKey.value hok.sameKey, hok.samePre, hok.samePost, by rw [habsolute],
    by rw [hrelative]⟩

/-- **An accepted ledger has a document.** -/
theorem ledgerPayload_of_accepted (h : l.Accepted) : ledgerPayload l = .ok (ledgerDocument l) := by
  have hnormalized := normalized_eq h
  have hrelative : ∀ e ∈ l.entries,
      FloatHex.hex e.relativeScaleFloor = FloatHex.hex l.policy.relativeScaleFloor := by
    intro e he
    rw [ExactPyFloat.eq_of_eq (h.entries e he).sameRelative]
  simp only [ledgerPayload, bind_eq_ok, replaceError_eq_ok, validate_eq_ok, text_eq_ok,
    require_eq_ok, policyPayload_eq_ok, entriesPayload_eq_ok, decisionPayload_eq_ok,
    windowPayload_eq_ok, pure_eq_ok]
  refine ⟨l, ⟨h, hnormalized.symm⟩, _, ⟨?_, rfl⟩, (), h.schemaVersion, _, ⟨h.policy, rfl⟩, _,
    ⟨fun e he => (h.entries e he).writable, h.increasing, rfl⟩, (), hrelative, _,
    ⟨Accepted.decisionWritable h, rfl⟩, _, ⟨h.incident, rfl⟩, _, ⟨h.window, rfl⟩, _, ⟨h.run, rfl⟩,
    _, ⟨h.tenant, rfl⟩, rfl⟩
  rw [h.schemaVersion]
  decide

omit [ExactPyFloat F] in
/-- **A document determines its ledger.** -/
theorem ledgerDocument_inj [LawfulFloatHex F] {l' : MetricEvidenceLedger F} (h : l.Accepted)
    (h' : l'.Accepted) (heq : ledgerDocument l = ledgerDocument l') : l = l' := by
  simp only [ledgerDocument, jsonObj, List.map_cons, List.map_nil, Json.obj.injEq, List.cons.injEq,
    Prod.mk.injEq, Json.str.injEq, Json.arr.injEq, true_and, and_true] at heq
  obtain ⟨hdecision, hentries, hincident, hwindow, hpolicy, hrun, hschema, htenant⟩ := heq
  have hfinite : ∀ {m : MetricEvidenceLedger F}, m.Accepted → DecisionFinite m.decision := by
    intro m hm
    have hw := Accepted.decisionWritable hm
    exact ⟨fun x hx => (hw.topScore x hx).1, fun x hx => (hw.secondScore x hx).1,
      fun x hx => (hw.lead x hx).1⟩
  have hentry : l.entries = l'.entries := by
    refine eq_of_map_eq hentries ?_
    intro e he e' he' hjson
    have hok := h.entries e he
    have hok' := h'.entries e' he'
    exact entryJson_inj hok.evaluation.finite hok'.evaluation.finite hok.relativeFloor.1
      hok'.relativeFloor.1 hjson
  have h1 := decisionPayload_inj (hfinite h) (hfinite h') hdecision
  have h2 := windowPayload_injective hwindow
  have h3 := policyPayload_inj h.policy h'.policy hpolicy
  obtain ⟨_, ⟨t⟩, ⟨i⟩, ⟨r⟩, _⟩ := l
  obtain ⟨_, ⟨t'⟩, ⟨i'⟩, ⟨r'⟩, _⟩ := l'
  simp_all

omit [LawfulPyFloat F] [ExactPyFloat F] in
/-- The candidate of an entry repeats its key and its counts. -/
theorem Accepted.candidate_same (h : l.Accepted) {e : MetricShiftEvidence F} (he : e ∈ l.entries)
    {c : SuspicionCandidate F} (hc : e.candidate = some c) : c.signalKey = e.signalKey ∧
      c.prePointCount = e.prePointCount ∧ c.postPointCount = e.postPointCount := by
  have hok := (h.entries e he).evaluation.candidate c hc
  exact ⟨hok.sameKey, hok.samePre, hok.samePost⟩

omit [LawfulPyFloat F] [ExactPyFloat F] in
/-- An entry of an accepted ledger can be written when its key can be encoded and its counts
    printed. -/
theorem writable_entryJson [LawfulFloatHex F] (h : l.Accepted) {e : MetricShiftEvidence F}
    (he : e ∈ l.entries) (hkey : Encodable e.signalKey.value)
    (hcounts : printableInt e.prePointCount = true ∧ printableInt e.postPointCount = true) :
    (entryJson e).printable = true ∧ (entryJson e).Encodable := by
  constructor
  · have hc : (jsonOption Identity.candidatePayload e.candidate).printable = true := by
      refine printable_candidate fun c hc => ?_
      obtain ⟨-, hpre, hpost⟩ := Accepted.candidate_same h he hc
      rw [hpre, hpost]
      exact hcounts
    exact printable_jsonObj (by simp [hc, printable_hexJson, hcounts])
  · have hc : (jsonOption Identity.candidatePayload e.candidate).Encodable := by
      refine encodable_candidate fun c hc => ?_
      rw [(Accepted.candidate_same h he hc).1]
      exact hkey
    have hid := wellFormedId_encodable (h.entries e he).evidenceId
    exact encodable_jsonObj (by simp [hc, encodable_hexJson, hid, hkey])

/-- So it has a text. -/
theorem exists_entryJson [LawfulFloatHex F] (h : l.Accepted) {e : MetricShiftEvidence F}
    (he : e ∈ l.entries) (hkey : Encodable e.signalKey.value)
    (hcounts : printableInt e.prePointCount = true ∧ printableInt e.postPointCount = true) :
    ∃ s, metricEvidenceEntryJson e = .ok s := by
  obtain ⟨hprintable, hencodable⟩ := writable_entryJson h he hkey hcounts
  exact serialize_ok (entryPayload_eq_ok.mpr ⟨(h.entries e he).writable, rfl⟩) hprintable hencodable

omit [LawfulPyFloat F] [ExactPyFloat F] in
/-- The document of an accepted ledger can be written when its texts can be encoded and
    its integers printed. -/
theorem writable_ledgerDocument [LawfulFloatHex F] (h : l.Accepted)
    (htenant : Encodable l.tenantId.value) (hincident : Encodable l.incidentId.value)
    (hrun : Encodable l.runId.value) (hkeys : ∀ e ∈ l.entries, Encodable e.signalKey.value)
    (hpoints : printableInt l.policy.minimumPointsPerWindow = true)
    (hcount : printableInt l.decision.eligibleSignalCount = true)
    (hcounts : ∀ e ∈ l.entries,
      printableInt e.prePointCount = true ∧ printableInt e.postPointCount = true) :
    (ledgerDocument l).printable = true ∧ (ledgerDocument l).Encodable := by
  -- the candidates are among the entries' own
  have hcandidates : ∀ k ∈ l.decision.candidateSignalKeys, Encodable k.value := by
    intro k hk
    rw [h.decision.keys] at hk
    obtain ⟨c, hc, rfl⟩ := List.mem_map.mp hk
    obtain ⟨e, he, hec⟩ := mem_rankedCandidates.mp hc
    obtain ⟨entry, hentry, rfl⟩ := List.mem_map.mp he
    rw [(Accepted.candidate_same h hentry hec).1]
    exact hkeys entry hentry
  have hentry : ∀ e ∈ l.entries, (entryJson e).printable = true ∧ (entryJson e).Encodable :=
    fun e he => writable_entryJson h he (hkeys e he) (hcounts e he)
  constructor
  · exact printable_jsonObj (by
      simpa [printable_decisionPayload hcount, printable_policyPayload hpoints,
        printable_windowPayload] using fun e he => (hentry e he).1)
  · have hschema : Encodable l.schemaVersion := by
      rw [h.schemaVersion]
      exact encodable_str _
    exact encodable_jsonObj (by
      simpa [encodable_decisionPayload hcandidates, encodable_policyPayload,
        encodable_windowPayload, htenant, hincident, hrun, hschema] using
          fun e he => (hentry e he).2)

/-- **Accepted ledgers with one text are equal.** -/
theorem ledgerJson_inj [LawfulFloatHex F] {l' : MetricEvidenceLedger F} {s : Str} (h : l.Accepted)
    (h' : l'.Accepted) (hs : ledgerJson l = .ok s) (hs' : ledgerJson l' = .ok s) : l = l' := by
  obtain ⟨j, hj, -, rfl⟩ := serialize_text hs
  obtain ⟨j', hj', -, heq⟩ := serialize_text hs'
  obtain rfl := Except.ok.inj ((ledgerPayload_of_accepted h).symm.trans hj)
  obtain rfl := Except.ok.inj ((ledgerPayload_of_accepted h').symm.trans hj')
  exact ledgerDocument_inj h h' (dumps_inj (canonical_ledgerDocument l) (canonical_ledgerDocument l')
    (List.append_cancel_right heq))

/-- A ledger that has a text has a minimum of points with few enough digits. -/
theorem printable_of_ledgerJson {s : Str} (h : l.Accepted) (hs : ledgerJson l = .ok s) :
    printableInt l.policy.minimumPointsPerWindow = true := by
  obtain ⟨j, hj, hprint, -⟩ := serialize_text hs
  obtain rfl := Except.ok.inj ((ledgerPayload_of_accepted h).symm.trans hj)
  -- the policy is a member of the document, its minimum a member of the policy
  have hpolicy := printableFields_iff.mp hprint (str "policy", Identity.policyPayload l.policy)
    (by simp)
  exact printableFields_iff.mp hpolicy
    (str "minimum_points_per_window", .int l.policy.minimumPointsPerWindow) (by simp)

/-- **What the baseline computes has a ledger document.** -/
theorem exists_ledgerJson [LawfulFloatHex F] {tenant : TenantId} {incident : IncidentId}
    {run : RunId} {window : IncidentWindow} {inputs : List (SignalBaselineInput F)}
    {policy : BaselinePolicy F} {result : BaselineResult F}
    (htenant : TextIdentifier.Valid tenant ∧ Encodable tenant.value)
    (hincident : TextIdentifier.Valid incident ∧ Encodable incident.value)
    (hrun : TextIdentifier.Valid run ∧ Encodable run.value)
    (hwindow : window.Valid) (hpolicy : policy.Valid)
    (hkeys : ∀ item ∈ inputs, Encodable item.signal.key.value)
    (hsize : inputs.length ≤ maxsize) (hpoints : policy.minimumPointsPerWindow < 10 ^ maxStrDigits)
    (hrank : rankMetricShifts window inputs policy = .ok result) :
    ∃ ledger s, compileMetricShiftLedger tenant incident run window result = .ok ledger ∧
      ledgerJson ledger = .ok s := by
  obtain ⟨entries, hmap, -, hcompile⟩ := compile_rank htenant hincident hrun hwindow hpolicy
    hkeys hsize (fun _ => hpoints) hrank
  obtain ⟨hevals, -⟩ := rank_evaluations hrank
  obtain ⟨hvalid, -⟩ := compile_eq_ok hcompile
  obtain ⟨haccepted, -⟩ := validate_eq_ok.mp hvalid
  have hentry : ∀ e ∈ entries, ∃ item ∈ inputs, Evaluated window policy item e.evaluation := by
    intro e he
    exact hevals.evaluated _ (hmap ▸ List.mem_map_of_mem he)
  -- there are at most as many candidates as inputs, and no sequence is longer than `maxsize`
  have hcount : printableInt (rankedCandidates result.signalEvaluations).length = true := by
    have hlength : result.signalEvaluations.length = inputs.length := by
      simpa using hevals.keys.length_eq
    have hfilter : (result.signalEvaluations.filterMap (·.candidate)).length ≤
        result.signalEvaluations.length := List.length_filterMap_le _ _
    refine printableInt_of_lt (lt_of_le_of_lt ?_ maxsize_lt)
    simp only [rankedCandidates, length_sortedBy, Int.natAbs_natCast]
    omega
  obtain ⟨hprintable, hencodable⟩ := writable_ledgerDocument haccepted htenant.2 hincident.2 hrun.2
    (by
      intro e he
      obtain ⟨item, hitem, heval⟩ := hentry e he
      have hkey : e.signalKey = item.signal.key := heval.key
      rw [hkey]
      exact hkeys item hitem)
    (printableInt_of_nonneg (le_trans (by decide) hpolicy.points) hpoints) hcount
    (by
      intro e he
      obtain ⟨item, -, heval⟩ := hentry e he
      have hcounts := printable_counts heval
      exact hcounts)
  obtain ⟨s, hs⟩ := serialize_ok (ledgerPayload_of_accepted haccepted) hprintable hencodable
  exact ⟨_, s, hcompile, hs⟩

end metric

/-! ### Change documents -/

section change

/-- **The rendered order is the order of time.** -/
theorem timestamp_lt_iff {s t : Datetime} : timestamp s < timestamp t ↔ s < t := by
  rw [timestamp_eq, timestamp_eq, append_lt_append_iff (by simp [Datetime.naive]),
    Datetime.naive_lt_iff]
  simp

theorem renderedOrder_lt_iff {a b : ChangeEventEvidence} :
    renderedOrder a < renderedOrder b ↔ orderKey a.event < orderKey b.event := by
  simp only [renderedOrder, orderKey, Prod.Lex.toLex_lt_toLex, timestamp_lt_iff,
    timestamp_injective.eq_iff]
  rfl

/-- The document of an entry of a change ledger. -/
def changeEntryJson (e : ChangeEventEvidence) : Json :=
  jsonObj [
    ("event_key", .str e.eventKey.value),
    ("evidence_id", .str e.evidenceId.value),
    ("kind", .str e.kind.value),
    ("occurred_at", .str (timestamp e.occurredAt)),
    ("phase", .str e.phase.value)]

/-- The document of a change ledger. -/
def changeLedgerDocument (l : ChangeEventLedger) : Json :=
  jsonObj [
    ("entries", .arr (l.entries.map changeEntryJson)),
    ("incident_id", .str l.incidentId.value),
    ("incident_window", IncidentEvidence.windowPayload l.window),
    ("run_id", .str l.runId.value),
    ("schema_version", .str l.schemaVersion),
    ("tenant_id", .str l.tenantId.value)]

theorem changeEntryPayload_eq_ok {e : ChangeEventEvidence} {j : Json} :
    changeEntryPayload e = .ok j ↔
      (TextIdentifier.Valid e.eventKey ∧ wellFormedId e.evidenceId.value = true) ∧
        j = changeEntryJson e := by
  simp only [changeEntryPayload, bind_eq_ok, text_eq_ok, evidenceId_eq_ok, pure_eq_ok]
  constructor
  · rintro ⟨_, ⟨hkey, rfl⟩, _, ⟨hid, rfl⟩, rfl⟩
    exact ⟨⟨hkey, hid⟩, rfl⟩
  · rintro ⟨⟨hkey, hid⟩, rfl⟩
    exact ⟨_, ⟨hkey, rfl⟩, _, ⟨hid, rfl⟩, rfl⟩

theorem changeEntryJson_injective : Function.Injective changeEntryJson := by
  rintro ⟨⟨i⟩, ⟨k⟩, kind, t, phase⟩ ⟨⟨i'⟩, ⟨k'⟩, kind', t', phase'⟩ h
  simp only [changeEntryJson, jsonObj, List.map_cons, List.map_nil, Json.obj.injEq,
    List.cons.injEq, Prod.mk.injEq, Json.str.injEq, true_and, and_true] at h
  obtain ⟨rfl, rfl, hkind, htime, hphase⟩ := h
  rw [ChangeKind.value_injective hkind, timestamp_injective htime, ChangePhase.value_injective hphase]

theorem canonical_changeLedgerDocument (l : ChangeEventLedger) :
    (changeLedgerDocument l).Canonical := by
  have hentry : ∀ e, (changeEntryJson e).Canonical := fun e =>
    canonical_jsonObj (by simp only [List.map_cons, List.map_nil]; decide) (by simp)
  apply canonical_jsonObj (by simp only [List.map_cons, List.map_nil]; decide)
  simp [canonical_windowPayload, hentry]

/-- A document determines its change ledger. -/
theorem changeLedgerDocument_injective : Function.Injective changeLedgerDocument := by
  intro l l' h
  simp only [changeLedgerDocument, jsonObj, List.map_cons, List.map_nil, Json.obj.injEq,
    List.cons.injEq, Prod.mk.injEq, Json.str.injEq, Json.arr.injEq, true_and, and_true] at h
  obtain ⟨hentries, hincident, hwindow, hrun, hschema, htenant⟩ := h
  have h1 := List.map_injective_iff.mpr changeEntryJson_injective hentries
  have h2 := windowPayload_injective hwindow
  obtain ⟨_, ⟨t⟩, ⟨i⟩, ⟨r⟩, _⟩ := l
  obtain ⟨_, ⟨t'⟩, ⟨i'⟩, ⟨r'⟩, _⟩ := l'
  simp_all

variable [Sha256] {l : ChangeEventLedger}

theorem changeLedgerPayload_of_accepted (h : l.Accepted) :
    changeLedgerPayload l = .ok (changeLedgerDocument l) := by
  have hentries : changeEntriesPayload l.entries = .ok (l.entries.map changeEntryJson) := by
    have hmap : l.entries.mapM changeEntryPayload = .ok (l.entries.map changeEntryJson) :=
      (mapM_eq_ok_of fun _ _ _ => changeEntryPayload_eq_ok).mpr
        ⟨fun e he => ⟨h.keys e he, contentId_wellFormed (h.ids e he)⟩, rfl⟩
    simp only [changeEntriesPayload, bind_eq_ok, checkOrder_eq_ok, pure_eq_ok]
    refine ⟨_, hmap, (), ?_, rfl⟩
    -- the order of the rendered keys is the order the ledger was built in
    have hincreasing := List.pairwise_map.mp h.increasing
    exact List.pairwise_map.mpr (hincreasing.imp fun hab => renderedOrder_lt_iff.mpr hab)
  simp only [changeLedgerPayload, bind_eq_ok, replaceError_eq_ok, validateChange_eq_ok, text_eq_ok,
    require_eq_ok, windowPayload_eq_ok, pure_eq_ok]
  refine ⟨l, ⟨h, rfl⟩, _, ⟨?_, rfl⟩, (), h.schemaVersion, _, hentries, _, ⟨h.incident, rfl⟩, _,
    ⟨h.window, rfl⟩, _, ⟨h.run, rfl⟩, _, ⟨h.tenant, rfl⟩, rfl⟩
  rw [h.schemaVersion]
  decide

/-- **Accepted change ledgers with one text are equal.** -/
theorem changeLedgerJson_inj {l' : ChangeEventLedger} {s : Str} (h : l.Accepted) (h' : l'.Accepted)
    (hs : changeLedgerJson l = .ok s) (hs' : changeLedgerJson l' = .ok s) : l = l' := by
  obtain ⟨j, hj, -, rfl⟩ := serialize_text hs
  obtain ⟨j', hj', -, heq⟩ := serialize_text hs'
  obtain rfl := Except.ok.inj ((changeLedgerPayload_of_accepted h).symm.trans hj)
  obtain rfl := Except.ok.inj ((changeLedgerPayload_of_accepted h').symm.trans hj')
  exact changeLedgerDocument_injective (dumps_inj (canonical_changeLedgerDocument l)
    (canonical_changeLedgerDocument l') (List.append_cancel_right heq))

/-- The document of an accepted change ledger can be written when its texts can be
    encoded. -/
theorem writable_changeLedgerDocument (h : l.Accepted) (htenant : Encodable l.tenantId.value)
    (hincident : Encodable l.incidentId.value) (hrun : Encodable l.runId.value)
    (hkeys : ∀ e ∈ l.entries, Encodable e.eventKey.value) :
    (changeLedgerDocument l).printable = true ∧ (changeLedgerDocument l).Encodable := by
  have hschema : Encodable l.schemaVersion := by
    rw [h.schemaVersion]
    exact encodable_str _
  have hentry : ∀ e ∈ l.entries, (changeEntryJson e).Encodable := by
    intro e he
    have hid := wellFormedId_encodable (contentId_wellFormed (h.ids e he))
    have hkind : Encodable e.kind.value := by
      cases e.kind <;> exact encodable_str _
    have hphase : Encodable e.phase.value := by
      cases e.phase <;> exact encodable_str _
    exact encodable_jsonObj (by simp [hid, hkind, hphase, hkeys e he])
  constructor
  · have hprintable : ∀ e, (changeEntryJson e).printable = true := fun e =>
      printable_jsonObj (by simp)
    exact printable_jsonObj (by simp [hprintable, printable_windowPayload])
  · exact encodable_jsonObj (by
      simpa [encodable_windowPayload, htenant, hincident, hrun, hschema] using hentry)

/-- **An accepted log compiles, and its ledger has a document.** -/
theorem exists_changeLedgerJson {tenant : TenantId} {incident : IncidentId} {run : RunId}
    {window : IncidentWindow} {events : List ChangeEvent} {log : ChangeEventLog}
    (htenant : TextIdentifier.Valid tenant ∧ Encodable tenant.value)
    (hincident : TextIdentifier.Valid incident ∧ Encodable incident.value)
    (hrun : TextIdentifier.Valid run ∧ Encodable run.value) (hwindow : window.Valid)
    (hkeys : ∀ e ∈ events, TextIdentifier.Valid e.eventKey ∧ Encodable e.eventKey.value)
    (hlog : ChangeEventLog.construct events = .ok log) :
    ∃ ledger s, compileChangeEventLedger tenant incident run window log = .ok ledger ∧
      changeLedgerJson ledger = .ok s := by
  obtain ⟨ledger, hledger⟩ := exists_compileChange htenant hincident hrun hwindow hkeys hlog
  obtain ⟨haccepted, rfl, rfl, rfl, rfl, hmap⟩ := compileChange_eq_ok.mp hledger |>.2.2
  obtain ⟨-, -, rfl⟩ := construct_eq_ok.mp hlog
  obtain ⟨hprintable, hencodable⟩ := writable_changeLedgerDocument haccepted htenant.2 hincident.2
    hrun.2 (by
      intro e he
      have hevent : e.event ∈ events :=
        mem_sortedOn.mp (mem_sortedOn.mp (hmap ▸ List.mem_map_of_mem he))
      exact (hkeys e.event hevent).2)
  obtain ⟨s, hs⟩ := serialize_ok (changeLedgerPayload_of_accepted haccepted) hprintable hencodable
  exact ⟨ledger, s, hledger, hs⟩

end change

/-! ### Both documents -/

/-- **Ledger bytes are canonical and never refused**, when floats have one zero. For
    texts that UTF-8 can encode, and a minimum of points with few enough digits,
    what the baseline computes has a document, which does not depend on the order
    of the inputs; accepted ledgers with one document are equal. The same holds of
    change ledgers, and rendered timestamps are ordered as the instants. -/
theorem ledger_bytes_canonical {F : Type} [PyFloat F] [LawfulPyFloat F] [ExactPyFloat F]
    [FloatHex F] [LawfulFloatHex F] [Sha256] {tenant : TenantId} {incident : IncidentId}
    {run : RunId} {window : IncidentWindow}
    (htenant : TextIdentifier.Valid tenant ∧ Encodable tenant.value)
    (hincident : TextIdentifier.Valid incident ∧ Encodable incident.value)
    (hrun : TextIdentifier.Valid run ∧ Encodable run.value) (hwindow : window.Valid) :
    (∀ (inputs : List (SignalBaselineInput F)) (policy : BaselinePolicy F) result,
      policy.Valid → policy.minimumPointsPerWindow < 10 ^ maxStrDigits →
      (∀ item ∈ inputs, Encodable item.signal.key.value) → inputs.length ≤ maxsize →
      rankMetricShifts window inputs policy = .ok result →
      ∃ ledger s, rankAndCompile tenant incident run window inputs policy = .ok ledger ∧
        ledgerJson ledger = .ok s ∧ ∀ inputs', inputs'.Perm inputs →
          (rankAndCompile tenant incident run window inputs' policy >>= ledgerJson) = .ok s) ∧
    (∀ (l l' : MetricEvidenceLedger F) s, (∃ m, validateMetricEvidenceLedger l = .ok m) →
      (∃ m, validateMetricEvidenceLedger l' = .ok m) → ledgerJson l = .ok s →
      (ledgerJson l' = .ok s ↔ l = l')) ∧
    (∀ (events : List ChangeEvent) log,
      (∀ e ∈ events, TextIdentifier.Valid e.eventKey ∧ Encodable e.eventKey.value) →
      ChangeEventLog.construct events = .ok log →
      ∃ ledger s, compileChangeEventLedger tenant incident run window log = .ok ledger ∧
        changeLedgerJson ledger = .ok s ∧ ∀ events', events'.Perm events →
          (ChangeEventLog.construct events' >>=
            compileChangeEventLedger tenant incident run window >>= changeLedgerJson) = .ok s) ∧
    (∀ (l l' : ChangeEventLedger) s, (∃ m, validateChangeEventLedger l = .ok m) →
      (∃ m, validateChangeEventLedger l' = .ok m) → changeLedgerJson l = .ok s →
      (changeLedgerJson l' = .ok s ↔ l = l')) ∧
    ∀ a b : ChangeEventEvidence, renderedOrder a < renderedOrder b ↔
      orderKey a.event < orderKey b.event := by
  refine ⟨?_, ?_, ?_, ?_, fun a b => renderedOrder_lt_iff⟩
  · intro inputs policy result hpolicy hpoints hkeys hsize hrank
    obtain ⟨ledger, s, hcompile, hs⟩ := exists_ledgerJson htenant hincident hrun hwindow hpolicy
      hkeys hsize hpoints hrank
    -- the ranking sorts, so the ledger does not depend on the order
    have hledger : ∀ inputs', inputs'.Perm inputs →
        rankAndCompile tenant incident run window inputs' policy = .ok ledger := by
      intro inputs' hperm
      rw [rankAndCompile, rank_perm hperm hrank]
      exact hcompile
    refine ⟨ledger, s, hledger inputs (List.Perm.refl _), hs, ?_⟩
    intro inputs' hperm
    rw [hledger inputs' hperm]
    exact hs
  · intro l l' s h h' hs
    obtain ⟨_, h⟩ := h
    obtain ⟨_, h'⟩ := h'
    constructor
    · intro hs'
      exact ledgerJson_inj (validate_eq_ok.mp h).1 (validate_eq_ok.mp h').1 hs hs'
    · rintro rfl
      exact hs
  · intro events log hkeys hlog
    obtain ⟨ledger, s, hcompile, hs⟩ := exists_changeLedgerJson htenant hincident hrun hwindow hkeys
      hlog
    refine ⟨ledger, s, hcompile, hs, ?_⟩
    intro events' hperm
    -- the log sorts its events
    rw [log_perm hperm hlog]
    show (compileChangeEventLedger tenant incident run window log >>= changeLedgerJson) = .ok s
    rw [hcompile]
    exact hs
  · intro l l' s h h' hs
    obtain ⟨_, h⟩ := h
    obtain ⟨_, h'⟩ := h'
    constructor
    · intro hs'
      exact changeLedgerJson_inj (validateChange_eq_ok.mp h).1 (validateChange_eq_ok.mp h').1 hs hs'
    · rintro rfl
      exact hs

open Demo in
/-- The two signals of the small incident, in either order. -/
theorem ledger_bytes_canonical_demo : ∃ ledger s,
    rankAndCompile tenant incident run window [latency, errors] policy = .ok ledger ∧
    ledgerJson ledger = .ok s ∧
    (rankAndCompile tenant incident run window [errors, latency] policy >>= ledgerJson) = .ok s := by
  obtain ⟨result, hrank⟩ := exists_rank window [latency, errors] policy_ok (by decide)
  obtain ⟨ledger, s, hledger, hs, hperm⟩ := (ledger_bytes_canonical tenant_ok incident_ok run_ok
    (by decide)).1 [latency, errors] policy result policy_ok two_lt_limit keys_ok (by decide) hrank
  exact ⟨ledger, s, hledger, hs, hperm _ (List.Perm.swap _ _ _)⟩

open Demo in
/-- With 10^4300 as the minimum number of points and no signals there is a ledger, but it
    has no document. -/
theorem ledger_json_refuses_huge_minimum : ∃ ledger,
    rankAndCompile tenant incident run window []
      { policy with minimumPointsPerWindow := (10 ^ maxStrDigits : Nat) } = .ok ledger ∧
    ledgerJson ledger = .error .canonicalSerialization := by
  obtain ⟨huge, hhuge⟩ : ∃ p : BaselinePolicy ExactFloat,
      p = { policy with minimumPointsPerWindow := (10 ^ maxStrDigits : Nat) } := ⟨_, rfl⟩
  have hminimum : huge.minimumPointsPerWindow = (10 ^ maxStrDigits : Nat) := by rw [hhuge]
  have hpolicy : huge.Valid := by
    refine ⟨?_, by rw [hhuge]; exact policy_ok.score, by rw [hhuge]; exact policy_ok.margin,
      by rw [hhuge]; exact policy_ok.floor⟩
    rw [hminimum]
    exact Int.ofNat_le.mpr (Nat.one_le_pow _ _ (by decide))
  rw [← hhuge]
  obtain ⟨result, hrank⟩ := exists_rank window [] hpolicy (by decide)
  obtain ⟨entries, -, -, hcompile⟩ := compile_rank tenant_ok incident_ok run_ok (by decide) hpolicy
    (by simp) (by decide) (fun h => absurd rfl h) hrank
  obtain ⟨ledger, hledger, hpolicyEq⟩ : ∃ ledger,
      compileMetricShiftLedger tenant incident run window result = .ok ledger ∧
        ledger.policy = huge := ⟨_, hcompile, rfl⟩
  obtain ⟨haccepted, -⟩ := validate_eq_ok.mp (compile_eq_ok hledger).1
  refine ⟨ledger, by rw [rankAndCompile, hrank]; exact hledger, ?_⟩
  cases hjson : ledgerJson ledger with
  | error e =>
    simp only [ledgerJson, serialize, replaceError_eq_error] at hjson
    rw [hjson.2]
  | ok s =>
    have hprint := printable_of_ledgerJson haccepted hjson
    rw [hpolicyEq, hminimum] at hprint
    have hlt : ((10 ^ maxStrDigits : Nat) : Int).natAbs < 10 ^ maxStrDigits :=
      of_decide_eq_true hprint
    rw [Int.natAbs_natCast] at hlt
    exact absurd hlt (lt_irrefl _)

end IncidentEvidence
