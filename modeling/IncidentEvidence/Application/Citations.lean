import IncidentEvidence.Application.Archive
import IncidentEvidence.Application.Undisturbed
import IncidentEvidence.Domain.Evidence.Binding

/-! # Citations resolve

    A report cites evidence by id. The row under an id may have been written for
    another investigation of the same tenant and run, with other telemetry; as long
    as no two hashed messages collide it says what the ledger of the report says
    (`citations_resolve`).
-/

namespace IncidentEvidence

open Py PyFloat Runs

section citations
variable {F : Type}

/-- The ids a verification cites, of the document and of its predicates. -/
def citations (v : HypothesisVerificationResult F) : List EvidenceId :=
  v.supportingEvidenceIds ++ v.contradictingEvidenceIds ++
    v.predicateResults.flatMap fun r => r.supportingEvidenceIds ++ r.contradictingEvidenceIds

/-! ### What a verification cites -/

variable [PyFloat F]

/-- A predicate cites the entry it was evaluated on. -/
theorem cited_evaluatePredicate {p : MetricShiftPredicate} {entry : Option (MetricShiftEvidence F)}
    {minimumScore : F} {id : EvidenceId}
    (h : id ∈ (evaluatePredicate p entry minimumScore).supportingEvidenceIds ∨
      id ∈ (evaluatePredicate p entry minimumScore).contradictingEvidenceIds) :
    ∃ e, entry = some e ∧ e.evidenceId = id := by
  unfold evaluatePredicate at h
  split at h
  · simp [unknown] at h
  · next e =>
    refine ⟨e, rfl, ?_⟩
    split at h
    · simp [unknown] at h
    · simp [unknown] at h
    · split at h
      · simp [unknown] at h
      · dsimp only at h
        split at h
        · simp [unknown] at h
        · rcases h with h | h
          · exact (List.mem_singleton.mp (List.mem_ite_nil_right.mp h).2).symm
          · exact (List.mem_singleton.mp (List.mem_ite_nil_left.mp h).2).symm

omit [PyFloat F] in
/-- What a document cites, one of its predicates cites. -/
theorem citations_verifyDocument {d : HypothesisDocument} {gate : Option UnknownReason}
    {other : MetricShiftPredicate → UnknownReason → PredicateVerificationResult F}
    {evaluate : MetricShiftPredicate → PredicateVerificationResult F} {id : EvidenceId}
    (h : id ∈ citations (verifyDocument d gate other evaluate)) :
    ∃ r ∈ (verifyDocument d gate other evaluate).predicateResults,
      id ∈ r.supportingEvidenceIds ∨ id ∈ r.contradictingEvidenceIds := by
  rcases List.mem_append.mp h with h | h
  · rcases List.mem_append.mp h with h | h
    · obtain ⟨r, hr, hid⟩ := List.mem_flatMap.mp h
      exact ⟨r, hr, Or.inl hid⟩
    · obtain ⟨r, hr, hid⟩ := List.mem_flatMap.mp h
      exact ⟨r, hr, Or.inr hid⟩
  · obtain ⟨r, hr, hid⟩ := List.mem_flatMap.mp h
    exact ⟨r, hr, List.mem_append.mp hid⟩

variable [LawfulPyFloat F] [FloatHex F] [Sha256]

/-- **A verification cites entries of its ledger only.** -/
theorem cited_entry {d : HypothesisDocument} {l : MetricEvidenceLedger F}
    {v : HypothesisVerificationResult F} (h : verifyHypothesis d l = .ok v) {id : EvidenceId}
    (hid : id ∈ citations v) : ∃ e ∈ l.entries, e.evidenceId = id := by
  obtain ⟨-, rfl⟩ := verifyHypothesis_eq_ok.mp h
  obtain ⟨r, hr, hcited⟩ := citations_verifyDocument hid
  unfold verifyDocument at hr
  dsimp only at hr
  split at hr
  · -- a gated document cites nothing
    obtain ⟨p, -, rfl⟩ := List.mem_map.mp hr
    simp [unknown] at hcited
  · obtain ⟨p, -, rfl⟩ := List.mem_map.mp hr
    obtain ⟨e, he, rfl⟩ := cited_evaluatePredicate hcited
    obtain ⟨e', he', rfl⟩ := List.mem_map.mp (List.mem_reverse.mp (List.mem_of_find?_eq_some he))
    exact ⟨e', he', rfl⟩

/-! ### The rows of a ledger -/

/-- The messages hashed for the ledgers of the stored reports. -/
def Tracked.hashed (S : Tracked F) : Set (List UInt8) :=
  {m | ∃ k p, S.provenance.get? k = some p ∧ m ∈ p.ledger.messages}

omit [LawfulPyFloat F] [Sha256] in
theorem Tracked.messages_subset {S : Tracked F} {k : UUID} {p : Provenance F}
    (h : S.provenance.get? k = some p) : p.ledger.messages ⊆ S.hashed :=
  fun _ hm => ⟨k, p, h, hm⟩

variable [LawfulFloatHex F] {S : Tracked F}

/-- **The row of an entry of a ledger says what the entry says**, whoever wrote it: it was
    written for an investigation of the same incident and window. -/
theorem Archived.row (h : Archived S) (hfree : CollisionFree S.hashed) {k : UUID}
    {i : InvestigationRecord} {p : Provenance F} (hi : S.store.investigations.get? k = some i)
    (hp : S.provenance.get? k = some p) {e : MetricShiftEvidence F} (he : e ∈ p.ledger.entries) :
    ∃ row j now, S.store.evidence.get? (i.entryKey e) = some row ∧
      S.store.investigations.get? row.investigationId.value = some j ∧ RowOf j now e row ∧
      j.tenant = i.tenant ∧ j.run = i.run ∧ j.incident = i.incident ∧ j.window = i.window := by
  obtain ⟨row, hrow⟩ := h.stored k i p hi hp e he
  obtain ⟨j, q, e', now, hj, hq, he', hof⟩ := h.sourced _ row hrow
  obtain ⟨r, hr⟩ := h.reported k p hp
  obtain ⟨i', p', hi', hp', hgrounds⟩ := h.grounded k r hr
  obtain rfl := Option.some.inj (hi.symm.trans hi')
  obtain rfl := Option.some.inj (hp.symm.trans hp')
  obtain ⟨r', hr'⟩ := h.reported _ q hq
  obtain ⟨j', q', hj', hq', hgrounds'⟩ := h.grounded _ r' hr'
  obtain rfl := Option.some.inj (hj.symm.trans hj')
  obtain rfl := Option.some.inj (hq.symm.trans hq')
  have hkey : i.entryKey e = j.entryKey e' := (h.keyed _ row hrow).trans hof.key
  obtain ⟨htenant, hrun, hid⟩ := entryKey_inj hkey
  obtain ⟨hvalid, -, hincident, -, hwindow, -⟩ := compile_eq_ok hgrounds.compiled
  obtain ⟨hvalid', -, hincident', -, hwindow', -⟩ := compile_eq_ok hgrounds'.compiled
  obtain ⟨rfl, hinc, hwin⟩ := entry_eq_of_id hfree hvalid hvalid' (Tracked.messages_subset hp)
    (Tracked.messages_subset hq) he he' hid
  refine ⟨row, j, now, hrow, hj, hof, htenant.symm, hrun.symm, ?_, ?_⟩
  · rw [← hincident', ← hinc, hincident]
  · rw [← hwindow', ← hwin, hwindow]

end citations

/-! ### Stored reports -/

/-- **Every citation of a stored report resolves**, as long as the messages hashed for the
    stored reports do not collide: in every committed store of a run, each id a report cites
    is the id of an entry of its ledger, and the one row under the report's tenant and run and
    that id carries the entry's own JSON. The same holds of every entry of the ledger, cited
    or not. -/
theorem citations_resolve {F : Type} [PyFloat F] [LawfulPyFloat F] [FloatHex F] [LawfulFloatHex F]
    [Sha256] {s : Service F} (h : Reachable (Service.system F) s)
    (hfree : CollisionFree s.committed.hashed) {k : UUID} {r : ReportRecord}
    (hr : s.committed.store.reports.get? k = some r) :
    ∃ i p, s.committed.store.investigations.get? k = some i ∧
      s.committed.provenance.get? k = some p ∧ Grounds i p r ∧
      (∀ id ∈ citations p.verification, ∃ e ∈ p.ledger.entries, e.evidenceId = id) ∧
      ∀ e ∈ p.ledger.entries, ∃ row,
        s.committed.store.evidence.get? (r.tenant.value, r.run.value, e.evidenceId.value) = some row ∧
        row.tenant = r.tenant ∧ row.run = r.run ∧ row.evidenceId = e.evidenceId ∧
        metricEvidenceEntryJson e = .ok row.payload.1 := by
  obtain ⟨-, harchived⟩ := archived_reachable h
  obtain ⟨i, p, hi, hp, hgrounds⟩ := harchived.grounded k r hr
  refine ⟨i, p, hi, hp, hgrounds, fun id hid => cited_entry hgrounds.verified hid, ?_⟩
  intro e he
  obtain ⟨row, j, now, hrow, -, hof, htenant, hrun, -⟩ := harchived.row hfree hi hp he
  refine ⟨row, ?_, ?_, ?_, ?_, hof.1⟩
  · rw [hgrounds.tenant, hgrounds.run]
    exact hrow
  · rw [hof.2, hgrounds.tenant]
    exact htenant
  · rw [hof.2, hgrounds.run]
    exact hrun
  · rw [hof.2]

namespace Demo

/-- The ledger of the demonstration has one entry. -/
theorem length_entries {p : Prepared ExactFloat} {env : Environment ExactFloat}
    {i : InvestigationRecord} (hload : env.load = .returns [latency]) (h : p.Made worker env i) :
    p.ledger.entries.length = 1 := by
  obtain ⟨inputs, hinputs, hrank⟩ := h.ranked
  rw [hload] at hinputs
  obtain rfl := Outcome.returns.inj hinputs
  have hlength := (compiled_keys hrank h.compiled).length_eq
  simpa using hlength

theorem createdService_provenance (k : UUID) : createdService.committed.provenance.get? k = none := by
  obtain ⟨-, harchived⟩ := archived_reachable createdService_reachable
  have hempty : createdService.committed.store.reports.entries = [] := by decide +kernel
  cases hp : createdService.committed.provenance.get? k with
  | none => rfl
  | some p =>
    obtain ⟨r, hr⟩ := harchived.reported k p hp
    have hmem := Dict.get?_eq_some.mp hr
    rw [hempty] at hmem
    cases hmem

theorem succeededService_collisionFree : CollisionFree succeededService.committed.hashed := by
  obtain ⟨p, -, -, hmade, -, hprovenance⟩ := succeededService_step
  obtain ⟨e, he⟩ := List.length_eq_one_iff.mp (length_entries rfl hmade)
  have hone : ∀ m ∈ succeededService.committed.hashed,
      contentMessage Identity.idDomain (p.ledger.payload e.evaluation) = some m := by
    rintro m ⟨k, q, hq, e', he', hm⟩
    rw [hprovenance, Dict.get?_set] at hq
    split at hq
    · obtain rfl := Option.some.inj hq
      rw [he, List.mem_singleton] at he'
      rw [← he']
      exact hm
    · rw [createdService_provenance] at hq
      cases hq
  intro m hm m' hm' _
  exact Option.some.inj ((hone m hm).symm.trans (hone m' hm'))

end Demo

open Demo in
/-- The one report of the demonstration. -/
theorem citations_resolve_demo : ∃ r p,
    succeededService.committed.store.reports.get? ⟨1, by decide⟩ = some r ∧
    succeededService.committed.provenance.get? ⟨1, by decide⟩ = some p ∧
    ∀ id ∈ citations p.verification, ∃ row,
      succeededService.committed.store.evidence.get? (r.tenant.value, r.run.value, id.value) = some row := by
  obtain ⟨-, r, -, -, hr, -⟩ := succeededService_step
  obtain ⟨i, p, -, hp, -, hcited, hrows⟩ :=
    citations_resolve succeededService_reachable succeededService_collisionFree hr
  refine ⟨r, p, hr, hp, ?_⟩
  intro id hid
  obtain ⟨e, he, rfl⟩ := hcited id hid
  obtain ⟨row, hrow, -⟩ := hrows e he
  exact ⟨row, hrow⟩

end IncidentEvidence
