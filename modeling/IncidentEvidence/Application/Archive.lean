import IncidentEvidence.Application.Lifecycle
import IncidentEvidence.Persistence.Filed

/-! # The archive of evidence and reports

    Evidence rows are unique per tenant, run and evidence id, and a row that is
    there stays. So the rows a report rests on may have been written for another
    investigation. `Files` says what a call does to the two tables, and `Archived`
    is what holds of them in every committed store of a run: each report has the
    ledger it was verified against, each entry of such a ledger has a row, and each
    row is of an entry of such a ledger.
-/

namespace IncidentEvidence

open Py Py.Action Runs Serialization

/-! ### What a report rests on -/

/-- Rows of one investigation: what was asked is the same. -/
structure SameRequest (i i' : InvestigationRecord) : Prop where
  investigationId : i'.investigationId = i.investigationId
  tenant : i'.tenant = i.tenant
  incident : i'.incident = i.incident
  run : i'.run = i.run
  window : i'.window = i.window

theorem SameRequest.refl (i : InvestigationRecord) : SameRequest i i := ⟨rfl, rfl, rfl, rfl, rfl⟩

theorem SameRequest.trans {i i' i'' : InvestigationRecord} (h : SameRequest i i')
    (h' : SameRequest i' i'') : SameRequest i i'' :=
  ⟨h'.investigationId.trans h.investigationId, h'.tenant.trans h.tenant,
    h'.incident.trans h.incident, h'.run.trans h.run, h'.window.trans h.window⟩

/-- The investigations of one store are there in the other one. -/
def KeepsRequests (S S' : Store) : Prop :=
  ∀ k i, S.investigations.get? k = some i →
    ∃ i', S'.investigations.get? k = some i' ∧ SameRequest i i'

/-- Writing over one row of an investigation keeps what was asked. -/
theorem keepsRequests_set {S S' : Store} {k : UUID} {i i' : InvestigationRecord}
    (hget : S.investigations.get? k = some i) (hsame : SameRequest i i')
    (hset : S'.investigations = S.investigations.set k i') : KeepsRequests S S' := by
  intro k' x hx
  by_cases hk : k' = k
  · rw [hk, hget] at hx
    obtain rfl := Option.some.inj hx
    exact ⟨i', by rw [hset, hk, Dict.get?_set_self], hsame⟩
  · exact ⟨x, by rw [hset, Dict.get?_set_ne _ _ hk]; exact hx, SameRequest.refl x⟩

/-- An old row stays where it is. -/
theorem get?_appended_of_some {table : Dict EvidenceKey EvidenceRecord} {k : EvidenceKey}
    {row : EvidenceRecord} (h : table.get? k = some row) (rows : List EvidenceRecord) :
    (EvidenceRepository.appended table rows).get? k = some row := by
  rw [EvidenceRepository.get?_appended, h]
  rfl

section archive
variable {F : Type} [PyFloat F] [FloatHex F]

/-- A row of one investigation is a row of the other one. -/
theorem RowOf.of_same {i i' : InvestigationRecord} (h : SameRequest i i') {now : Datetime}
    {e : MetricShiftEvidence F} {row : EvidenceRecord} (hrow : RowOf i now e row) :
    RowOf i' now e row := by
  obtain ⟨hpayload, hrow⟩ := hrow
  refine ⟨hpayload, ?_⟩
  rw [h.tenant, h.investigationId, h.run]
  exact hrow

/-- Where the row of an entry is stored. -/
def InvestigationRecord.entryKey (i : InvestigationRecord) (e : MetricShiftEvidence F) : EvidenceKey :=
  (i.tenant.value, i.run.value, e.evidenceId.value)

omit [PyFloat F] [FloatHex F] in
theorem entryKey_inj {i j : InvestigationRecord} {e e' : MetricShiftEvidence F}
    (h : i.entryKey e = j.entryKey e') :
    i.tenant = j.tenant ∧ i.run = j.run ∧ e.evidenceId = e'.evidenceId := by
  simp only [InvestigationRecord.entryKey, Prod.mk.injEq] at h
  obtain ⟨htenant, hrun, hid⟩ := h
  exact ⟨congrArg TenantId.mk htenant, congrArg RunId.mk hrun, congrArg EvidenceId.mk hid⟩

theorem RowOf.key {i : InvestigationRecord} {now : Datetime} {e : MetricShiftEvidence F}
    {row : EvidenceRecord} (h : RowOf i now e row) : EvidenceRepository.key row = i.entryKey e := by
  rw [h.2]
  rfl

omit [PyFloat F] [FloatHex F] in
theorem entryKey_of_same {i i' : InvestigationRecord} (h : SameRequest i i')
    (e : MetricShiftEvidence F) : i'.entryKey e = i.entryKey e := by
  unfold InvestigationRecord.entryKey
  rw [h.tenant, h.run]

/-- Every entry has a row after its rows were appended. -/
theorem exists_appended {i : InvestigationRecord} {now : Datetime}
    {entries : List (MetricShiftEvidence F)} {rows : List EvidenceRecord}
    (h : List.Forall₂ (RowOf i now) entries rows) (table : Dict EvidenceKey EvidenceRecord)
    {e : MetricShiftEvidence F} (he : e ∈ entries) :
    ∃ row, (EvidenceRepository.appended table rows).get? (i.entryKey e) = some row := by
  rw [EvidenceRepository.get?_appended]
  cases hold : table.get? (i.entryKey e) with
  | some row => exact ⟨row, rfl⟩
  | none =>
    obtain ⟨n, hn, rfl⟩ := List.getElem_of_mem he
    have hn' : n < rows.length := h.length_eq ▸ hn
    have hkey := (h.get hn hn').key
    have hfound : (rows.find? fun r => EvidenceRepository.key r = i.entryKey entries[n]).isSome = true :=
      List.find?_isSome.mpr ⟨rows[n], List.getElem_mem hn', decide_eq_true hkey⟩
    exact Option.isSome_iff_exists.mp hfound

/-- A row after the appending was there, or it is new and the row of an entry. -/
theorem appended_cases {i : InvestigationRecord} {now : Datetime}
    {entries : List (MetricShiftEvidence F)} {rows : List EvidenceRecord}
    (h : List.Forall₂ (RowOf i now) entries rows) {table : Dict EvidenceKey EvidenceRecord}
    {k : EvidenceKey} {row : EvidenceRecord}
    (hget : (EvidenceRepository.appended table rows).get? k = some row) :
    table.get? k = some row ∨
      table.get? k = none ∧ ∃ e ∈ entries, RowOf i now e row ∧ k = i.entryKey e := by
  rw [EvidenceRepository.get?_appended] at hget
  cases hold : table.get? k with
  | some old =>
    rw [hold] at hget
    exact Or.inl hget
  | none =>
    rw [hold] at hget
    replace hget : rows.find? (fun r => EvidenceRepository.key r = k) = some row := hget
    have hkey := List.find?_some hget
    obtain ⟨n, hn, rfl⟩ := List.getElem_of_mem (List.mem_of_find?_eq_some hget)
    have hn' : n < entries.length := h.length_eq ▸ hn
    have hrow := h.get hn' hn
    exact Or.inr ⟨rfl, entries[n], List.getElem_mem hn', hrow, (of_decide_eq_true hkey).symm.trans hrow.key⟩

variable [Sha256]

/-- The report of an investigation and what it was made from. -/
structure Grounds (i : InvestigationRecord) (p : Provenance F) (r : ReportRecord) : Prop where
  investigationId : r.investigationId = i.investigationId
  tenant : r.tenant = i.tenant
  run : r.run = i.run
  ranked : ∃ policy inputs, rankMetricShifts i.window inputs policy = .ok p.baseline
  compiled : compileMetricShiftLedger i.tenant i.incident i.run i.window p.baseline = .ok p.ledger
  verified : verifyHypothesis p.document p.ledger = .ok p.verification
  payload : verificationJson p.verification = .ok r.payload.1
  baselinePayload : ∃ t, r.baselinePayload = some t ∧ baselineRankingJson p.baseline = .ok t.1

theorem Grounds.of_same {i i' : InvestigationRecord} (hsame : SameRequest i i') {p : Provenance F}
    {r : ReportRecord} (h : Grounds i p r) : Grounds i' p r := by
  obtain ⟨hid, htenant, hincident, hrun, hwindow⟩ := hsame
  refine ⟨?_, ?_, ?_, ?_, ?_, h.verified, h.payload, h.baselinePayload⟩
  · rw [hid, h.investigationId]
  · rw [htenant, h.tenant]
  · rw [hrun, h.run]
  · rw [hwindow]
    exact h.ranked
  · rw [htenant, hincident, hrun, hwindow]
    exact h.compiled

/-- What the stages made is what the report rests on. -/
theorem grounds_of_made {w : Worker F} {env : Environment F} {i : InvestigationRecord} {now : Datetime}
    {p : Prepared F} {r : ReportRecord} (hmade : p.Made w env i) (hreport : ReportOf i now p r) :
    Grounds i p.toProvenance r := by
  obtain ⟨hid, htenant, hrun, hpayload, hbaseline, -⟩ := hreport
  obtain ⟨inputs, -, hranked⟩ := hmade.ranked
  obtain ⟨t, ht, htext⟩ := Option.map_eq_some_iff.mp hbaseline
  refine ⟨hid, htenant, hrun, ⟨w.policy, inputs, hranked⟩, hmade.compiled, hmade.verified, ?_, t, ht, ?_⟩
  · rw [hpayload]
    exact hmade.report
  · rw [htext]
    exact hmade.baselineReport

/-! ### What a call does to the archive -/

/-- A call leaves the archive alone, or it files the report of one investigation and the rows
    of its ledger. -/
inductive Files (S T : Tracked F) : Prop where
  | nothing (hevidence : T.store.evidence = S.store.evidence)
      (hreports : T.store.reports = S.store.reports) (hprovenance : T.provenance = S.provenance) :
      Files S T
  | report (k : UUID) (i : InvestigationRecord) (p : Provenance F) (r : ReportRecord)
      (rows : List EvidenceRecord) (now : Datetime)
      (hfound : S.store.investigations.get? k = some i) (hid : i.investigationId.value = k)
      (hnone : S.store.reports.get? k = none) (hgrounds : Grounds i p r)
      (hrows : List.Forall₂ (RowOf i now) p.ledger.entries rows)
      (hevidence : T.store.evidence = EvidenceRepository.appended S.store.evidence rows)
      (hreports : T.store.reports = S.store.reports.set k r)
      (hprovenance : T.provenance = S.provenance.set k p) : Files S T

section calls
variable {w : Worker F} {env : Environment F} {S T : Tracked F} {drawn ids : List UUID}

/-- A call of the worker. -/
theorem files_of_effect (hlife : Lifecycle S.store drawn) (h : w.Effect env S true T ids) :
    Files S T ∧ KeepsRequests S.store T.store := by
  cases h with
  | orphaned c t hnone => exact ⟨.nothing rfl rfl rfl, fun k i hi => ⟨i, hi, SameRequest.refl i⟩⟩
  | cancelled c i t hfind hstatus =>
    exact ⟨.nothing rfl rfl rfl, fun k i hi => ⟨i, hi, SameRequest.refl i⟩⟩
  | succeeded c i p rows report t t' hfind hstatus hmade hrows hreport hnone hdup =>
    obtain ⟨hi, -⟩ := InvestigationRepository.find?_eq_some.mp hfind
    have hkey : c.job.investigationId.value = i.investigationId.value :=
      hlife.investigationsKeyed _ _ hi
    rw [hkey] at hi
    refine ⟨.report i.investigationId.value i p.toProvenance report rows (env.clock 2) hi rfl hnone
      (grounds_of_made hmade hreport) hrows rfl rfl rfl, ?_⟩
    exact keepsRequests_set hi (⟨rfl, rfl, rfl, rfl, rfl⟩ : SameRequest i (i.withStatus .succeeded t)) rfl
  | failed c i e n store code t t' hfind hstatus hends hexception hterminal hcode hdup =>
    obtain ⟨-, -, -, -, -, -, -, hunreported⟩ := c.alive hlife
    obtain ⟨hi, -⟩ := InvestigationRepository.find?_eq_some.mp hfind
    have hkey : c.job.investigationId.value = i.investigationId.value :=
      hlife.investigationsKeyed _ _ hi
    cases hends with
    | early _ hprepare =>
      refine ⟨.nothing rfl rfl rfl, ?_⟩
      exact keepsRequests_set hi (⟨rfl, rfl, rfl, rfl, rfl⟩ : SameRequest i (i.withStatus .failed t)) rfl
    | conflict p rows hmade hrows hreport =>
      -- a job that waits has no report
      rw [← hkey, hunreported] at hreport
      cases hreport
  | retried c i code t t' hfind hstatus hprepare hleft hdup =>
    obtain ⟨hi, -⟩ := InvestigationRepository.find?_eq_some.mp hfind
    refine ⟨.nothing rfl rfl rfl, ?_⟩
    exact keepsRequests_set hi (⟨rfl, rfl, rfl, rfl, rfl⟩ : SameRequest i (i.withStatus .running t)) rfl

variable [LawfulPyFloat F]

omit [LawfulPyFloat F] in
/-- **What a call does to the archive.** -/
theorem files_of_commits {c : Call F} (hlife : Lifecycle S.store drawn) (h : Commits S c T ids) :
    Files S T ∧ KeepsRequests S.store T.store := by
  cases h with
  | nothing => exact ⟨.nothing rfl rfl rfl, fun k i hi => ⟨i, hi, SameRequest.refl i⟩⟩
  | created call env id _ _ heffect =>
    rcases created_of_effect hlife heffect with rfl | ⟨record, job, -, hnew, -, rfl⟩
    · exact ⟨.nothing rfl rfl rfl, fun k i hi => ⟨i, hi, SameRequest.refl i⟩⟩
    · refine ⟨.nothing rfl rfl rfl, ?_⟩
      intro k i hi
      refine ⟨i, ?_, SameRequest.refl i⟩
      show (S.store.investigations.set record.investigationId.value record).get? k = some i
      rw [Dict.get?_set_ne, hi]
      rintro rfl
      rw [hnew] at hi
      cases hi
  | ran worker env r _ _ heffect =>
    cases r with
    | false =>
      obtain rfl := eq_of_effect_false heffect
      exact ⟨.nothing rfl rfl rfl, fun k i hi => ⟨i, hi, SameRequest.refl i⟩⟩
    | true => exact files_of_effect hlife heffect

theorem files_of_step {s s' : Service F} {c : Call F} (hlife : Lifecycle s.committed.store s.drawn)
    (hstep : Service.step s c s') :
    Files s.committed s'.committed ∧ KeepsRequests s.committed.store s'.committed.store := by
  obtain ⟨ids, -, -, hcommits⟩ :=
    commits_of_step hlife.investigationsKeyed hlife.investigationsDrawn hstep
  exact files_of_commits hlife hcommits

end calls

/-! ### The invariant -/

/-- The evidence, the reports and what they were made from fit together. -/
structure Archived (S : Tracked F) : Prop where
  keyed : S.store.evidence.Keyed EvidenceRepository.key
  grounded : ∀ k r, S.store.reports.get? k = some r → ∃ i p, S.store.investigations.get? k = some i ∧
    S.provenance.get? k = some p ∧ Grounds i p r
  reported : ∀ k p, S.provenance.get? k = some p → ∃ r, S.store.reports.get? k = some r
  stored : ∀ k i p, S.store.investigations.get? k = some i → S.provenance.get? k = some p →
    ∀ e ∈ p.ledger.entries, ∃ row, S.store.evidence.get? (i.entryKey e) = some row
  sourced : ∀ k row, S.store.evidence.get? k = some row → ∃ i p e now,
    S.store.investigations.get? row.investigationId.value = some i ∧
    S.provenance.get? row.investigationId.value = some p ∧ e ∈ p.ledger.entries ∧ RowOf i now e row

theorem archived_empty : Archived (Tracked.empty (F := F)) := by
  constructor
  · exact Dict.keyed_empty _
  all_goals
    intros
    simp_all [Tracked.empty, Store.empty]

section step
variable {S T : Tracked F}

/-- **A call keeps the archive in order.** -/
theorem Archived.files (h : Archived S) (hfiles : Files S T) (hkeeps : KeepsRequests S.store T.store) :
    Archived T := by
  cases hfiles with
  | nothing hevidence hreports hprovenance =>
    refine ⟨?_, ?_, ?_, ?_, ?_⟩
    · rw [hevidence]
      exact h.keyed
    · intro k r hr
      rw [hreports] at hr
      obtain ⟨i, p, hi, hp, hgrounds⟩ := h.grounded k r hr
      obtain ⟨i', hi', hsame⟩ := hkeeps k i hi
      exact ⟨i', p, hi', by rw [hprovenance]; exact hp, hgrounds.of_same hsame⟩
    · intro k p hp
      rw [hprovenance] at hp
      rw [hreports]
      exact h.reported k p hp
    · intro k i' p hi' hp e he
      rw [hprovenance] at hp
      obtain ⟨r, hr⟩ := h.reported k p hp
      obtain ⟨i, p', hi, -⟩ := h.grounded k r hr
      obtain ⟨i'', hi'', hsame⟩ := hkeeps k i hi
      obtain rfl := Option.some.inj (hi'.symm.trans hi'')
      rw [hevidence, entryKey_of_same hsame]
      exact h.stored k i p hi hp e he
    · intro k row hrow
      rw [hevidence] at hrow
      obtain ⟨i, p, e, now, hi, hp, he, hof⟩ := h.sourced k row hrow
      obtain ⟨i', hi', hsame⟩ := hkeeps _ i hi
      exact ⟨i', p, e, now, hi', by rw [hprovenance]; exact hp, he, hof.of_same hsame⟩
  | report k₀ i₀ p₀ r₀ rows now hfound hid hnone hgrounds hrows hevidence hreports hprovenance =>
    obtain ⟨i₁, hi₁, hsame₀⟩ := hkeeps k₀ i₀ hfound
    refine ⟨?_, ?_, ?_, ?_, ?_⟩
    · rw [hevidence]
      exact keyed_appended h.keyed
    · intro k r hr
      by_cases hk : k = k₀
      · rw [hreports, hk, Dict.get?_set_self] at hr
        obtain rfl := Option.some.inj hr
        exact ⟨i₁, p₀, by rw [hk]; exact hi₁, by rw [hprovenance, hk, Dict.get?_set_self],
          hgrounds.of_same hsame₀⟩
      · rw [hreports, Dict.get?_set_ne _ _ hk] at hr
        obtain ⟨i, p, hi, hp, hof⟩ := h.grounded k r hr
        obtain ⟨i', hi', hsame⟩ := hkeeps k i hi
        exact ⟨i', p, hi', by rw [hprovenance, Dict.get?_set_ne _ _ hk]; exact hp, hof.of_same hsame⟩
    · intro k p hp
      by_cases hk : k = k₀
      · exact ⟨r₀, by rw [hreports, hk, Dict.get?_set_self]⟩
      · rw [hprovenance, Dict.get?_set_ne _ _ hk] at hp
        rw [hreports, Dict.get?_set_ne _ _ hk]
        exact h.reported k p hp
    · intro k i' p hi' hp e he
      rw [hevidence]
      by_cases hk : k = k₀
      · rw [hprovenance, hk, Dict.get?_set_self] at hp
        obtain rfl := Option.some.inj hp
        rw [hk, hi₁] at hi'
        obtain rfl := Option.some.inj hi'
        rw [entryKey_of_same hsame₀]
        exact exists_appended hrows _ he
      · rw [hprovenance, Dict.get?_set_ne _ _ hk] at hp
        obtain ⟨r, hr⟩ := h.reported k p hp
        obtain ⟨i, p', hi, -⟩ := h.grounded k r hr
        obtain ⟨i'', hi'', hsame⟩ := hkeeps k i hi
        obtain rfl := Option.some.inj (hi'.symm.trans hi'')
        obtain ⟨row, hrow⟩ := h.stored k i p hi hp e he
        rw [entryKey_of_same hsame]
        exact ⟨row, get?_appended_of_some hrow rows⟩
    · intro k row hrow
      rw [hevidence] at hrow
      rcases appended_cases hrows hrow with hold | ⟨-, e, he, hof, -⟩
      · -- rows of another investigation: this one had no report
        obtain ⟨i, p, e, now', hi, hp, he, hof⟩ := h.sourced k row hold
        obtain ⟨i', hi', hsame⟩ := hkeeps _ i hi
        refine ⟨i', p, e, now', hi', ?_, he, hof.of_same hsame⟩
        rw [hprovenance, Dict.get?_set_ne, hp]
        intro heq
        obtain ⟨r, hr⟩ := h.reported _ p hp
        rw [heq, hnone] at hr
        cases hr
      · have hrowId : row.investigationId.value = k₀ := by
          rw [hof.2]
          exact hid
        exact ⟨i₁, p₀, e, now, by rw [hrowId]; exact hi₁,
          by rw [hprovenance, hrowId, Dict.get?_set_self], he, hof.of_same hsame₀⟩

end step

variable [LawfulPyFloat F]

theorem archived_step {s s' : Service F} {c : Call F} (hlife : Lifecycle s.committed.store s.drawn)
    (h : Archived s.committed) (hstep : Service.step s c s') : Archived s'.committed := by
  obtain ⟨hfiles, hkeeps⟩ := files_of_step hlife hstep
  exact h.files hfiles hkeeps

/-- **The archive is in order in every committed store of a run.** -/
theorem archived_reachable {s : Service F} (h : Reachable (Service.system F) s) :
    Lifecycle s.committed.store s.drawn ∧ Archived s.committed :=
  h.invariant (P := fun s => Lifecycle s.committed.store s.drawn ∧ Archived s.committed)
    (fun s (hinit : (Service.system F).init s) => by
      obtain rfl : s = ⟨Tracked.empty, []⟩ := hinit
      exact ⟨lifecycle_empty, archived_empty⟩)
    fun _ _ _ hs hstep => ⟨lifecycle_step hs.1 hstep, archived_step hs.1 hs.2 hstep⟩

omit [LawfulPyFloat F] in
/-- An investigation that has succeeded has a report. -/
theorem Archived.of_succeeded {S : Tracked F} {drawn : List UUID} (h : Archived S)
    (hlife : Lifecycle S.store drawn) {k : UUID} {i : InvestigationRecord}
    (hi : S.store.investigations.get? k = some i) (hstatus : i.status = .succeeded) :
    ∃ p r, S.provenance.get? k = some p ∧ S.store.reports.get? k = some r ∧ Grounds i p r := by
  obtain ⟨_, j, hj, hji⟩ := hlife.job k i hi
  obtain ⟨i', hi', -, hphase⟩ := hlife.phase _ j hj
  have hkey : k = i.investigationId.value := hlife.investigationsKeyed k i hi
  rw [hji, ← hkey] at hi' hphase
  obtain rfl := Option.some.inj (hi.symm.trans hi')
  rw [hstatus] at hphase
  obtain ⟨r, hr⟩ : ∃ r, S.store.reports.get? k = some r := by
    generalize j.status = status, j.attemptCount = n, S.store.reports.get? k = o at hphase ⊢
    cases hphase with
    | succeeded n r => exact ⟨r, rfl⟩
  obtain ⟨i', p, hi', hp, hgrounds⟩ := h.grounded k r hr
  obtain rfl := Option.some.inj (hi.symm.trans hi')
  exact ⟨p, r, hp, hr, hgrounds⟩

end archive

end IncidentEvidence
