import IncidentEvidence.Application.Citations

/-! # Listing the evidence of an investigation

    `list_for_investigation` returns the rows that carry an investigation's id. An
    entry whose row is there already keeps the older row, so the listing has
    exactly the entries of the ledger that no earlier investigation of the same
    tenant and run had stored (`evidence_listing`).
-/

namespace IncidentEvidence

open Py Py.Action Runs

section listing
variable {F : Type} [PyFloat F] [FloatHex F]

/-- The entry of an investigation has a row. -/
def Stored (S : Store) (i : InvestigationRecord) (e : MetricShiftEvidence F) : Prop :=
  (S.evidence.get? (i.entryKey e)).isSome = true

/-- What is listed for an investigation whose report was filed over the store `before`. -/
structure Listing (before after : Store) (i : InvestigationRecord) (p : Provenance F) : Prop where
  increasing : (EvidenceRepository.listForInvestigation after i.tenant i.investigationId).Pairwise
    fun a b => a.evidenceId.value < b.evidenceId.value
  rows : ∀ row ∈ EvidenceRepository.listForInvestigation after i.tenant i.investigationId,
    ∃ e ∈ p.ledger.entries, ¬ Stored before i e ∧ ∃ now, RowOf i now e row
  complete : ∀ e ∈ p.ledger.entries, ¬ Stored before i e →
    ∃ row ∈ EvidenceRepository.listForInvestigation after i.tenant i.investigationId,
      row.evidenceId = e.evidenceId
  earlier : ∀ e ∈ p.ledger.entries, Stored before i e → ∃ row j,
    before.evidence.get? (i.entryKey e) = some row ∧ after.evidence.get? (i.entryKey e) = some row ∧
    row.evidenceId = e.evidenceId ∧
    row ∈ EvidenceRepository.listForInvestigation after j.tenant j.investigationId ∧
    after.investigations.get? row.investigationId.value = some j ∧ j.status = .succeeded ∧
    row.investigationId ≠ i.investigationId ∧ j.tenant = i.tenant ∧ j.run = i.run

/-! ### Rows of an investigation -/

section rows
variable [Sha256] {S T : Tracked F} {drawn : List UUID}

omit [PyFloat F] [FloatHex F] [Sha256] in
theorem mem_listForInvestigation {S : Store} (hkeyed : S.evidence.Keyed EvidenceRepository.key)
    {tenant : TenantId} {id : InvestigationId} {row : EvidenceRecord} :
    row ∈ EvidenceRepository.listForInvestigation S tenant id ↔
      S.evidence.get? (EvidenceRepository.key row) = some row ∧ row.tenant = tenant ∧
        row.investigationId = id := by
  unfold EvidenceRepository.listForInvestigation
  rw [mem_sortedOn, List.mem_filter, decide_eq_true_iff, Dict.mem_values]
  constructor
  · rintro ⟨⟨k, hk⟩, hof⟩
    rw [← hkeyed k row hk]
    exact ⟨hk, hof⟩
  · rintro ⟨hget, hof⟩
    exact ⟨⟨_, hget⟩, hof⟩

/-- The rows of an investigation are of its run. -/
theorem Archived.row_run (h : Archived S) {k : EvidenceKey}
    {row : EvidenceRecord} (hrow : S.store.evidence.get? k = some row) {i : InvestigationRecord}
    (hi : S.store.investigations.get? row.investigationId.value = some i) : row.run = i.run := by
  obtain ⟨i', p, e, now, hi', hp, he, hof⟩ := h.sourced k row hrow
  obtain rfl := Option.some.inj (hi.symm.trans hi')
  rw [hof.2]

/-- A listing has each id once, in increasing order. -/
theorem Archived.increasing (h : Archived S) {tenant : TenantId}
    {id : InvestigationId} :
    (EvidenceRepository.listForInvestigation S.store tenant id).Pairwise
      fun a b => a.evidenceId.value < b.evidenceId.value := by
  apply strict_sortedOn
  apply List.Nodup.map_on _ (h.keyed.nodup_values.filter _)
  intro a ha b hb hid
  obtain ⟨ha, haOf⟩ := List.mem_filter.mp ha
  obtain ⟨hb, hbOf⟩ := List.mem_filter.mp hb
  obtain ⟨haTenant, haId⟩ := of_decide_eq_true haOf
  obtain ⟨hbTenant, hbId⟩ := of_decide_eq_true hbOf
  obtain ⟨k, hk⟩ := Dict.mem_values.mp ha
  obtain ⟨k', hk'⟩ := Dict.mem_values.mp hb
  obtain ⟨i, -, -, -, hi, -⟩ := h.sourced k a hk
  have hi' : S.store.investigations.get? b.investigationId.value = some i := by
    rw [hbId, ← haId]
    exact hi
  have hrun : a.run = b.run := (h.row_run hk hi).trans (h.row_run hk' hi').symm
  have hkeys : k = k' := by
    rw [h.keyed k a hk, h.keyed k' b hk']
    unfold EvidenceRepository.key
    rw [haTenant, hbTenant, hrun, hid]
  rw [hkeys] at hk
  exact Option.some.inj (hk.symm.trans hk')

/-- A row carries the id of an investigation with a report. -/
theorem Archived.source_reported (h : Archived S) {k : EvidenceKey} {row : EvidenceRecord}
    (hrow : S.store.evidence.get? k = some row) :
    ∃ r, S.store.reports.get? row.investigationId.value = some r := by
  obtain ⟨i, p, e, now, hi, hp, he, hof⟩ := h.sourced k row hrow
  exact h.reported _ p hp

omit [PyFloat F] [FloatHex F] [Sha256] in
/-- An investigation with a report has succeeded. -/
theorem succeeded_of_report (hlife : Lifecycle S.store drawn) {k : UUID} {i : InvestigationRecord}
    {r : ReportRecord} (hi : S.store.investigations.get? k = some i)
    (hr : S.store.reports.get? k = some r) : i.status = .succeeded := by
  obtain ⟨_, j, hj, hji⟩ := hlife.job k i hi
  obtain ⟨i', hi', -, hphase⟩ := hlife.phase _ j hj
  have hkey : k = i.investigationId.value := hlife.investigationsKeyed k i hi
  rw [hji, ← hkey] at hi' hphase
  obtain rfl := Option.some.inj (hi.symm.trans hi')
  rw [hr] at hphase
  generalize i.status = status, j.status = status', j.attemptCount = n at hphase ⊢
  cases hphase with
  | succeeded => rfl

/-! ### Later calls -/

/-- How a store has gone on with an investigation whose report is filed. -/
structure KeepsFiled (S T : Tracked F) (k : UUID) : Prop where
  report : T.store.reports.get? k = S.store.reports.get? k
  provenance : T.provenance.get? k = S.provenance.get? k
  kept : ∀ key row, S.store.evidence.get? key = some row → T.store.evidence.get? key = some row
  added : ∀ key row, T.store.evidence.get? key = some row → row.investigationId.value = k →
    S.store.evidence.get? key = some row

omit [PyFloat F] [FloatHex F] [Sha256] in
theorem KeepsFiled.refl (S : Tracked F) (k : UUID) : KeepsFiled S S k :=
  ⟨rfl, rfl, fun _ _ h => h, fun _ _ h _ => h⟩

omit [PyFloat F] [FloatHex F] [Sha256] in
theorem KeepsFiled.trans {S T U : Tracked F} {k : UUID} (h : KeepsFiled S T k)
    (h' : KeepsFiled T U k) : KeepsFiled S U k where
  report := h'.report.trans h.report
  provenance := h'.provenance.trans h.provenance
  kept key row hrow := h'.kept key row (h.kept key row hrow)
  added key row hrow hid := h.added key row (h'.added key row hrow hid) hid

/-- A later call adds no row to an investigation whose report is filed. -/
theorem filed_of_files (hfiles : Files S T) {k : UUID} {r : ReportRecord}
    (hr : S.store.reports.get? k = some r) : KeepsFiled S T k := by
  cases hfiles with
  | nothing hevidence hreports hprovenance =>
    refine ⟨by rw [hreports], by rw [hprovenance], ?_, ?_⟩
    · intro key row hrow
      rw [hevidence]
      exact hrow
    · intro key row hrow _
      rw [hevidence] at hrow
      exact hrow
  | report k₀ i₀ p₀ r₀ rows now hfound hid hnone hgrounds hrows hevidence hreports hprovenance =>
    have hne : k ≠ k₀ := by
      rintro rfl
      rw [hr] at hnone
      cases hnone
    refine ⟨by rw [hreports, Dict.get?_set_ne _ _ hne], by rw [hprovenance, Dict.get?_set_ne _ _ hne],
      ?_, ?_⟩
    · intro key row hrow
      rw [hevidence]
      exact get?_appended_of_some hrow rows
    · intro key row hrow hrowId
      rw [hevidence] at hrow
      rcases appended_cases hrows hrow with hold | ⟨-, e, he, hof, -⟩
      · exact hold
      · rw [hof.2] at hrowId
        exact absurd (hrowId.symm.trans hid) hne

variable [LawfulPyFloat F]

/-- And neither does a run. -/
theorem filed_run {s s' : Service F} {cs : List (Call F)} (hlife : Lifecycle s.committed.store s.drawn)
    (hrun : Run (Service.system F) s cs s') {k : UUID} {r : ReportRecord}
    (hr : s.committed.store.reports.get? k = some r) : KeepsFiled s.committed s'.committed k := by
  induction hrun with
  | nil => exact KeepsFiled.refl _ _
  | cons hstep hrest ih =>
    have hone := filed_of_files (files_of_step hlife hstep).1 hr
    exact hone.trans (ih (lifecycle_step hlife hstep) (hone.report.trans hr))

end rows

/-! ### The listing -/

variable [Sha256] [LawfulPyFloat F]

/-- Rows keep what was asked along a run. -/
theorem keepsRequests_run {s s' : Service F} {cs : List (Call F)}
    (hlife : Lifecycle s.committed.store s.drawn) (hrun : Run (Service.system F) s cs s') :
    KeepsRequests s.committed.store s'.committed.store := by
  induction hrun with
  | nil => exact fun k i hi => ⟨i, hi, SameRequest.refl i⟩
  | cons hstep hrest ih =>
    intro k i hi
    obtain ⟨i', hi', hsame⟩ := (files_of_step hlife hstep).2 k i hi
    obtain ⟨i'', hi'', hsame'⟩ := ih (lifecycle_step hlife hstep) k i' hi'
    exact ⟨i'', hi'', hsame.trans hsame'⟩

/-- A report was filed over `S` for the investigation, together with the rows of its ledger, and
    calls have gone on to `U`. -/
structure Filing (S U : Tracked F) (i : InvestigationRecord) (p : Provenance F)
    (rows : List EvidenceRecord) (now : Datetime) : Prop where
  unreported : S.store.reports.get? i.investigationId.value = none
  made : List.Forall₂ (RowOf i now) p.ledger.entries rows
  kept : ∀ key row, (EvidenceRepository.appended S.store.evidence rows).get? key = some row →
    U.store.evidence.get? key = some row
  added : ∀ key row, U.store.evidence.get? key = some row → row.investigationId = i.investigationId →
    (EvidenceRepository.appended S.store.evidence rows).get? key = some row
  requests : KeepsRequests S.store U.store
  reports : ∀ k r, S.store.reports.get? k = some r → U.store.reports.get? k = some r

section filing
variable {S U : Tracked F} {i : InvestigationRecord} {p : Provenance F} {rows : List EvidenceRecord}
  {now : Datetime} {e : MetricShiftEvidence F} {drawn : List UUID}

omit [LawfulPyFloat F] in
theorem Filing.listed (h : Filing S U i p rows now) (hS : Archived S) (hU : Archived U)
    {row : EvidenceRecord}
    (hrow : row ∈ EvidenceRepository.listForInvestigation U.store i.tenant i.investigationId) :
    ∃ e ∈ p.ledger.entries, ¬ Stored S.store i e ∧ ∃ now, RowOf i now e row := by
  obtain ⟨hget, -, hid⟩ := (mem_listForInvestigation hU.keyed).mp hrow
  rcases appended_cases h.made (h.added _ row hget hid) with hold | ⟨hnew, e, he, hof, hkey⟩
  · -- an older row is of an investigation with a report
    obtain ⟨r, hr⟩ := hS.source_reported hold
    rw [hid, h.unreported] at hr
    cases hr
  · refine ⟨e, he, ?_, now, hof⟩
    unfold Stored
    rw [← hkey, hnew]
    exact Bool.false_ne_true

omit [LawfulPyFloat F] in
theorem Filing.complete (h : Filing S U i p rows now) (hU : Archived U) (he : e ∈ p.ledger.entries)
    (hnew : ¬ Stored S.store i e) :
    ∃ row ∈ EvidenceRepository.listForInvestigation U.store i.tenant i.investigationId,
      row.evidenceId = e.evidenceId := by
  obtain ⟨row, hrow⟩ := exists_appended h.made S.store.evidence he
  rcases appended_cases h.made hrow with hold | ⟨-, e', he', hof, hkey⟩
  · exact absurd (Option.isSome_iff_exists.mpr ⟨row, hold⟩) hnew
  · have hrowU := h.kept _ row hrow
    refine ⟨row, (mem_listForInvestigation hU.keyed).mpr ⟨?_, ?_, ?_⟩, ?_⟩
    · rw [← hU.keyed _ row hrowU]
      exact hrowU
    · rw [hof.2]
    · rw [hof.2]
    · rw [hof.2]
      exact (entryKey_inj hkey).2.2.symm

omit [LawfulPyFloat F] in
theorem Filing.earlier (h : Filing S U i p rows now) (hS : Archived S) (hU : Archived U)
    (hlife : Lifecycle U.store drawn) (hold : Stored S.store i e) : ∃ row j,
    S.store.evidence.get? (i.entryKey e) = some row ∧ U.store.evidence.get? (i.entryKey e) = some row ∧
    row.evidenceId = e.evidenceId ∧
    row ∈ EvidenceRepository.listForInvestigation U.store j.tenant j.investigationId ∧
    U.store.investigations.get? row.investigationId.value = some j ∧ j.status = .succeeded ∧
    row.investigationId ≠ i.investigationId ∧ j.tenant = i.tenant ∧ j.run = i.run := by
  obtain ⟨row, hrow⟩ := Option.isSome_iff_exists.mp hold
  -- the row is one of an investigation that had its report already
  obtain ⟨j, q, e', now', hj, hq, he', hof⟩ := hS.sourced _ row hrow
  obtain ⟨r, hr⟩ := hS.source_reported hrow
  obtain ⟨j', hj', hsame⟩ := h.requests _ j hj
  have hkey : i.entryKey e = j.entryKey e' := (hS.keyed _ row hrow).trans hof.key
  obtain ⟨htenant, hrun, hid⟩ := entryKey_inj hkey
  have hrowU := h.kept _ row (get?_appended_of_some hrow rows)
  refine ⟨row, j', hrow, hrowU, ?_, (mem_listForInvestigation hU.keyed).mpr ⟨?_, ?_, ?_⟩, hj',
    succeeded_of_report hlife hj' (h.reports _ r hr), ?_, ?_, ?_⟩
  · rw [hof.2]
    exact hid.symm
  · rw [← hU.keyed _ row hrowU]
    exact hrowU
  · rw [hof.2]
    exact hsame.tenant.symm
  · rw [hof.2]
    exact hsame.investigationId.symm
  · intro heq
    rw [heq, h.unreported] at hr
    cases hr
  · rw [hsame.tenant]
    exact htenant.symm
  · rw [hsame.run]
    exact hrun.symm

end filing

/-- The listing of an investigation whose report a call files. -/
theorem listing_of_run {s t u : Service F} {c : Call F} {cs : List (Call F)}
    (hlife : Lifecycle s.committed.store s.drawn) (harchived : Archived s.committed)
    (hstep : Service.step s c t) (hrun : Run (Service.system F) t cs u) {k : UUID}
    (hbefore : s.committed.store.reports.get? k = none) {r : ReportRecord}
    (hr : t.committed.store.reports.get? k = some r) {i : InvestigationRecord}
    (hi : u.committed.store.investigations.get? k = some i) {p : Provenance F}
    (hp : u.committed.provenance.get? k = some p) :
    Listing s.committed.store u.committed.store i p := by
  obtain ⟨hfiles, hkeeps⟩ := files_of_step hlife hstep
  have hlife' := lifecycle_step hlife hstep
  have harchived' := harchived.files hfiles hkeeps
  have hfiled := filed_run hlife' hrun hr
  have hrequests := keepsRequests_run hlife' hrun
  obtain ⟨hlifeU, harchivedU⟩ : Lifecycle u.committed.store u.drawn ∧ Archived u.committed :=
    hrun.preserves (P := fun s => Lifecycle s.committed.store s.drawn ∧ Archived s.committed)
      (fun _ _ _ hs hstep => ⟨lifecycle_step hs.1 hstep, archived_step hs.1 hs.2 hstep⟩)
      ⟨hlife', harchived'⟩
  cases hfiles with
  | nothing hevidence hreports hprovenance =>
    rw [hreports, hbefore] at hr
    cases hr
  | report k₀ i₀ p₀ r₀ rows now hfound hid hnone hgrounds hrows hevidence hreports hprovenance =>
    -- the report that is new is the one of the investigation
    have hk : k = k₀ := by
      by_contra hne
      rw [hreports, Dict.get?_set_ne _ _ hne, hbefore] at hr
      cases hr
    subst hk
    rw [hfiled.provenance, hprovenance, Dict.get?_set_self] at hp
    obtain rfl := Option.some.inj hp
    obtain ⟨i₁, hi₁, hsame₁⟩ := hkeeps k i₀ hfound
    obtain ⟨i₂, hi₂, hsame₂⟩ := hrequests k i₁ hi₁
    obtain rfl := Option.some.inj (hi.symm.trans hi₂)
    have hsame := hsame₁.trans hsame₂
    have hidI : i.investigationId.value = k := by
      rw [hsame.investigationId]
      exact hid
    have hfiling : Filing s.committed u.committed i p₀ rows now := {
      unreported := by
        rw [hidI]
        exact hbefore
      made := hrows.imp fun _ _ hof => hof.of_same hsame
      kept := by
        rw [← hevidence]
        exact hfiled.kept
      added := by
        intro key row hrow hof
        rw [← hevidence]
        exact hfiled.added key row hrow ((congrArg InvestigationId.value hof).trans hidI)
      requests := by
        intro k j hj
        obtain ⟨j₁, hj₁, hsameJ₁⟩ := hkeeps k j hj
        obtain ⟨j₂, hj₂, hsameJ₂⟩ := hrequests k j₁ hj₁
        exact ⟨j₂, hj₂, hsameJ₁.trans hsameJ₂⟩
      reports := by
        intro k' r' hr'
        have hne : k' ≠ k := by
          rintro rfl
          rw [hbefore] at hr'
          cases hr'
        have hrT : t.committed.store.reports.get? k' = some r' := by
          rw [hreports, Dict.get?_set_ne _ _ hne]
          exact hr'
        rw [(filed_run hlife' hrun hrT).report, hrT] }
    exact {
      increasing := harchivedU.increasing
      rows := fun _ hrow => hfiling.listed harchived harchivedU hrow
      complete := fun _ he hnew => hfiling.complete harchivedU he hnew
      earlier := fun _ _ hold => hfiling.earlier harchived harchivedU hlifeU hold }

end listing

/-- **Listing the evidence of an investigation.** In a run from the empty store, an
    investigation that has succeeded got its report in one of the calls. Its listing has, in
    increasing order of their ids and without repetition, one row for every entry of the
    ledger the report was verified against that had no row before that call, and no others;
    every other entry has the row that an earlier investigation of the same tenant and run
    had stored, which is listed for that one. The report cites entries of the ledger only. -/
theorem evidence_listing {F : Type} [PyFloat F] [LawfulPyFloat F] [FloatHex F] [Sha256]
    {s : Service F} {cs : List (Call F)} (hrun : Run (Service.system F) ⟨Tracked.empty, []⟩ cs s)
    {i : InvestigationRecord} (hi : i ∈ s.committed.store.investigations.values)
    (hstatus : i.status = .succeeded) :
    ∃ cs₁ c cs₂ t t' p r, cs = cs₁ ++ c :: cs₂ ∧
      Run (Service.system F) ⟨Tracked.empty, []⟩ cs₁ t ∧ Service.step t c t' ∧
      Run (Service.system F) t' cs₂ s ∧
      t.committed.store.reports.get? i.investigationId.value = none ∧
      t'.committed.store.reports.get? i.investigationId.value = some r ∧
      s.committed.provenance.get? i.investigationId.value = some p ∧ Grounds i p r ∧
      Listing t.committed.store s.committed.store i p ∧
      ∀ id ∈ citations p.verification, ∃ e ∈ p.ledger.entries, e.evidenceId = id := by
  obtain ⟨hlife, harchived⟩ := archived_reachable ⟨_, cs, rfl, hrun⟩
  have hget := hlife.investigationsKeyed.get?_of_mem hi
  obtain ⟨p, r, hp, hr, hgrounds⟩ := harchived.of_succeeded hlife hget hstatus
  -- the call that filed the report
  obtain ⟨cs₁, c, cs₂, t, t', rfl, hfirst, hbefore, hstep, hafter, hlast⟩ := hrun.turn
    (P := fun s => ∃ r, s.committed.store.reports.get? i.investigationId.value = some r)
    (by
      rintro ⟨r, hr⟩
      simp [Tracked.empty, Store.empty] at hr) ⟨r, hr⟩
  obtain ⟨r', hr'⟩ := hafter
  have hnone : t.committed.store.reports.get? i.investigationId.value = none := by
    cases hget : t.committed.store.reports.get? i.investigationId.value with
    | none => rfl
    | some r => exact absurd ⟨r, hget⟩ hbefore
  obtain ⟨hlifeT, harchivedT⟩ := archived_reachable ⟨_, cs₁, rfl, hfirst⟩
  have hsame : r' = r := by
    rw [(filed_run (lifecycle_step hlifeT hstep) hlast hr').report, hr'] at hr
    exact Option.some.inj hr
  rw [hsame] at hr'
  exact ⟨cs₁, c, cs₂, t, t', p, r, rfl, hfirst, hstep, hlast, hnone, hr', hp, hgrounds,
    listing_of_run hlifeT harchivedT hstep hlast hnone hr' hget hp,
    fun id hid => cited_entry hgrounds.verified hid⟩

namespace Demo

/-- The same client asks once more, under another key. -/
def secondCall : CreateCall :=
  { createCall false with
    command := { (createCall false).command with idempotencyKey := some (str "other") } }

/-- The service after both creations. -/
def bothCreated : Service ExactFloat :=
  let second := Call.session (F := ExactFloat) createdService.committed (.create secondCall calm)
  ⟨second.shared, createdService.drawn ++ second.drawn⟩

theorem bothCreated_run : Run (Service.system ExactFloat) ⟨Tracked.empty, []⟩
    [.create (createCall true) calm, .create secondCall calm] bothCreated := by
  refine .cons createdService_step (.single ⟨?_, by decide +kernel, rfl⟩)
  unfold Call.Fresh
  decide +kernel

theorem bothCreated_reachable : Reachable (Service.system ExactFloat) bothCreated :=
  ⟨_, _, rfl, bothCreated_run⟩

/-- The second investigation. -/
def secondPending : InvestigationRecord :=
  { pending with
    investigationId := ⟨⟨2, UUID.two_lt⟩⟩
    idempotencyKey := some ⟨str "other", by decide⟩ }

/-- The two jobs. -/
def jobOf (jobId : JobId) (investigationId : InvestigationId) : JobRecord where
  jobId := jobId
  investigationId := investigationId
  tenant := ⟨str "tenant"⟩
  status := .queued
  availableAt := ⟨0, Datetime.zero_lt⟩
  claimedBy := none
  claimedAt := none
  leaseExpiresAt := none
  attemptCount := 0
  maxAttempts := Nat.succPNat 2
  createdAt := ⟨0, Datetime.zero_lt⟩
  updatedAt := ⟨0, Datetime.zero_lt⟩

def firstJob : JobRecord := jobOf ⟨⟨3, UUID.three_lt⟩⟩ ⟨⟨1, UUID.one_lt⟩⟩

def secondJob : JobRecord := jobOf ⟨⟨4, UUID.four_lt⟩⟩ ⟨⟨2, UUID.two_lt⟩⟩

theorem bothCreated_jobs : bothCreated.committed.store.jobs.values = [firstJob, secondJob] := by
  decide +kernel

/-- The first job is claimed first. -/
def claimOfFirst : Claim worker healthy bothCreated.committed.store where
  job := firstJob
  rest := [secondJob]
  expiry := ⟨30000000, Datetime.halfMinute_lt⟩
  first := by decide +kernel
  lease := by decide +kernel

/-- The next call of the worker. -/
def healthyAgain : Environment ExactFloat := { healthy with attemptId := ⟨6, UUID.six_lt⟩ }

/-- The second investigation asks the same of the pipeline. -/
theorem prepared_again : ∃ p, worker.prepare healthyAgain secondPending = .ok p := prepared

theorem claimOfFirst_healthy : ∃ p, claimOfFirst.Healthy pending p := by
  obtain ⟨p, hp⟩ := prepared
  exact ⟨p, by decide +kernel, by decide +kernel, by decide, hp, by decide +kernel, by decide +kernel⟩

/-- The store after the first call. -/
def afterFirst (rows : List EvidenceRecord) (report : ReportRecord) (t t' : Datetime) : Store :=
  worker.succeededStore healthy bothCreated.committed.store claimOfFirst.claimed (healthy.clock 1)
    (pending.withStatus .succeeded t) (claimOfFirst.row.withStatus .succeeded t') rows report
    (healthy.clock 2) 3

section second
variable (rows : List EvidenceRecord) (report : ReportRecord) (t t' : Datetime)

/-- The second job is claimed next. -/
theorem eligible_afterFirst :
    JobQueue.eligible (afterFirst rows report t t') (healthyAgain.clock 0) = [secondJob] := by
  have hkeyed := (lifecycle_reachable bothCreated_reachable).jobsKeyed
  have hget : bothCreated.committed.store.jobs.get? ⟨3, by decide⟩ = some firstJob := by
    decide +kernel
  have hvalues : (afterFirst rows report t t').jobs.values =
      [claimOfFirst.row.withStatus .succeeded t', secondJob] := by
    show (bothCreated.committed.store.jobs.set ⟨3, by decide⟩ _).values = _
    rw [hkeyed.values_set_of_mem _ hget, bothCreated_jobs]
    rfl
  unfold JobQueue.eligible
  rw [hvalues]
  exact sortedOn_eq_self (List.pairwise_singleton _ _)

def claimOfSecond : Claim worker healthyAgain (afterFirst rows report t t') where
  job := secondJob
  rest := []
  expiry := ⟨30000000, Datetime.halfMinute_lt⟩
  first := eligible_afterFirst rows report t t'
  lease := by decide +kernel

theorem claimOfSecond_healthy (provenance : Dict UUID (Provenance ExactFloat)) :
    ∃ p, Claim.Healthy (S := ⟨afterFirst rows report t t', provenance⟩)
      (claimOfSecond rows report t t') secondPending p := by
  obtain ⟨p, hp⟩ := prepared_again
  have hne : (⟨2, by decide⟩ : UUID) ≠ ⟨1, by decide⟩ := by decide
  refine ⟨p, ?_, rfl, by decide, hp, ?_, ?_⟩
  · refine InvestigationRepository.find?_eq_some.mpr ⟨?_, rfl⟩
    show (bothCreated.committed.store.investigations.set ⟨1, by decide⟩ _).get? ⟨2, by decide⟩ = _
    rw [Dict.get?_set_ne _ _ hne]
    decide +kernel
  · show (bothCreated.committed.store.reports.set ⟨1, by decide⟩ report).get? ⟨2, by decide⟩ = none
    rw [Dict.get?_set_ne _ _ hne]
    decide +kernel
  · show (bothCreated.committed.store.attempts.set _ _).values.any _ = false
    have hempty : bothCreated.committed.store.attempts.entries = [] := by decide +kernel
    rw [Dict.values_set_of_fresh _ (by decide +kernel)]
    unfold Dict.values
    rw [hempty]
    rfl

end second

/-- Both calls of the worker succeed, on a ledger of one entry, which is listed for the first
    investigation. -/
theorem listed_once : ∃ (s : Service ExactFloat) (cs : List (Call ExactFloat)) (i : InvestigationRecord)
    (p : Provenance ExactFloat), Run (Service.system ExactFloat) ⟨Tracked.empty, []⟩ cs s ∧
      i ∈ s.committed.store.investigations.values ∧ i.status = .succeeded ∧
      s.committed.provenance.get? i.investigationId.value = some p ∧ p.ledger.entries.length = 1 ∧
      EvidenceRepository.listForInvestigation s.committed.store i.tenant i.investigationId = [] := by
  -- the first investigation is worked on
  obtain ⟨_, hhealthy⟩ := claimOfFirst_healthy
  obtain ⟨s, p, rows, report, t, t', hstep, hmade, -, -, rfl⟩ :=
    exists_step_succeeded bothCreated_reachable healthy_calm hhealthy (by decide +kernel)
  have hreachable := bothCreated_reachable.step hstep
  obtain ⟨hlife, harchived⟩ := archived_reachable hreachable
  -- and then the second one
  obtain ⟨_, hhealthyAgain⟩ := claimOfSecond_healthy rows report t t'
    (bothCreated.committed.provenance.set ⟨1, by decide⟩ p.toProvenance)
  have hcalm : healthyAgain.toSurroundings.Calm := healthy_calm
  have hfresh : healthyAgain.attemptId ∉ bothCreated.drawn ++ [healthy.attemptId] := by
    decide +kernel
  obtain ⟨u, q, rows', report', v, v', hstep', hmade', -, -, rfl⟩ :=
    exists_step_succeeded hreachable hcalm hhealthyAgain hfresh
  have hreachable' := hreachable.step hstep'
  obtain ⟨hlife', -⟩ := archived_reachable hreachable'
  -- both ledgers are the same
  have hledger : p.ledger = q.ledger := by
    obtain ⟨inputs, hinputs, hrank⟩ := hmade.ranked
    obtain ⟨inputs', hinputs', hrank'⟩ := hmade'.ranked
    obtain rfl := Outcome.returns.inj (hinputs.symm.trans hinputs')
    have hbaseline : p.baseline = q.baseline := Except.ok.inj (hrank.symm.trans hrank')
    have hcompiled := hmade'.compiled
    rw [← hbaseline] at hcompiled
    exact Except.ok.inj (hmade.compiled.symm.trans hcompiled)
  have hrun := bothCreated_run.append (.cons hstep (.single hstep'))
  refine ⟨_, _, secondPending.withStatus .succeeded v, q.toProvenance, hrun, ?_, rfl, ?_, ?_, ?_⟩
  · exact Dict.mem_values.mpr ⟨_, Dict.get?_set_self _ _ _⟩
  · exact Dict.get?_set_self _ _ _
  · exact length_entries rfl hmade'
  · have hlisting := listing_of_run hlife harchived hstep' (.nil _)
      hhealthyAgain.unreported (Dict.get?_set_self _ _ _) (Dict.get?_set_self _ _ _)
      (Dict.get?_set_self _ _ _)
    rw [List.eq_nil_iff_forall_not_mem]
    intro row hrow
    obtain ⟨e, he, hnew, -⟩ := hlisting.rows row hrow
    -- each entry was stored for the first investigation
    have hfirst := harchived.stored ⟨1, by decide⟩ (pending.withStatus .succeeded t) p.toProvenance
      (Dict.get?_set_self _ _ _) (Dict.get?_set_self _ _ _) e (hledger ▸ he)
    exact hnew (Option.isSome_iff_exists.mpr hfirst)

end Demo

open Demo in
/-- The one entry of the second investigation has its row under the first one. -/
theorem evidence_listing_demo : ∃ (s : Service ExactFloat) (i j : InvestigationRecord)
    (p : Provenance ExactFloat) (e : MetricShiftEvidence ExactFloat) (row : EvidenceRecord),
      i.status = .succeeded ∧ j.status = .succeeded ∧ j.investigationId ≠ i.investigationId ∧
      s.committed.provenance.get? i.investigationId.value = some p ∧ p.ledger.entries = [e] ∧
      row ∈ EvidenceRepository.listForInvestigation s.committed.store j.tenant j.investigationId ∧
      row.evidenceId = e.evidenceId := by
  obtain ⟨s, cs, i, p, hrun, hmem, hstatus, hp, hone, hempty⟩ := listed_once
  obtain ⟨_, _, _, t, _, p', _, -, -, -, -, -, -, hp', -, hlisting, -⟩ :=
    evidence_listing hrun hmem hstatus
  obtain rfl := Option.some.inj (hp.symm.trans hp')
  obtain ⟨e, he⟩ := List.length_eq_one_iff.mp hone
  have hin : e ∈ p.ledger.entries := by simp [he]
  have hstored : Stored t.committed.store i e := by
    by_contra hnew
    obtain ⟨row, hrow, -⟩ := hlisting.complete e hin hnew
    rw [hempty] at hrow
    exact List.not_mem_nil hrow
  obtain ⟨row, j, -, -, hid, hlisted, hj, hjStatus, hne, -⟩ := hlisting.earlier e hin hstored
  obtain ⟨hlife, -⟩ := archived_reachable ⟨_, cs, rfl, hrun⟩
  have hsame : row.investigationId = j.investigationId :=
    InvestigationId.ext (hlife.investigationsKeyed _ _ hj)
  exact ⟨s, i, j, p, e, row, hstatus, hjStatus, hsame ▸ hne, hp, he, hlisted, hid⟩

open Demo in
/-- Two investigations of one incident, run and window, with the same telemetry: the second one
    succeeds with a ledger of one entry, and its listing is empty. -/
theorem second_listing_empty : ∃ (s : Service ExactFloat) (i : InvestigationRecord)
    (p : Provenance ExactFloat), Reachable (Service.system ExactFloat) s ∧
      i ∈ s.committed.store.investigations.values ∧ i.status = .succeeded ∧
      s.committed.provenance.get? i.investigationId.value = some p ∧ p.ledger.entries.length = 1 ∧
      EvidenceRepository.listForInvestigation s.committed.store i.tenant i.investigationId = [] := by
  obtain ⟨s, cs, i, p, hrun, hlisted⟩ := listed_once
  exact ⟨s, i, p, ⟨_, cs, rfl, hrun⟩, hlisted⟩

end IncidentEvidence
