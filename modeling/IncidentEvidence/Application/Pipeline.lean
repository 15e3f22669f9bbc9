import IncidentEvidence.Application.Worker

/-! # The stages of the pipeline together

    `prepare` is the pipeline without its awaits: what is persisted, or the
    exception that leaves. `Prepared.Made` says what is known of it, and
    `prepare_error` which codes a failure can be recorded under.
-/

namespace IncidentEvidence

open Py Serialization

/-! ### Documents are texts -/

/-- The text of an object is not blank. -/
theorem isBlank_dumps_obj (fields : List (Str × Json)) :
    isBlank (dumps (.obj fields) ++ str "\n") = false := by
  have hmem : CodePoint.scalar '{' ∈ dumps (.obj fields) ++ str "\n" := by
    simp [dumps]
  exact isBlank_eq_false_of_mem hmem (by decide)

theorem isBlank_of_serialize {payload : Except DomainError Json} {s : Str}
    (h : serialize payload = .ok s) (hobj : ∀ j, payload = .ok j → ∃ fields, j = .obj fields) :
    isBlank s = false := by
  obtain ⟨j, hj, -, rfl⟩ := serialize_text h
  obtain ⟨fields, rfl⟩ := hobj j hj
  exact isBlank_dumps_obj fields

section payloads
variable {F : Type} [PyFloat F] [LawfulPyFloat F] [FloatHex F]

theorem isBlank_entryJson {e : MetricShiftEvidence F} {s : Str}
    (h : metricEvidenceEntryJson e = .ok s) : isBlank s = false := by
  apply isBlank_of_serialize h
  intro j hj
  obtain ⟨-, rfl⟩ := entryPayload_eq_ok.mp hj
  exact ⟨_, rfl⟩

omit [LawfulPyFloat F] in
theorem isBlank_verificationJson {result : HypothesisVerificationResult F} {s : Str}
    (h : verificationJson result = .ok s) : isBlank s = false := by
  apply isBlank_of_serialize h
  intro j hj
  simp only [verificationPayload, documentPayload, bind_eq_ok, pure_eq_ok] at hj
  obtain ⟨_, -, _, -, _, -, _, -, _, -, _, -, _, -, _, -, rfl⟩ := hj
  exact ⟨_, rfl⟩

omit [LawfulPyFloat F] in
theorem isBlank_baselineRankingJson {baseline : BaselineResult F} {s : Str}
    (h : baselineRankingJson baseline = .ok s) : isBlank s = false := by
  apply isBlank_of_serialize h
  intro j hj
  cases baseline with
  | ranking value =>
    simp only [baselineRankingPayload, bind_eq_ok, pure_eq_ok] at hj
    obtain ⟨_, -, _, -, _, -, _, -, _, -, _, -, rfl⟩ := hj
    exact ⟨_, rfl⟩
  | abstention value =>
    simp only [baselineRankingPayload, bind_eq_ok, pure_eq_ok] at hj
    obtain ⟨_, -, _, -, _, -, _, -, rfl⟩ := hj
    exact ⟨_, rfl⟩

end payloads

/-! ### What is persisted -/

theorem terminalOnDomain_eq_ok {α : Type} {x : Except PyException α} {a : α} :
    terminalOnDomain x = .ok a ↔ x = .ok a := by
  unfold terminalOnDomain
  split <;> simp

theorem terminalOnValidation_eq_ok {α : Type} {x : Except PyException α} {a : α} :
    terminalOnValidation x = .ok a ↔ x = .ok a := by
  unfold terminalOnValidation
  split
  · next e =>
    by_cases he : e.isValidation = true <;> simp [he]
  · exact Iff.rfl

theorem awaited_eq_ok {α : Type} {failure : PyException → PyException} {outcome : Outcome α}
    {value : Except PyException α} :
    awaited failure outcome = .ok value ↔ outcome.reply = .ok value := by
  unfold awaited
  cases outcome.reply <;> simp

theorem reply_eq_ok {α : Type} {outcome : Outcome α} {a : α} (h : outcome.reply = .ok (.ok a)) :
    outcome = .returns a := by
  cases outcome with
  | returns b => simpa [Outcome.reply] using h
  | illTyped e => simp [Outcome.reply] at h
  | raises e => simp [Outcome.reply] at h

section prepared
variable {F : Type} [PyFloat F] [FloatHex F] [Sha256]

/-- The pipeline between and after its awaits. -/
def Worker.prepare (w : Worker F) (env : Environment F) (investigation : InvestigationRecord) :
    Except PyException (Prepared F) := do
  let telemetry ← awaited telemetryFailure env.load
  let (baseline, ledger) ← baselineStage w.policy investigation telemetry
  let proposal ← awaited providerFailure env.proposal
  let proposal ← proposal
  countTokens F proposal
  let document ← parseStage env.limits proposal (allowedSignals ledger)
  verifyStage baseline ledger document

/-- What the stages made for an investigation. -/
structure Prepared.Made (w : Worker F) (env : Environment F) (investigation : InvestigationRecord)
    (p : Prepared F) : Prop where
  ranked : ∃ inputs, env.load = .returns inputs ∧
    rankMetricShifts investigation.window inputs w.policy = .ok p.baseline
  compiled : compileMetricShiftLedger investigation.tenant investigation.incident
    investigation.run investigation.window p.baseline = .ok p.ledger
  verified : verifyHypothesis p.document p.ledger = .ok p.verification
  entries : List.Forall₂ (fun e x => x.1 = e.evidenceId ∧ metricEvidenceEntryJson e = .ok x.2)
    p.ledger.entries p.entries
  report : verificationJson p.verification = .ok p.report
  baselineReport : baselineRankingJson p.baseline = .ok p.baselineReport

theorem baselineStage_eq_ok {policy : BaselinePolicy F} {investigation : InvestigationRecord}
    {telemetry : Except PyException (List (SignalBaselineInput F))} {baseline : BaselineResult F}
    {ledger : MetricEvidenceLedger F} :
    baselineStage policy investigation telemetry = .ok (baseline, ledger) ↔
      ∃ inputs, telemetry = .ok inputs ∧
        rankMetricShifts investigation.window inputs policy = .ok baseline ∧
        compileMetricShiftLedger investigation.tenant investigation.incident investigation.run
          investigation.window baseline = .ok ledger := by
  simp only [baselineStage, terminalOnDomain_eq_ok, bind_eq_ok, liftDomain_eq_ok, pure_eq_ok,
    Prod.mk.injEq]
  constructor
  · rintro ⟨inputs, hinputs, _, hrank, _, hcompile, rfl, rfl⟩
    exact ⟨inputs, hinputs, hrank, hcompile⟩
  · rintro ⟨inputs, hinputs, hrank, hcompile⟩
    exact ⟨inputs, hinputs, _, hrank, _, hcompile, rfl, rfl⟩

/-- The entries of a ledger are about the signals of the telemetry. -/
theorem compiled_keys [LawfulPyFloat F] {tenant : TenantId} {incident : IncidentId} {run : RunId}
    {window : IncidentWindow} {policy : BaselinePolicy F} {inputs : List (SignalBaselineInput F)}
    {baseline : BaselineResult F} {ledger : MetricEvidenceLedger F}
    (hrank : rankMetricShifts window inputs policy = .ok baseline)
    (hcompile : compileMetricShiftLedger tenant incident run window baseline = .ok ledger) :
    (ledger.entries.map (·.signalKey)).Perm (inputs.map (·.signal.key)) := by
  obtain ⟨hevals, -⟩ := rank_evaluations hrank
  obtain ⟨-, -, -, -, -, -, hevaluations⟩ := compile_eq_ok hcompile
  have hentries : ledger.entries.map (·.signalKey) = ledger.evaluations.map (·.signalKey) := by
    unfold MetricEvidenceLedger.evaluations
    rw [List.map_map]
    rfl
  rw [hentries, hevaluations]
  exact ((perm_sortedOn _ _).map _).trans hevals.keys

/-- The ledger allows the signals of the telemetry, whatever they measured. -/
theorem baselineStage_allowed [LawfulPyFloat F] {policy : BaselinePolicy F}
    {investigation : InvestigationRecord} {inputs : List (SignalBaselineInput F)}
    {baseline : BaselineResult F} {ledger : MetricEvidenceLedger F}
    (h : baselineStage policy investigation (.ok inputs) = .ok (baseline, ledger)) :
    allowedSignals ledger = (inputs.map (·.signal.key)).toFinset := by
  obtain ⟨_, heq, hrank, hcompile⟩ := baselineStage_eq_ok.mp h
  obtain rfl := Except.ok.inj heq
  exact List.toFinset_eq_of_perm _ _ (compiled_keys hrank hcompile)

theorem verifyStage_eq_ok {baseline : BaselineResult F} {ledger : MetricEvidenceLedger F}
    {document : HypothesisDocument} {p : Prepared F}
    (h : verifyStage baseline ledger document = .ok p) :
    p.baseline = baseline ∧ p.ledger = ledger ∧ p.document = document ∧
      verifyHypothesis document ledger = .ok p.verification ∧
      List.Forall₂ (fun e x => x.1 = e.evidenceId ∧ metricEvidenceEntryJson e = .ok x.2)
        ledger.entries p.entries ∧
      verificationJson p.verification = .ok p.report ∧
      baselineRankingJson baseline = .ok p.baselineReport := by
  simp only [verifyStage, terminalOnDomain_eq_ok, liftDomain_eq_ok, bind_eq_ok, mapM_eq_ok,
    pure_eq_ok] at h
  obtain ⟨verification, hverified, entries, hentries, report, hreport, _, hbaseline, rfl⟩ := h
  refine ⟨rfl, rfl, rfl, hverified, ?_, hreport, hbaseline⟩
  apply hentries.imp
  intro e x hx
  obtain ⟨payload, hpayload, rfl⟩ := hx
  exact ⟨rfl, hpayload⟩

theorem Worker.prepare_eq_ok {w : Worker F} {env : Environment F}
    {investigation : InvestigationRecord} {p : Prepared F}
    (h : w.prepare env investigation = .ok p) : p.Made w env investigation := by
  simp only [Worker.prepare, bind_eq_ok, awaited_eq_ok] at h
  obtain ⟨telemetry, hload, ⟨baseline, ledger⟩, hstage, _, -, _, -, _, -, document, -, hverify⟩ := h
  obtain ⟨inputs, rfl, hrank, hcompile⟩ := baselineStage_eq_ok.mp hstage
  obtain ⟨rfl, rfl, rfl, hverified, hentries, hreport, hbaseline⟩ := verifyStage_eq_ok hverify
  exact ⟨⟨inputs, reply_eq_ok hload, hrank⟩, hcompile, hverified, hentries, hreport, hbaseline⟩

variable [LawfulPyFloat F] {w : Worker F} {env : Environment F}
  {investigation : InvestigationRecord} {p : Prepared F}

/-- The row of an entry. -/
def RowOf (investigation : InvestigationRecord) (now : Datetime) (e : MetricShiftEvidence F)
    (row : EvidenceRecord) : Prop :=
  metricEvidenceEntryJson e = .ok row.payload.1 ∧
    row = ⟨investigation.tenant, investigation.investigationId, investigation.run, e.evidenceId,
      .metric, ⟨SCHEMA_VERSION, schemaVersion_notBlank⟩, row.payload, now⟩

omit [Sha256] in
/-- Every entry has a row. -/
theorem exists_rows {ledgerEntries : List (MetricShiftEvidence F)} {entries : List (EvidenceId × Str)}
    (h : List.Forall₂ (fun e x => x.1 = e.evidenceId ∧ metricEvidenceEntryJson e = .ok x.2)
      ledgerEntries entries) (investigation : InvestigationRecord) (now : Datetime) :
    ∃ rows, entries.mapM (evidenceRecord investigation now) = .ok rows ∧
      List.Forall₂ (RowOf investigation now) ledgerEntries rows := by
  induction h with
  | nil => exact ⟨[], rfl, .nil⟩
  | @cons e x _ _ hx _ ih =>
    obtain ⟨rows, hrows, hall⟩ := ih
    obtain ⟨hid, hpayload⟩ := hx
    have htext : checkText x.2 = .ok ⟨x.2, isBlank_entryJson hpayload⟩ := checkText_val ⟨x.2, _⟩
    refine ⟨⟨investigation.tenant, investigation.investigationId, investigation.run, x.1, .metric,
      ⟨SCHEMA_VERSION, by decide⟩, ⟨x.2, isBlank_entryJson hpayload⟩, now⟩ :: rows, ?_, ?_⟩
    · simp only [List.mapM_cons, bind_eq_ok, pure_eq_ok]
      refine ⟨_, ?_, rows, hrows, rfl⟩
      simp [evidenceRecord, htext]
    · refine .cons ⟨hpayload, ?_⟩ hall
      rw [hid]

/-- The report of a prepared pipeline. -/
def ReportOf (investigation : InvestigationRecord) (now : Datetime) (p : Prepared F)
    (record : ReportRecord) : Prop :=
  record.investigationId = investigation.investigationId ∧ record.tenant = investigation.tenant ∧
    record.run = investigation.run ∧ record.payload.1 = p.report ∧
    record.baselinePayload.map Subtype.val = some p.baselineReport ∧ record.createdAt = now

omit [LawfulPyFloat F] in
theorem Prepared.Made.exists_report (h : p.Made w env investigation) (now : Datetime) :
    ∃ record, reportRecord investigation now p = .ok record ∧ ReportOf investigation now p record := by
  have hreport : checkText p.report = .ok ⟨p.report, isBlank_verificationJson h.report⟩ :=
    checkText_val ⟨p.report, _⟩
  have hbaseline : checkText p.baselineReport =
      .ok ⟨p.baselineReport, isBlank_baselineRankingJson h.baselineReport⟩ :=
    checkText_val ⟨p.baselineReport, _⟩
  refine ⟨⟨investigation.investigationId, investigation.tenant, investigation.run,
    ⟨VERIFICATION_SCHEMA_VERSION, by decide⟩, ⟨p.report, isBlank_verificationJson h.report⟩, now,
    some ⟨p.baselineReport, isBlank_baselineRankingJson h.baselineReport⟩⟩, ?_, rfl, rfl, rfl, rfl,
    rfl, rfl⟩
  simp [reportRecord, hreport, hbaseline]

end prepared

/-! ### Which codes are recorded -/

/-- `_TerminalFailure` and `_RetryableFailure` are known to the worker only. -/
def PyException.isPrivate : PyException → Bool
  | .terminalFailure _ | .retryableFailure _ => true
  | _ => false

/-- A port does not raise the worker's own exceptions. -/
def Outcome.External {α : Type} : Outcome α → Prop
  | .returns _ => True
  | .illTyped e | .raises e => e.isPrivate = false

/-- Neither do the values the ports return. -/
structure Environment.External {F : Type} [PyFloat F] (env : Environment F) : Prop where
  load : env.load.External
  proposal : env.proposal.External
  rawJson : ∀ proposal e, env.proposal = .returns proposal → proposal.rawJson = .error e →
    e.isPrivate = false

/-- The codes of failures that are retried. -/
def retryCodes : List Str := [str "provider_timeout", str "provider_unavailable"]

/-- The codes of the error classes, and the worker's code for everything else. -/
def ClassCode (code : Str) : Prop :=
  code = str "internal_error" ∨ code = str "telemetry_unavailable" ∨
    (∃ e : DomainError, code = e.code) ∨ ∃ e : LLMError, code = e.code

/-- A failure of the pipeline carries a code of its kind. -/
def PyException.Classified : PyException → Prop
  | .terminalFailure code => ClassCode code ∧ code ∉ retryCodes
  | .retryableFailure code => code ∈ retryCodes
  | _ => True

theorem classified_of_external {e : PyException} (h : e.isPrivate = false) : e.Classified := by
  cases e <;> trivial

theorem classified_domain (e : DomainError) : (PyException.terminalFailure e.code).Classified := by
  refine ⟨Or.inr (Or.inr (Or.inl ⟨e, rfl⟩)), ?_⟩
  cases e <;> decide

theorem classified_validation {e : LLMError} (h : e.isValidation = true) :
    (PyException.terminalFailure e.code).Classified := by
  refine ⟨Or.inr (Or.inr (Or.inr ⟨e, rfl⟩)), ?_⟩
  cases e <;> first | decide | exact absurd h (by decide)

theorem classified_terminalOnDomain {α : Type} {x : Except PyException α} {e : PyException}
    (h : terminalOnDomain x = .error e) (hx : ∀ e, x = .error e → e.isPrivate = false) :
    e.Classified := by
  unfold terminalOnDomain at h
  split at h
  · next d =>
    obtain rfl := Except.error.inj h
    exact classified_domain d
  · exact classified_of_external (hx e h)

theorem classified_terminalOnValidation {α : Type} {x : Except PyException α} {e : PyException}
    (h : terminalOnValidation x = .error e) (hx : ∀ e, x = .error e → e.isPrivate = false) :
    e.Classified := by
  unfold terminalOnValidation at h
  split at h
  · next l =>
    by_cases hl : l.isValidation = true
    · rw [if_pos hl] at h
      obtain rfl := Except.error.inj h
      exact classified_validation hl
    · rw [if_neg hl] at h
      obtain rfl := Except.error.inj h
      trivial
  · exact classified_of_external (hx e h)

theorem classified_telemetryFailure {e : PyException} (h : e.isPrivate = false) :
    (telemetryFailure e).Classified := by
  unfold telemetryFailure
  split
  · exact ⟨Or.inr (Or.inl rfl), by decide⟩
  · exact classified_of_external h

theorem classified_providerFailure {e : PyException} (h : e.isPrivate = false) :
    (providerFailure e).Classified := by
  unfold providerFailure
  split
  · exact List.mem_cons_self
  · exact List.mem_cons_of_mem _ List.mem_cons_self
  · exact List.mem_cons_of_mem _ List.mem_cons_self
  · exact ⟨Or.inr (Or.inr (Or.inr ⟨.providerResponse, rfl⟩)), by decide⟩
  · exact classified_of_external h

theorem classified_awaited {α : Type} {failure : PyException → PyException} {outcome : Outcome α}
    (hfailure : ∀ e, e.isPrivate = false → (failure e).Classified) (hexternal : outcome.External)
    {e : PyException} (h : awaited failure outcome = .error e) : e.Classified := by
  unfold awaited at h
  cases outcome with
  | returns value => simp [Outcome.reply] at h
  | illTyped e₀ => simp [Outcome.reply] at h
  | raises e₀ =>
    obtain rfl := Except.error.inj h
    exact hfailure e₀ hexternal

/-- The value of a port that does not raise the worker's exceptions does not either. -/
theorem external_of_reply {α : Type} {outcome : Outcome α} (hexternal : outcome.External)
    {e : PyException} (h : outcome.reply = .ok (.error e)) : e.isPrivate = false := by
  cases outcome with
  | returns value => simp [Outcome.reply] at h
  | illTyped e₀ =>
    obtain rfl := Except.error.inj (Except.ok.inj h)
    exact hexternal
  | raises e₀ => simp [Outcome.reply] at h

/-- The parser raises nothing of the worker's. -/
theorem parse_isPrivate {limits : RecursionLimits} {raw : Str} {allowed : Finset SignalKey}
    {e : PyException} (h : parseMetricHypothesis limits raw allowed = .error e) :
    e.isPrivate = false := by
  by_cases htyped : TypedOutcome allowed (parseMetricHypothesis limits raw allowed)
  · rw [h] at htyped
    cases e <;> first | rfl | exact absurd htyped (by simp [TypedOutcome, PyException.isLLMValidationError])
  · obtain ⟨hlength, hblank, hdefect⟩ := parseMetricHypothesis_untyped htyped
    rcases parseMetricHypothesis_defect allowed hlength hblank hdefect with
      hparse | hparse
    · rw [hparse] at h
      obtain rfl := Except.error.inj h
      rfl
    · rw [hparse] at h
      obtain rfl := Except.error.inj h
      rfl

theorem countTokens_error {F : Type} [PyFloat F] {proposal : LLMProposal} {e : PyException}
    (h : countTokens F proposal = .error e) : e = .overflowError := by
  have hone : ∀ {amount e}, countToken F amount = .error e → e = .overflowError := by
    intro amount e h
    unfold countToken at h
    split at h
    · split at h
      · exact (Except.error.inj h).symm
      · exact absurd h (by simp)
    · exact absurd h (by simp)
  simp only [countTokens, bind_eq_error] at h
  rcases h with h | ⟨_, -, h⟩
  · exact hone h
  · exact hone h

section codes
variable {F : Type} [PyFloat F] [FloatHex F] [Sha256] {w : Worker F} {env : Environment F}
  {investigation : InvestigationRecord}

theorem classified_baselineStage {policy : BaselinePolicy F}
    {telemetry : Except PyException (List (SignalBaselineInput F))} {e : PyException}
    (h : baselineStage policy investigation telemetry = .error e)
    (htelemetry : ∀ e, telemetry = .error e → e.isPrivate = false) : e.Classified := by
  apply classified_terminalOnDomain h
  intro e he
  simp only [bind_eq_error, liftDomain_eq_error, pure_ne_error, and_false, exists_false,
    or_false] at he
  rcases he with he | ⟨_, -, ⟨d, -, rfl⟩ | ⟨_, -, d, -, rfl⟩⟩
  · exact htelemetry e he
  · rfl
  · rfl

theorem classified_verifyStage {baseline : BaselineResult F} {ledger : MetricEvidenceLedger F}
    {document : HypothesisDocument} {e : PyException}
    (h : verifyStage baseline ledger document = .error e) : e.Classified := by
  apply classified_terminalOnDomain h
  intro e he
  obtain ⟨d, -, rfl⟩ := liftDomain_eq_error.mp he
  rfl

/-- The pipeline fails under a code of the source, whatever the ports do. -/
theorem Worker.prepare_error (hexternal : env.External) {e : PyException}
    (h : w.prepare env investigation = .error e) : e.Classified := by
  simp only [Worker.prepare, bind_eq_error, awaited_eq_ok] at h
  rcases h with h | ⟨telemetry, hload, h | ⟨⟨baseline, ledger⟩, -, h | ⟨reply, hreply, h |
    ⟨proposal, hproposal, h | ⟨_, -, h | ⟨document, -, h⟩⟩⟩⟩⟩⟩
  · exact classified_awaited (fun _ => classified_telemetryFailure) hexternal.load h
  · apply classified_baselineStage h
    intro e he
    rw [he] at hload
    exact external_of_reply hexternal.load hload
  · exact classified_awaited (fun _ => classified_providerFailure) hexternal.proposal h
  · rw [h] at hreply
    exact classified_of_external (external_of_reply hexternal.proposal hreply)
  · rw [countTokens_error h]
    trivial
  · apply classified_terminalOnValidation h
    intro e he
    rw [hproposal] at hreply
    rcases bind_eq_error.mp he with he | ⟨raw, -, he⟩
    · exact hexternal.rawJson proposal e (reply_eq_ok hreply) he
    · exact parse_isPrivate he
  · exact classified_verifyStage h

end codes

end IncidentEvidence
