import IncidentEvidence.Domain.ChangeLedgers
import IncidentEvidence.Domain.Evidence.Faithful

/-! # Evidence ids bind their content

    As long as no two hashed messages collide, the id of an accepted entry
    determines everything its ledger says: the run context, the window, the
    policy, the decision and the entry itself.
-/

namespace IncidentEvidence

open Py PyFloat Parsing Decisions Identity

/-! ### Hashed messages -/

/-- The messages hashed for the entries of a ledger. -/
def MetricEvidenceLedger.messages {F : Type} [PyFloat F] [FloatHex F]
    (l : MetricEvidenceLedger F) : Set (List UInt8) :=
  {m | ∃ e ∈ l.entries, contentMessage idDomain (l.payload e.evaluation) = some m}

/-- The messages hashed for the entries of a change ledger. -/
def ChangeEventLedger.messages (l : ChangeEventLedger) : Set (List UInt8) :=
  {m | ∃ e ∈ l.entries, contentMessage ChangeEvidence.idDomain (l.payload e) = some m}

/-- Lists with the same images are equal when elements with one image are. -/
theorem isEqv_of_map_eq {α β : Type} {r : α → α → Bool} {f : α → β} {l l' : List α}
    (hmap : l.map f = l'.map f) (h : ∀ a ∈ l, ∀ b ∈ l', f a = f b → r a b = true) :
    l.isEqv l' r = true := by
  induction l generalizing l' with
  | nil => cases l' <;> simp_all
  | cons a as ih =>
    cases l' with
    | nil => simp at hmap
    | cons b bs =>
      simp only [List.map_cons, List.cons.injEq] at hmap
      simp only [List.isEqv, Bool.and_eq_true]
      exact ⟨h a List.mem_cons_self b List.mem_cons_self hmap.1, ih hmap.2 fun x hx y hy =>
        h x (List.mem_cons_of_mem a hx) y (List.mem_cons_of_mem b hy)⟩

/-! ### Metric entries -/

section metric
variable {F : Type} [PyFloat F]

theorem MetricShiftDecision.eq_symm {a b : MetricShiftDecision F} (h : a.eq b = true) :
    b.eq a = true := by
  simp only [MetricShiftDecision.eq, Bool.and_eq_true, decide_eq_true_eq] at h ⊢
  obtain ⟨⟨⟨⟨⟨⟨h1, h2⟩, h3⟩, h4⟩, h5⟩, h6⟩, h7⟩ := h
  exact ⟨⟨⟨⟨⟨⟨h1.symm, h2.symm⟩, h3.symm⟩, h4.symm⟩, optionEq_symm PyFloat.eq_symm h5⟩,
    optionEq_symm PyFloat.eq_symm h6⟩, optionEq_symm PyFloat.eq_symm h7⟩

variable [LawfulPyFloat F]

theorem MetricShiftDecision.eq_trans {a b c : MetricShiftDecision F} (hab : a.eq b = true)
    (hbc : b.eq c = true) : a.eq c = true := by
  simp only [MetricShiftDecision.eq, Bool.and_eq_true, decide_eq_true_eq] at hab hbc ⊢
  obtain ⟨⟨⟨⟨⟨⟨h1, h2⟩, h3⟩, h4⟩, h5⟩, h6⟩, h7⟩ := hab
  obtain ⟨⟨⟨⟨⟨⟨g1, g2⟩, g3⟩, g4⟩, g5⟩, g6⟩, g7⟩ := hbc
  exact ⟨⟨⟨⟨⟨⟨h1.trans g1, h2.trans g2⟩, h3.trans g3⟩, h4.trans g4⟩,
    optionEq_trans (@PyFloat.eq_trans F _ _) h5 g5⟩,
    optionEq_trans (@PyFloat.eq_trans F _ _) h6 g6⟩, optionEq_trans (@PyFloat.eq_trans F _ _) h7 g7⟩

/-- The supplied decision equals the rebuilt one in Python's sense. -/
theorem decision_eq_rebuilt [FloatHex F] [Sha256] {l : MetricEvidenceLedger F} (h : l.Accepted) :
    l.decision.eq l.rebuiltDecision = true := by
  obtain ⟨hkind, hreason, -, hkeys, hcount, htop, hsecond, hlead⟩ := h.decision
  have hself : optionEq PyFloat.eq l.decision.lead l.decision.lead = true :=
    (agrees_self hlead.1).2
  simp only [MetricShiftDecision.eq, MetricEvidenceLedger.rebuiltDecision, hkind, hreason, hkeys,
    hcount, htop.2, hsecond.2, hself, decide_true, Bool.and_self]

/-- Entries with one id and one evaluation under one policy are equal. -/
theorem entry_eq {p : BaselinePolicy F} {e e' : MetricShiftEvidence F} (h : EntryOk p e)
    (h' : EntryOk p e') (hid : e.evidenceId = e'.evidenceId)
    (heval : e.evaluation = e'.evaluation) : e.eq e' = true := by
  have hrel : PyFloat.eq e.relativeScaleFloor e'.relativeScaleFloor = true :=
    PyFloat.eq_trans h.sameRelative (PyFloat.eq_symm h'.sameRelative)
  have hcand : optionEq SuspicionCandidate.eq e.candidate e.candidate = true := by
    cases hc : e.candidate with
    | none => rfl
    | some c => exact (h.evaluation.candidate c hc).eq_self
  have hfloor := PyFloat.eq_refl h.evaluation.floor.1
  simp only [MetricShiftEvidence.evaluation, SignalEvaluation.mk.injEq] at heval hfloor
  obtain ⟨hkey, habs, hpre, hpost, helig, hcandidate⟩ := heval
  simp only [MetricShiftEvidence.eq, hid, hkey, hpre, hpost, helig, hrel, ← habs, ← hcandidate,
    hfloor, hcand, decide_true, Bool.and_self]

theorem BaselinePolicy.Valid.eq_self {p : BaselinePolicy F} (h : p.Valid) : p.eq p = true := by
  have h1 := PyFloat.eq_refl h.score.1
  have h2 := PyFloat.eq_refl h.margin.1
  have h3 := PyFloat.eq_refl h.floor.1
  simp only [BaselinePolicy.eq, h1, h2, h3, decide_true, Bool.and_self]

variable [FloatHex F] [Sha256]

theorem decisionFinite_rebuilt {l : MetricEvidenceLedger F} (h : l.Accepted) :
    DecisionFinite l.rebuiltDecision := by
  have hranked := rankedOk h.evaluationOk
  have hnonneg : ∀ x, _ → isFinite x = true ∧ lt x zero = false :=
    fun _ => @expectedDecision_nonneg F _ l.policy _ _ hranked _
  exact ⟨fun x hx => (hnonneg x (Or.inl hx)).1, fun x hx => (hnonneg x (Or.inr (Or.inl hx))).1,
    fun x hx => (h.decision.lead.1 x hx).1⟩

/-- What two accepted ledgers that share an entry id have in common. -/
structure SameLedger (l₁ l₂ : MetricEvidenceLedger F) : Prop where
  tenant : l₁.tenantId = l₂.tenantId
  incident : l₁.incidentId = l₂.incidentId
  run : l₁.runId = l₂.runId
  window : l₁.window = l₂.window
  policy : l₁.policy = l₂.policy
  decision : l₁.decision.eq l₂.decision = true

variable [LawfulFloatHex F]

omit [LawfulPyFloat F] [LawfulFloatHex F] in
/-- Entries with one id were hashed with one payload. -/
theorem payload_eq_of_id {hashed : Set (List UInt8)} (hfree : CollisionFree hashed)
    {l₁ l₂ : MetricEvidenceLedger F} (h₁ : l₁.Accepted) (h₂ : l₂.Accepted)
    (hm₁ : l₁.normalized.messages ⊆ hashed) (hm₂ : l₂.normalized.messages ⊆ hashed)
    {e₁ e₂ : MetricShiftEvidence F} (he₁ : e₁ ∈ l₁.entries) (he₂ : e₂ ∈ l₂.entries)
    (hid : e₁.evidenceId = e₂.evidenceId) :
    l₁.normalized.payload e₁.evaluation = l₂.normalized.payload e₂.evaluation := by
  have hmem : ∀ {l : MetricEvidenceLedger F} {e : MetricShiftEvidence F}, e ∈ l.entries →
      l.normalized.messages ⊆ hashed →
      ∀ m, contentMessage idDomain (l.normalized.payload e.evaluation) = some m → m ∈ hashed :=
    fun he hm m hmsg => hm ⟨_, List.mem_map_of_mem he, hmsg⟩
  exact contentId_inj hfree (hmem he₁ hm₁) (hmem he₂ hm₂)
    (canonical_entryPayload _ _ _ _ _ _ _) (canonical_entryPayload _ _ _ _ _ _ _)
    (h₁.ids e₁ he₁) (hid ▸ h₂.ids e₂ he₂)

/-- **An entry id determines its ledger's context and the entry.** -/
theorem metricId_binds {hashed : Set (List UInt8)} (hfree : CollisionFree hashed)
    {l₁ l₂ : MetricEvidenceLedger F} (h₁ : l₁.Accepted) (h₂ : l₂.Accepted)
    (hm₁ : l₁.normalized.messages ⊆ hashed) (hm₂ : l₂.normalized.messages ⊆ hashed)
    {e₁ e₂ : MetricShiftEvidence F} (he₁ : e₁ ∈ l₁.entries) (he₂ : e₂ ∈ l₂.entries)
    (hid : e₁.evidenceId = e₂.evidenceId) : SameLedger l₁ l₂ ∧ e₁.eq e₂ = true := by
  have hpayload := payload_eq_of_id hfree h₁ h₂ hm₁ hm₂ he₁ he₂ hid
  obtain ⟨ht, hi, hr, hw, hp, hd, he⟩ := entryPayload_inj h₁.policy h₂.policy
    (decisionFinite_rebuilt h₁) (decisionFinite_rebuilt h₂)
    (h₁.entries e₁ he₁).evaluation.finite (h₂.entries e₂ he₂).evaluation.finite hpayload
  have hdecision : l₁.decision.eq l₂.decision = true := by
    have hrebuilt : l₁.rebuiltDecision = l₂.rebuiltDecision := hd
    refine MetricShiftDecision.eq_trans (decision_eq_rebuilt h₁) ?_
    rw [hrebuilt]
    exact MetricShiftDecision.eq_symm (decision_eq_rebuilt h₂)
  have hpolicy : l₁.policy = l₂.policy := hp
  have hok₂ : EntryOk l₁.policy e₂ := hpolicy ▸ h₂.entries e₂ he₂
  exact ⟨⟨ht, hi, hr, hw, hp, hdecision⟩, entry_eq (h₁.entries e₁ he₁) hok₂ hid he⟩

omit [PyFloat F] [LawfulPyFloat F] [FloatHex F] [Sha256] [LawfulFloatHex F] in
/-- An entry is its id, its evaluation and its relative floor. -/
theorem MetricShiftEvidence.ext_of_evaluation {a b : MetricShiftEvidence F}
    (hid : a.evidenceId = b.evidenceId) (hrel : a.relativeScaleFloor = b.relativeScaleFloor)
    (heval : a.evaluation = b.evaluation) : a = b := by
  cases a
  cases b
  simp_all [MetricShiftEvidence.evaluation]

omit [LawfulPyFloat F] [FloatHex F] [Sha256] [LawfulFloatHex F] in
/-- After validation the floor of an entry is that of the policy. -/
theorem floor_of_normalized {l : MetricEvidenceLedger F} (h : l = l.normalized)
    {e : MetricShiftEvidence F} (he : e ∈ l.entries) :
    e.relativeScaleFloor = l.policy.relativeScaleFloor := by
  rw [h] at he
  obtain ⟨e', -, rfl⟩ := List.mem_map.mp he
  rfl

/-- In ledgers that validation leaves as they are, entries with one id are the same. -/
theorem entry_eq_of_id {hashed : Set (List UInt8)} (hfree : CollisionFree hashed)
    {l₁ l₂ : MetricEvidenceLedger F} (h₁ : validateMetricEvidenceLedger l₁ = .ok l₁)
    (h₂ : validateMetricEvidenceLedger l₂ = .ok l₂) (hm₁ : l₁.messages ⊆ hashed)
    (hm₂ : l₂.messages ⊆ hashed) {e₁ e₂ : MetricShiftEvidence F} (he₁ : e₁ ∈ l₁.entries)
    (he₂ : e₂ ∈ l₂.entries) (hid : e₁.evidenceId = e₂.evidenceId) :
    e₁ = e₂ ∧ l₁.incidentId = l₂.incidentId ∧ l₁.window = l₂.window := by
  obtain ⟨hacc₁, hnorm₁⟩ := validate_eq_ok.mp h₁
  obtain ⟨hacc₂, hnorm₂⟩ := validate_eq_ok.mp h₂
  have hpayload := payload_eq_of_id hfree hacc₁ hacc₂ (hnorm₁ ▸ hm₁) (hnorm₂ ▸ hm₂) he₁ he₂ hid
  obtain ⟨-, hi, -, hw, hp, -, he⟩ := entryPayload_inj hacc₁.policy hacc₂.policy
    (decisionFinite_rebuilt hacc₁) (decisionFinite_rebuilt hacc₂)
    (hacc₁.entries e₁ he₁).evaluation.finite (hacc₂.entries e₂ he₂).evaluation.finite hpayload
  have hrel : e₁.relativeScaleFloor = e₂.relativeScaleFloor := by
    rw [floor_of_normalized hnorm₁ he₁, floor_of_normalized hnorm₂ he₂,
      show l₁.policy = l₂.policy from hp]
  exact ⟨MetricShiftEvidence.ext_of_evaluation hid hrel he, hi, hw⟩

/-- A ledger with entries is determined by their ids. -/
theorem metricIds_bind {hashed : Set (List UInt8)} (hfree : CollisionFree hashed)
    {l₁ l₂ : MetricEvidenceLedger F} (h₁ : l₁.Accepted) (h₂ : l₂.Accepted)
    (hm₁ : l₁.normalized.messages ⊆ hashed) (hm₂ : l₂.normalized.messages ⊆ hashed)
    (hne : l₁.entries ≠ [])
    (hids : l₁.entries.map (·.evidenceId) = l₂.entries.map (·.evidenceId)) :
    l₁.eq l₂ = true := by
  obtain ⟨e₁, he₁⟩ := List.exists_mem_of_ne_nil _ hne
  have hmem : e₁.evidenceId ∈ l₂.entries.map (·.evidenceId) := hids ▸ List.mem_map_of_mem he₁
  obtain ⟨e₂, he₂, hid⟩ := List.mem_map.mp hmem
  obtain ⟨hsame, -⟩ := metricId_binds hfree h₁ h₂ hm₁ hm₂ he₁ he₂ hid.symm
  have hschema : l₁.schemaVersion = l₂.schemaVersion :=
    h₁.schemaVersion.trans h₂.schemaVersion.symm
  have hpolicy : l₁.policy.eq l₂.policy = true := hsame.policy ▸ h₁.policy.eq_self
  have hentries : l₁.entries.isEqv l₂.entries MetricShiftEvidence.eq = true :=
    isEqv_of_map_eq hids fun a ha b hb hab =>
      (metricId_binds hfree h₁ h₂ hm₁ hm₂ ha hb hab).2
  simp only [MetricEvidenceLedger.eq, hschema, hsame.tenant, hsame.incident, hsame.run,
    hsame.window, hpolicy, hsame.decision, hentries, decide_true, Bool.and_self]

end metric

/-! ### Change entries -/

section change

theorem canonical_changePayload (t : TenantId) (i : IncidentId) (r : RunId) (w : IncidentWindow)
    (event : ChangeEvent) (phase : ChangePhase) :
    (ChangeEvidence.entryPayload t i r w event phase).Canonical := by
  apply canonical_jsonObj (by simp only [List.map_cons, List.map_nil]; decide)
  simp [canonical_windowPayload]

/-- Nothing is left out of the payload of a change. -/
theorem changePayload_inj {t t' : TenantId} {i i' : IncidentId} {r r' : RunId}
    {w w' : IncidentWindow} {event event' : ChangeEvent} {phase phase' : ChangePhase}
    (h : ChangeEvidence.entryPayload t i r w event phase =
      ChangeEvidence.entryPayload t' i' r' w' event' phase') :
    t = t' ∧ i = i' ∧ r = r' ∧ w = w' ∧ event = event' ∧ phase = phase' := by
  simp only [ChangeEvidence.entryPayload, jsonObj, List.map_cons, List.map_nil, Json.obj.injEq,
    List.cons.injEq, Prod.mk.injEq, Json.str.injEq, true_and, and_true] at h
  obtain ⟨hkey, hinc, hwin, hkind, htime, hphase, hrun, hten⟩ := h
  refine ⟨congrArg TenantId.mk hten, congrArg IncidentId.mk hinc, congrArg RunId.mk hrun,
    windowPayload_injective hwin, ?_, ChangePhase.value_injective hphase⟩
  apply changeIdentity_injective
  simp only [changeIdentity, hkey, hkind, timestamp_injective htime]

/-- What two accepted change ledgers that share an entry id have in common. -/
structure SameChangeLedger (l₁ l₂ : ChangeEventLedger) : Prop where
  tenant : l₁.tenantId = l₂.tenantId
  incident : l₁.incidentId = l₂.incidentId
  run : l₁.runId = l₂.runId
  window : l₁.window = l₂.window

variable [Sha256] {hashed : Set (List UInt8)} {l₁ l₂ : ChangeEventLedger}

theorem changeId_binds (hfree : CollisionFree hashed) (h₁ : l₁.Accepted) (h₂ : l₂.Accepted)
    (hm₁ : l₁.messages ⊆ hashed) (hm₂ : l₂.messages ⊆ hashed) {e₁ e₂ : ChangeEventEvidence}
    (he₁ : e₁ ∈ l₁.entries) (he₂ : e₂ ∈ l₂.entries) (hid : e₁.evidenceId = e₂.evidenceId) :
    SameChangeLedger l₁ l₂ ∧ e₁ = e₂ := by
  have hpayload := contentId_inj hfree (fun m hm => hm₁ ⟨e₁, he₁, hm⟩)
    (fun m hm => hm₂ ⟨e₂, he₂, hm⟩) (canonical_changePayload _ _ _ _ _ _)
    (canonical_changePayload _ _ _ _ _ _) (h₁.ids e₁ he₁) (hid ▸ h₂.ids e₂ he₂)
  obtain ⟨ht, hi, hr, hw, hevent, hphase⟩ := changePayload_inj hpayload
  refine ⟨⟨ht, hi, hr, hw⟩, ?_⟩
  simp only [ChangeEventEvidence.event, ChangeEvent.mk.injEq] at hevent
  cases e₁
  cases e₂
  simp_all

/-- A change ledger with entries is determined by their ids. -/
theorem changeIds_bind (hfree : CollisionFree hashed) (h₁ : l₁.Accepted) (h₂ : l₂.Accepted)
    (hm₁ : l₁.messages ⊆ hashed) (hm₂ : l₂.messages ⊆ hashed) (hne : l₁.entries ≠ [])
    (hids : l₁.entries.map (·.evidenceId) = l₂.entries.map (·.evidenceId)) : l₁ = l₂ := by
  obtain ⟨e₁, he₁⟩ := List.exists_mem_of_ne_nil _ hne
  have hmem : e₁.evidenceId ∈ l₂.entries.map (·.evidenceId) := hids ▸ List.mem_map_of_mem he₁
  obtain ⟨e₂, he₂, hid⟩ := List.mem_map.mp hmem
  obtain ⟨hsame, -⟩ := changeId_binds hfree h₁ h₂ hm₁ hm₂ he₁ he₂ hid.symm
  have hentries : l₁.entries = l₂.entries := by
    have heqv : l₁.entries.isEqv l₂.entries (· == ·) = true :=
      isEqv_of_map_eq hids fun a ha b hb hab =>
        beq_iff_eq.mpr (changeId_binds hfree h₁ h₂ hm₁ hm₂ ha hb hab).2
    rwa [List.isEqv_eq] at heqv
  obtain ⟨ht, hi, hr, hw⟩ := hsame
  have hschema := h₁.schemaVersion.trans h₂.schemaVersion.symm
  cases l₁
  cases l₂
  simp_all

end change

/-! ### Both ledgers -/

/-- The two domain tags differ after their common beginning. -/
theorem idDomain_ne : idDomain[27]? ≠ ChangeEvidence.idDomain[27]? := by decide

/-- **Evidence ids bind their content**: under a digest without collisions among
    the hashed messages, accepted ledgers that share an entry id agree on all the
    entry says, so a ledger with entries cannot change while its ids stay; and
    metric and change ids are different. -/
theorem evidence_ids_bind_content {F : Type} [PyFloat F] [LawfulPyFloat F] [FloatHex F]
    [LawfulFloatHex F] [Sha256] {hashed : Set (List UInt8)} (hfree : CollisionFree hashed) :
    (∀ l₁ l₂ m₁ m₂ : MetricEvidenceLedger F, validateMetricEvidenceLedger l₁ = .ok m₁ →
      validateMetricEvidenceLedger l₂ = .ok m₂ → m₁.messages ⊆ hashed → m₂.messages ⊆ hashed →
      (∀ e₁ ∈ l₁.entries, ∀ e₂ ∈ l₂.entries, e₁.evidenceId = e₂.evidenceId →
        SameLedger l₁ l₂ ∧ e₁.eq e₂ = true) ∧
      (l₁.entries ≠ [] → l₁.entries.map (·.evidenceId) = l₂.entries.map (·.evidenceId) →
        l₁.eq l₂ = true)) ∧
    (∀ l₁ l₂ m₁ m₂ : ChangeEventLedger, validateChangeEventLedger l₁ = .ok m₁ →
      validateChangeEventLedger l₂ = .ok m₂ → m₁.messages ⊆ hashed → m₂.messages ⊆ hashed →
      (∀ e₁ ∈ l₁.entries, ∀ e₂ ∈ l₂.entries, e₁.evidenceId = e₂.evidenceId →
        SameChangeLedger l₁ l₂ ∧ e₁ = e₂) ∧
      (l₁.entries ≠ [] → l₁.entries.map (·.evidenceId) = l₂.entries.map (·.evidenceId) →
        l₁ = l₂)) ∧
    (∀ (l₁ m₁ : MetricEvidenceLedger F) (l₂ m₂ : ChangeEventLedger),
      validateMetricEvidenceLedger l₁ = .ok m₁ → validateChangeEventLedger l₂ = .ok m₂ →
      m₁.messages ⊆ hashed → m₂.messages ⊆ hashed →
      ∀ e₁ ∈ l₁.entries, ∀ e₂ ∈ l₂.entries, e₁.evidenceId ≠ e₂.evidenceId) := by
  refine ⟨?_, ?_, ?_⟩
  · intro l₁ l₂ m₁ m₂ hv₁ hv₂ hm₁ hm₂
    obtain ⟨h₁, rfl⟩ := validate_eq_ok.mp hv₁
    obtain ⟨h₂, rfl⟩ := validate_eq_ok.mp hv₂
    exact ⟨fun e₁ he₁ e₂ he₂ hid => metricId_binds hfree h₁ h₂ hm₁ hm₂ he₁ he₂ hid,
      metricIds_bind hfree h₁ h₂ hm₁ hm₂⟩
  · intro l₁ l₂ m₁ m₂ hv₁ hv₂ hm₁ hm₂
    obtain ⟨h₁, rfl⟩ := validateChange_eq_ok.mp hv₁
    obtain ⟨h₂, rfl⟩ := validateChange_eq_ok.mp hv₂
    exact ⟨fun e₁ he₁ e₂ he₂ hid => changeId_binds hfree h₁ h₂ hm₁ hm₂ he₁ he₂ hid,
      changeIds_bind hfree h₁ h₂ hm₁ hm₂⟩
  -- the two kinds hash under different domains
  · intro l₁ m₁ l₂ m₂ hv₁ hv₂ hm₁ hm₂ e₁ he₁ e₂ he₂
    obtain ⟨h₁, rfl⟩ := validate_eq_ok.mp hv₁
    obtain ⟨h₂, rfl⟩ := validateChange_eq_ok.mp hv₂
    exact contentId_ne hfree (fun m hm => hm₁ ⟨_, List.mem_map_of_mem he₁, hm⟩)
      (fun m hm => hm₂ ⟨e₂, he₂, hm⟩) (by decide) (by decide) idDomain_ne (h₁.ids e₁ he₁)
      (h₂.ids e₂ he₂)

/-- Messages with different digests do not collide. -/
theorem collisionFree_of_nodup [Sha256] {messages : List (List UInt8)}
    (h : (messages.map Sha256.digest).Nodup) : CollisionFree {m | m ∈ messages} :=
  fun _ ha _ hb heq => List.inj_on_of_nodup_map h ha hb heq

namespace Demo

/-- The message hashed for an evaluation of the small incident. -/
def metricMessage (result : BaselineResult ExactFloat) (e : SignalEvaluation ExactFloat) :
    Option (List UInt8) :=
  contentMessage idDomain (entryPayload tenant incident run window policy
    (expectedDecision policy (rankedCandidates result.signalEvaluations)) e)

/-- The message hashed for an event around it. -/
def changeMessage (e : ChangeEvent) : Option (List UInt8) :=
  contentMessage ChangeEvidence.idDomain
    (ChangeEvidence.entryPayload tenant incident run window e (ChangeEvidence.phase e.occurredAt window))

def checkoutRollout : ChangeEvent := ⟨⟨str "checkout"⟩, .deployment, ⟨5, Datetime.five_lt⟩⟩

def cartRollout : ChangeEvent := ⟨⟨str "cart"⟩, .deployment, ⟨15, Datetime.fifteen_lt⟩⟩

/-- All three messages, of a signal and of two deployments. -/
def messages (result : BaselineResult ExactFloat) : List (List UInt8) :=
  result.signalEvaluations.filterMap (metricMessage result) ++
    [checkoutRollout, cartRollout].filterMap changeMessage

/-- The ledger of one event, and what is hashed for it. -/
theorem rollout_ledger {e : ChangeEvent} (he : e ∈ [checkoutRollout, cartRollout])
    (result : BaselineResult ExactFloat) : ∃ l : ChangeEventLedger,
      validateChangeEventLedger l = .ok l ∧ l.entries.map (·.event) = [e] ∧
      l.messages ⊆ {m | m ∈ messages result} := by
  have hkey : TextIdentifier.Valid e.eventKey ∧ Encodable e.eventKey.value := by
    simp only [List.mem_cons, List.not_mem_nil, or_false] at he
    rcases he with rfl | rfl
    · exact ⟨by decide, encodable_str _⟩
    · exact ⟨by decide, encodable_str _⟩
  obtain ⟨l, haccepted, htenant, hincident, hrun, hwindow, hmap⟩ := @exists_changeLedger _ tenant
    incident run window [e] tenant_ok incident_ok run_ok (by decide) (by simpa using hkey)
    (List.pairwise_singleton _ _)
  refine ⟨l, validateChange_eq_ok.mpr ⟨haccepted, rfl⟩, hmap, ?_⟩
  intro m hm
  obtain ⟨entry, hentry, hm⟩ := hm
  have hevent : entry.event = e := by
    have hmem : entry.event ∈ l.entries.map (·.event) := List.mem_map_of_mem hentry
    rw [hmap] at hmem
    exact List.mem_singleton.mp hmem
  have hphase := haccepted.phases entry hentry
  rw [show entry.occurredAt = e.occurredAt by rw [← hevent]; rfl, hwindow] at hphase
  refine List.mem_append_right _ (List.mem_filterMap.mpr ⟨e, he, ?_⟩)
  rw [← hm]
  unfold changeMessage ChangeEventLedger.payload
  rw [htenant, hincident, hrun, hwindow, hevent, hphase]

end Demo

open Demo in
/-- Three ledgers of one incident, of a signal and of two deployments: their ids are different, and
    those of the signal bind its ledger. -/
theorem evidence_ids_bind_content_demo : ∃ (l : MetricEvidenceLedger ExactFloat)
    (checkout cart : ChangeEventLedger), l.entries ≠ [] ∧
      checkout.entries.map (·.event) = [checkoutRollout] ∧ cart.entries.map (·.event) = [cartRollout] ∧
      CollisionFree (l.messages ∪ (checkout.messages ∪ cart.messages)) ∧ l.eq l = true ∧
      (∀ e ∈ checkout.entries, ∀ e' ∈ cart.entries, e.evidenceId ≠ e'.evidenceId) ∧
      ∀ e ∈ l.entries, ∀ e' ∈ checkout.entries, e.evidenceId ≠ e'.evidenceId := by
  have hdigests : ((rankMetricShifts window [latency] policy).toOption.any fun result =>
      decide ((messages result).map Sha256.digest).Nodup) = true := by decide +kernel
  obtain ⟨result, hrank⟩ : ∃ result, rankMetricShifts window [latency] policy = .ok result :=
    exists_of_isOk (by decide +kernel)
  rw [hrank] at hdigests
  have hfree := collisionFree_of_nodup (of_decide_eq_true hdigests)
  -- the ledger of the signal
  obtain ⟨hevals, -⟩ := rank_evaluations hrank
  obtain ⟨entries, hmap, -, hcompile⟩ := compile_rank tenant_ok incident_ok run_ok (by decide)
    policy_ok (fun item hitem => keys_ok item (by simp_all)) (by decide) (fun _ => two_lt_limit)
    hrank
  obtain ⟨hvalid, -⟩ := compile_eq_ok hcompile
  have hsome : entries ≠ [] := by
    rintro rfl
    have hkeys := hevals.keys.length_eq
    rw [← hmap] at hkeys
    simp at hkeys
  have hmetric : MetricEvidenceLedger.messages ⟨SCHEMA_VERSION, tenant, incident, run, window, policy,
      expectedDecision policy (rankedCandidates result.signalEvaluations), entries⟩ ⊆
      {m | m ∈ messages result} := by
    intro m hm
    obtain ⟨e, he, hm⟩ := hm
    refine List.mem_append_left _ (List.mem_filterMap.mpr ⟨e.evaluation, ?_, hm⟩)
    rw [← hmap]
    exact List.mem_map_of_mem he
  obtain ⟨checkout, hcheckout, hcheckoutEvent, hcheckoutMessages⟩ :=
    rollout_ledger List.mem_cons_self result
  obtain ⟨cart, hcart, hcartEvent, hcartMessages⟩ :=
    rollout_ledger (List.mem_cons_of_mem _ List.mem_cons_self) result
  obtain ⟨hsignals, hchanges, hacross⟩ := evidence_ids_bind_content (F := ExactFloat) hfree
  refine ⟨_, checkout, cart, hsome, hcheckoutEvent, hcartEvent,
    hfree.mono (Set.union_subset hmetric (Set.union_subset hcheckoutMessages hcartMessages)), ?_, ?_, ?_⟩
  · exact (hsignals _ _ _ _ hvalid hvalid hmetric hmetric).2 hsome rfl
  · intro e he e' he' hid
    obtain ⟨-, rfl⟩ := (hchanges _ _ _ _ hcheckout hcart hcheckoutMessages hcartMessages).1 e he e' he' hid
    have hfirst : e.event ∈ [checkoutRollout] := hcheckoutEvent ▸ List.mem_map_of_mem he
    have hsecond : e.event ∈ [cartRollout] := hcartEvent ▸ List.mem_map_of_mem he'
    rw [List.mem_singleton.mp hfirst] at hsecond
    exact absurd (List.mem_singleton.mp hsecond) (by decide)
  · exact hacross _ _ _ _ hvalid hcheckout hmetric hcheckoutMessages

end IncidentEvidence
