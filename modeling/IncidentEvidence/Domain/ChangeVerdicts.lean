import IncidentEvidence.Domain.ChangeLedgers
import IncidentEvidence.Domain.Verdicts

/-! # Co-occurrence verdicts from the events

    The pipeline from a list of change events to verdicts (log, compile, verify).
    What a verdict means is said here of the events and the window alone
    (`About`, `Inside`); `change_verdicts_from_events` connects it to what the
    code returns, which classifies each event into a phase when it compiles and
    reads the phase back when it verifies.
-/

namespace IncidentEvidence

open Py ChangeEvidence

/-! ### The meaning of a verdict -/

/-- The half-open region of the window that a constraint names. -/
def ChangePhaseConstraint.Region (window : IncidentWindow) (t : Datetime) :
    ChangePhaseConstraint → Prop
  | .withinWindow => window.start ≤ t ∧ t < window.end
  | .preInjection => window.start ≤ t ∧ t < window.injection
  | .postInjection => window.injection ≤ t ∧ t < window.end

instance (window : IncidentWindow) (t : Datetime) (constraint : ChangePhaseConstraint) :
    Decidable (constraint.Region window t) :=
  match constraint with
  | .withinWindow => inferInstanceAs (Decidable (_ ∧ _))
  | .preInjection => inferInstanceAs (Decidable (_ ∧ _))
  | .postInjection => inferInstanceAs (Decidable (_ ∧ _))

namespace ChangeCooccurrencePredicate

/-- The event has the key and the kind that the predicate names. -/
def About (p : ChangeCooccurrencePredicate) (e : ChangeEvent) : Prop :=
  e.eventKey = p.eventKey ∧ e.kind = p.kind

/-- It also lies in the region that the predicate names. -/
def Inside (p : ChangeCooccurrencePredicate) (window : IncidentWindow) (e : ChangeEvent) : Prop :=
  p.About e ∧ p.phaseConstraint.Region window e.occurredAt

instance (p : ChangeCooccurrencePredicate) : DecidablePred p.About := fun _ =>
  inferInstanceAs (Decidable (_ ∧ _))

instance (p : ChangeCooccurrencePredicate) (window : IncidentWindow) :
    DecidablePred (p.Inside window) := fun _ =>
  inferInstanceAs (Decidable (_ ∧ _))

end ChangeCooccurrencePredicate

/-- What the result of one predicate says about the events, and the entries it cites. -/
structure CooccurrenceJudged (window : IncidentWindow) (events : List ChangeEvent)
    (entries : List ChangeEventEvidence) (p : ChangeCooccurrencePredicate)
    (r : ChangePredicateVerificationResult) : Prop where
  unknown : r.verdict = .unknown ↔ ¬ ∃ e ∈ events, p.About e
  supported : r.verdict = .supported ↔ ∃ e ∈ events, p.Inside window e
  refuted : r.verdict = .refuted ↔
    (∃ e ∈ events, p.About e) ∧ ¬ ∃ e ∈ events, p.Inside window e
  supporting : r.supportingEvidenceIds =
    (entries.filter fun e => p.Inside window e.event).map (·.evidenceId)
  contradicting : r.contradictingEvidenceIds =
    if r.verdict = .refuted then (entries.filter fun e => p.About e.event).map (·.evidenceId) else []

/-- The verdict of a document from those of its children. -/
def Composed (verdicts : List VerificationVerdict) (v : VerificationVerdict) :
    HypothesisComposition → Prop
  | .all => (v = .refuted ↔ .refuted ∈ verdicts) ∧ (v = .supported ↔ ∀ u ∈ verdicts, u = .supported)
  | .any => (v = .supported ↔ .supported ∈ verdicts) ∧ (v = .refuted ↔ ∀ u ∈ verdicts, u = .refuted)

theorem compose_composed (composition : HypothesisComposition)
    (verdicts : List VerificationVerdict) :
    Composed verdicts (compose composition verdicts) composition := by
  -- a verdict that is neither of two is the third
  have hall : ∀ (a b c : VerificationVerdict), (∀ u, u = a ∨ u = b ∨ u = c) → b ∉ verdicts →
      c ∉ verdicts → ∀ u ∈ verdicts, u = a := by
    intro a b c hcases hb hc u hu
    rcases hcases u with h | h | h
    · exact h
    · exact absurd (h ▸ hu) hb
    · exact absurd (h ▸ hu) hc
  cases composition with
  | all =>
    by_cases hrefuted : VerificationVerdict.refuted ∈ verdicts
    · have hnot : ¬ ∀ u ∈ verdicts, u = .supported := fun h => by simpa using h _ hrefuted
      simp [Composed, compose, hrefuted, hnot]
    · by_cases hunknown : VerificationVerdict.unknown ∈ verdicts
      · have hnot : ¬ ∀ u ∈ verdicts, u = .supported := fun h => by simpa using h _ hunknown
        simp [Composed, compose, hrefuted, hunknown, hnot]
      · have hsupported := hall .supported .refuted .unknown (fun u => by cases u <;> simp) hrefuted
          hunknown
        simpa [Composed, compose, hrefuted, hunknown] using hsupported
  | any =>
    by_cases hsupported : VerificationVerdict.supported ∈ verdicts
    · have hnot : ¬ ∀ u ∈ verdicts, u = .refuted := fun h => by simpa using h _ hsupported
      simp [Composed, compose, hsupported, hnot]
    · by_cases hunknown : VerificationVerdict.unknown ∈ verdicts
      · have hnot : ¬ ∀ u ∈ verdicts, u = .refuted := fun h => by simpa using h _ hunknown
        simp [Composed, compose, hsupported, hunknown, hnot]
      · have hrefuted := hall .refuted .supported .unknown (fun u => by cases u <;> simp) hsupported
          hunknown
        simpa [Composed, compose, hsupported, hunknown] using hrefuted

/-! ### Phases and regions -/

/-- **The phase recorded at compilation decides every region.** The injection may be the
    start of the window: then no time is before the injection and inside. -/
theorem phaseSatisfies_iff {window : IncidentWindow} (hwindow : window.Valid) (t : Datetime)
    (constraint : ChangePhaseConstraint) :
    phaseSatisfies (phase t window) constraint = true ↔ constraint.Region window t := by
  obtain ⟨hstart, hinjection⟩ := hwindow
  unfold phase
  by_cases hbefore : t < window.start
  · have hnot : ¬ window.start ≤ t := not_le.mpr hbefore
    have hnot' : ¬ window.injection ≤ t := not_le.mpr (lt_of_lt_of_le hbefore hstart)
    rw [if_pos hbefore]
    cases constraint <;> simp [phaseSatisfies, ChangePhaseConstraint.Region, hnot, hnot']
  · have hin : window.start ≤ t := not_lt.mp hbefore
    rw [if_neg hbefore]
    by_cases hpre : t < window.injection
    · have hend : t < window.end := lt_trans hpre hinjection
      have hnot : ¬ window.injection ≤ t := not_le.mpr hpre
      rw [if_pos hpre]
      cases constraint <;> simp [phaseSatisfies, ChangePhaseConstraint.Region, hin, hpre, hend, hnot]
    · have hpost : window.injection ≤ t := not_lt.mp hpre
      rw [if_neg hpre]
      by_cases hend : t < window.end
      · rw [if_pos hend]
        cases constraint <;>
          simp [phaseSatisfies, ChangePhaseConstraint.Region, hin, hpre, hend, hpost]
      · rw [if_neg hend]
        cases constraint <;> simp [phaseSatisfies, ChangePhaseConstraint.Region, hpre, hend]

/-! ### One predicate -/

/-- **Each predicate is judged by the events of its target.** -/
theorem cooccurrence_judged {window : IncidentWindow} {events : List ChangeEvent}
    {entries : List ChangeEventEvidence} (hwindow : window.Valid)
    (hperm : (entries.map (·.event)).Perm events)
    (hphases : ∀ e ∈ entries, e.phase = phase e.occurredAt window)
    (p : ChangeCooccurrencePredicate) :
    CooccurrenceJudged window events entries p (ChangeEvidence.evaluatePredicate p entries) := by
  have hexists : ∀ {q : ChangeEvent → Prop} [DecidablePred q],
      (∃ e ∈ events, q e) ↔ (entries.filter fun e => q e.event) ≠ [] := by
    intro q _
    simp only [← hperm.mem_iff, List.mem_map, exists_exists_and_eq_and, ne_eq,
      List.filter_eq_nil_iff, decide_eq_true_eq, not_forall, not_not, exists_prop]
  have habout : (entries.filter fun e => e.eventKey = p.eventKey && e.kind = p.kind) =
      entries.filter fun e => p.About e.event := by
    apply List.filter_congr
    intro e _
    rw [Bool.eq_iff_iff]
    simp only [Bool.and_eq_true, decide_eq_true_eq]
    rfl
  have hinside : ((entries.filter fun e => p.About e.event).filter fun e =>
        phaseSatisfies e.phase p.phaseConstraint) =
      entries.filter fun e => p.Inside window e.event := by
    rw [List.filter_filter]
    apply List.filter_congr
    intro e he
    have hregion := phaseSatisfies_iff hwindow e.occurredAt p.phaseConstraint
    rw [← hphases e he] at hregion
    rw [Bool.eq_iff_iff]
    simp only [Bool.and_eq_true, decide_eq_true_eq, hregion]
    exact and_comm
  unfold ChangeEvidence.evaluatePredicate
  simp only [habout, hinside, List.isEmpty_iff, List.map_eq_nil_iff]
  by_cases hnone : (entries.filter fun e => p.About e.event) = []
  -- the target does not occur, so nothing of it lies in the region
  · have hnone' : (entries.filter fun e => p.Inside window e.event) = [] := by
      rw [← hinside, hnone]
      rfl
    rw [if_pos hnone]
    exact ⟨by simp [ChangeEvidence.unknown, hexists, hnone],
      by simp [ChangeEvidence.unknown, hexists, hnone'],
      by simp [ChangeEvidence.unknown, hexists, hnone],
      by simp [ChangeEvidence.unknown, hnone'], by simp [ChangeEvidence.unknown]⟩
  · rw [if_neg hnone]
    by_cases hempty : (entries.filter fun e => p.Inside window e.event) = []
    · rw [if_pos hempty]
      exact ⟨by simp [hexists, hnone], by simp [hexists, hempty], by simp [hexists, hnone, hempty],
        by simp [hempty], by simp⟩
    · rw [if_neg hempty]
      exact ⟨by simp [hexists, hnone], by simp [hexists, hempty], by simp [hexists, hempty],
        by simp, by simp⟩

/-! ### The whole pipeline -/

section pipeline
variable [Sha256] {tenant : TenantId} {incident : IncidentId} {run : RunId} {window : IncidentWindow}

/-- **Co-occurrence verdicts are those of the events.** An accepted log compiles to a
    ledger with one entry for each event, in order. On it a document of another context
    or a causal one is unknown without evidence, while every predicate of a descriptive
    one is judged by the events of its target. -/
theorem change_verdicts_from_events {events : List ChangeEvent} {log : ChangeEventLog}
    (htenant : TextIdentifier.Valid tenant ∧ Encodable tenant.value)
    (hincident : TextIdentifier.Valid incident ∧ Encodable incident.value)
    (hrun : TextIdentifier.Valid run ∧ Encodable run.value) (hwindow : window.Valid)
    (hkeys : ∀ e ∈ events, TextIdentifier.Valid e.eventKey ∧ Encodable e.eventKey.value)
    (hlog : ChangeEventLog.construct events = .ok log) :
    ∃ l, compileChangeEventLedger tenant incident run window log = .ok l ∧
      (l.entries.map (·.event)).Perm events ∧
      (l.entries.map (orderKey ·.event)).Pairwise (· < ·) ∧
      ∀ h : ChangeHypothesisDocument, ∃ result, verifyChangeHypothesis h l = .ok result ∧
        ((h.tenantId ≠ tenant ∨ h.incidentId ≠ incident ∨ h.runId ≠ run ∨
            h.semantics = .causal) →
          result.verdict = .unknown ∧ result.supportingEvidenceIds = [] ∧
            result.contradictingEvidenceIds = [] ∧
            List.Forall₂ (fun p r => r.predicateId = p.predicateId ∧ r.verdict = .unknown ∧
              r.supportingEvidenceIds = [] ∧ r.contradictingEvidenceIds = [])
              h.predicates result.predicateResults) ∧
        (h.tenantId = tenant ∧ h.incidentId = incident ∧ h.runId = run ∧
            h.semantics = .descriptive →
          List.Forall₂ (fun p r => r.predicateId = p.predicateId ∧
            CooccurrenceJudged window events l.entries p r) h.predicates result.predicateResults ∧
            Composed (result.predicateResults.map (·.verdict)) result.verdict h.composition ∧
            result.supportingEvidenceIds =
              result.predicateResults.flatMap (·.supportingEvidenceIds) ∧
            result.contradictingEvidenceIds =
              result.predicateResults.flatMap (·.contradictingEvidenceIds)) := by
  obtain ⟨l, hl⟩ := exists_compileChange htenant hincident hrun hwindow hkeys hlog
  obtain ⟨-, -, rfl⟩ := construct_eq_ok.mp hlog
  obtain ⟨-, -, haccepted, rfl, rfl, rfl, rfl, hmap⟩ := compileChange_eq_ok.mp hl
  -- the log and the compiler both sort, and the order is one of keys
  have hperm : (l.entries.map (·.event)).Perm events := by
    rw [hmap]
    exact (perm_sortedOn _ _).trans (perm_sortedOn _ _)
  refine ⟨l, hl, hperm, haccepted.increasing, ?_⟩
  intro h
  refine ⟨_, verifyChangeHypothesis_eq_ok.mpr ⟨haccepted, rfl⟩, ?_, ?_⟩
  · intro hgated
    -- a gate gives every predicate its reason and no evidence
    cases hgate : documentReason ChangeUnknownReason.contextMismatch .causalClaimNotVerifiable h
        l.tenantId l.incidentId l.runId with
    | none =>
      obtain ⟨⟨ht, hi, hr⟩, hsemantics⟩ := documentReason_eq_none.mp hgate
      simp [ht, hi, hr, hsemantics] at hgated
    | some reason =>
      refine ⟨rfl, ?_, ?_, ?_⟩
      · exact List.flatMap_eq_nil_iff.mpr fun r hr => by
          obtain ⟨p, _, rfl⟩ := List.mem_map.mp hr
          rfl
      · exact List.flatMap_eq_nil_iff.mpr fun r hr => by
          obtain ⟨p, _, rfl⟩ := List.mem_map.mp hr
          rfl
      · simp only [verifyDocument, List.forall₂_map_right_iff, List.forall₂_same]
        exact fun p _ => ⟨rfl, rfl, rfl, rfl⟩
  · rintro ⟨ht, hi, hr, hsemantics⟩
    -- no gate applies: each predicate is evaluated
    have hgate : documentReason ChangeUnknownReason.contextMismatch .causalClaimNotVerifiable h
        l.tenantId l.incidentId l.runId = none :=
      documentReason_eq_none.mpr ⟨⟨ht, hi, hr⟩, hsemantics⟩
    rw [hgate]
    refine ⟨?_, compose_composed _ _, rfl, rfl⟩
    simp only [verifyDocument, List.forall₂_map_right_iff, List.forall₂_same]
    intro p _
    refine ⟨?_, cooccurrence_judged hwindow hperm haccepted.phases p⟩
    unfold ChangeEvidence.evaluatePredicate
    dsimp only
    split
    · rfl
    · split <;> rfl

end pipeline

namespace Demo

/-- A deployment of the checkout before the injection, and one of the cart after it. -/
def deployments : List ChangeEvent :=
  [⟨⟨str "cart"⟩, .deployment, at' 12⟩, ⟨⟨str "checkout"⟩, .deployment, at' 3⟩]

theorem deployments_ok :
    ∀ e ∈ deployments, TextIdentifier.Valid e.eventKey ∧ Encodable e.eventKey.value := by
  intro e he
  simp only [deployments, List.mem_cons, List.not_mem_nil, or_false] at he
  rcases he with rfl | rfl
  · exact ⟨by decide, encodable_str _⟩
  · exact ⟨by decide, encodable_str _⟩

/-- The checkout was deployed before the injection, and so was the cart. -/
def rolloutHypothesis : ChangeHypothesisDocument where
  hypothesisId := str "h-2"
  tenantId := tenant
  incidentId := incident
  runId := run
  semantics := .descriptive
  composition := .any
  predicates := [⟨str "p-1", ⟨str "checkout"⟩, .deployment, .preInjection, p1_notBlank, checkout_valid⟩,
    ⟨str "p-2", ⟨str "cart"⟩, .deployment, .preInjection, p2_notBlank, by decide⟩]
  ok := by decide

end Demo

open Demo in
/-- The checkout was, the cart was not. -/
theorem change_verdicts_from_events_demo : ∃ log l result,
    ChangeEventLog.construct deployments = .ok log ∧
    compileChangeEventLedger tenant incident run window log = .ok l ∧
    verifyChangeHypothesis rolloutHypothesis l = .ok result ∧
    result.predicateResults.map (·.verdict) = [.supported, .refuted] := by
  have hlog : ChangeEventLog.construct deployments = .ok ⟨sortedOn orderKey deployments⟩ :=
    construct_eq_ok.mpr ⟨by decide, by decide, rfl⟩
  have hwindow : window.Valid := by decide
  obtain ⟨l, hl, -, -, hall⟩ := change_verdicts_from_events tenant_ok incident_ok run_ok hwindow
    deployments_ok hlog
  obtain ⟨result, hresult, -, hjudged⟩ := hall rolloutHypothesis
  refine ⟨_, l, result, hlog, hl, hresult, ?_⟩
  obtain ⟨hforall, -⟩ := hjudged ⟨rfl, rfl, rfl, rfl⟩
  simp only [rolloutHypothesis] at hforall
  generalize result.predicateResults = results at hforall
  rcases hforall with _ | ⟨⟨-, hr⟩, _ | ⟨⟨-, hs⟩, _ | _⟩⟩
  rename_i r s
  have hcheckout := hr.supported.mpr (by decide)
  have hcart := hs.refuted.mpr (by decide)
  simp only [List.map_cons, List.map_nil, hcheckout, hcart]

end IncidentEvidence
