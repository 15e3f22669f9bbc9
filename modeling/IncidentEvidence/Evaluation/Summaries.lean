import IncidentEvidence.Evaluation.Preparation

/-! # Summaries do not depend on an order

    `evaluate_batch` walks the cases in their order, the event loop completes the provider
    calls in another, and the labels come from a sidecar in a third. When no case raises,
    none of the three shows in the summary (`summary_order_independent`).

    A sidecar may name a case twice. Then the last label wins, so what is asked of the
    sidecar is one label for each case (`OneLabel`). -/

namespace IncidentEvidence

open Py Gather

/-! ### Loops -/

/-- Predicting all cases first and scoring them then is scoring each. -/
theorem mapM_zip {α β γ ε : Type} {f : α → Except ε β} {g : α → β → Except ε γ} {l : List α}
    {l' : List β} (h : l.mapM f = .ok l') :
    ((l.zip l').mapM fun (a, b) => g a b) = l.mapM fun a => f a >>= g a := by
  induction l generalizing l' with
  | nil =>
    obtain rfl : l' = [] := by simpa using h
    rfl
  | cons a l ih =>
    rw [List.mapM_cons, bind_eq_ok] at h
    obtain ⟨b, hb, h⟩ := h
    rw [bind_eq_ok] at h
    obtain ⟨rest, hrest, hcons⟩ := h
    obtain rfl := pure_eq_ok.mp hcons
    rw [List.zip_cons_cons, List.mapM_cons, List.mapM_cons, ih hrest, hb]
    rfl

/-- Loops over permuted lists return permuted results. -/
theorem mapM_perm {α β ε : Type} {f : α → Except ε β} {l l' : List α} {r : List β}
    (h : l.mapM f = .ok r) (hperm : l'.Perm l) : ∃ r', l'.mapM f = .ok r' ∧ r'.Perm r := by
  obtain ⟨r', hturns, hr⟩ := List.perm_comp_forall₂ hperm (mapM_eq_ok.mp h)
  exact ⟨r', mapM_eq_ok.mpr hturns, hr⟩

/-! ### Labels -/

/-- Entries about one case name the same service. -/
def OneLabel (entries : List SidecarEntry) : Prop :=
  ∀ e ∈ entries, ∀ e' ∈ entries, e.caseId = e'.caseId → e.rootCauseService = e'.rootCauseService

theorem get?_foldl_set {entries : List SidecarEntry} {truth : Dict CaseId Str} {id : CaseId}
    {label : Str} (hlabel : ∀ e ∈ entries, e.caseId = id → e.rootCauseService = label)
    (hpresent : (∃ e ∈ entries, e.caseId = id) ∨ truth.get? id = some label) :
    (entries.foldl (fun truth entry => truth.set entry.caseId entry.rootCauseService)
      truth).get? id = some label := by
  induction entries generalizing truth with
  | nil =>
    rcases hpresent with ⟨e, he, -⟩ | htruth
    · exact absurd he List.not_mem_nil
    · exact htruth
  | cons entry entries ih =>
    obtain ⟨hhead, hrest⟩ := List.forall_mem_cons.mp hlabel
    rw [List.foldl_cons]
    apply ih hrest
    by_cases hid : entry.caseId = id
    · right
      rw [Dict.get?_set, if_pos hid.symm, hhead hid]
    · rcases hpresent with ⟨e, he, heq⟩ | htruth
      · rcases List.mem_cons.mp he with rfl | he
        · exact absurd heq hid
        · exact .inl ⟨e, he, heq⟩
      · right
        rw [Dict.get?_set, if_neg fun heq => hid heq.symm]
        exact htruth

/-- With one label for each case, the label of a case is read off any of its entries. -/
theorem get?_groundTruth {entries : List SidecarEntry} (hone : OneLabel entries) {e : SidecarEntry}
    (he : e ∈ entries) : (groundTruth entries).get? e.caseId = some e.rootCauseService :=
  get?_foldl_set (fun e' he' hid => hone e' he' e he hid) (.inl ⟨e, he, rfl⟩)

section predictions
variable {F : Type} [PyFloat F] [FloatHex F] [Sha256] (H : Harness F) (arm : Arm)
  (client : LLMClient)

/-- What an arm makes of a case alone. -/
def Harness.predict (case : InvestigationCase F) : Except PyException Prediction :=
  match arm with
  | .baseline => predictServicesBaseline H case
  | .gemini => predictServicesWithLlm H client case

/-- The score of a case alone. -/
def Harness.scoreOf (truth : Dict CaseId Str) (case : InvestigationCase F) :
    Except PyException CaseScore := do
  let prediction ← H.predict arm client case
  scorePrediction truth case prediction

/-! ### The coroutine of a case -/

variable {H client}

/-- An attempt that decides nothing is not the last one. -/
theorem lt_of_attempt {prepared : PreparedCase F} {attempt : ℕ}
    (h : H.attempt client prepared attempt = .ok none) : attempt < MAX_PROVIDER_RETRIES := by
  unfold Harness.attempt at h
  cases hanswer : client prepared.request attempt with
  | ok proposal =>
    rw [hanswer] at h
    obtain ⟨prediction, -, hnone⟩ := map_eq_ok.mp h
    exact absurd hnone (by simp)
  | error e =>
    rw [hanswer] at h
    cases e with
    | llm e =>
      by_cases hlast : e.isValidation = true ∨ MAX_PROVIDER_RETRIES ≤ attempt
      · simp [hlast] at h
      · exact not_le.mp fun hle => hlast (.inr hle)
    | _ => exact absurd h (by simp)

theorem resume_of_attempt {prepared : PreparedCase F} {attempt : ℕ} {decided : Option Prediction}
    (h : H.attempt client prepared attempt = .ok decided) :
    (predictCoroutine H client).resume (prepared, attempt) =
      .ok (decided.elim (.inl (prepared, attempt + 1)) .inr) := by
  show (H.attempt client prepared attempt >>= _) = _
  rw [h]
  cases decided with
  | some prediction => rfl
  | none => rfl

/-- The retry loop and the coroutine take the same turns. -/
theorem returns_of_attempts {prepared : PreparedCase F} {left attempt : ℕ} {prediction : Prediction}
    (hleft : attempt + left = MAX_PROVIDER_RETRIES + 1) (hpositive : 0 < left)
    (h : H.attempts client prepared left attempt = .ok prediction) :
    ∃ turns ≤ left,
      Returns (predictCoroutine H client) (.suspended (prepared, attempt)) turns prediction := by
  induction left generalizing attempt with
  | zero => exact absurd hpositive (lt_irrefl 0)
  | succ left ih =>
    rw [Harness.attempts, bind_eq_ok] at h
    obtain ⟨decided, hattempt, h⟩ := h
    have hresume := resume_of_attempt hattempt
    cases decided with
    | some decided =>
      obtain rfl : prediction = decided := pure_eq_ok.mp h
      refine ⟨1, by omega, .suspended ?_⟩
      rw [hresume]
      exact .done prediction
    | none =>
      -- another attempt is left, since this one was not the last
      have hbefore := lt_of_attempt hattempt
      obtain ⟨turns, hturns, hreturns⟩ := ih (by omega) (by omega) h
      refine ⟨turns + 1, by omega, .suspended ?_⟩
      rw [hresume]
      exact hreturns

/-- A case that does not raise returns its prediction after at most seven turns. -/
theorem returns_of_predict {case : InvestigationCase F} {prediction : Prediction}
    (h : predictServicesWithLlm H client case = .ok prediction) :
    ∃ turns ≤ MAX_PROVIDER_RETRIES + 2,
      Returns (predictCoroutine H client) (.waiting case) turns prediction := by
  unfold predictServicesWithLlm at h
  rw [bind_eq_ok] at h
  obtain ⟨prepared, hprepare, hattempts⟩ := h
  obtain ⟨turns, hturns, hreturns⟩ := returns_of_attempts (by omega) (by omega) hattempts
  refine ⟨turns + 1, by omega, .waiting ?_⟩
  have hstart : (predictCoroutine H client).start case = .ok (.inl (prepared, 0)) := by
    show (H.prepare case >>= _) = _
    rw [hprepare]
    rfl
  rw [hstart]
  exact hreturns

theorem return_of_cases {cases : List (InvestigationCase F)}
    (h : ∀ case ∈ cases, ∃ prediction, predictServicesWithLlm H client case = .ok prediction) :
    ∃ ends, Return (predictCoroutine H client) (cases.map .waiting) ends ∧
      cases.mapM (predictServicesWithLlm H client) = .ok (values ends) ∧
      turnsLeft ends ≤ (MAX_PROVIDER_RETRIES + 2) * cases.length := by
  induction cases with
  | nil => exact ⟨[], .nil, rfl, le_refl _⟩
  | cons case cases ih =>
    obtain ⟨⟨prediction, hpredict⟩, hrest⟩ := List.forall_mem_cons.mp h
    obtain ⟨turns, hturns, hreturns⟩ := returns_of_predict hpredict
    obtain ⟨ends, hends, hpredictions, hleft⟩ := ih hrest
    refine ⟨(turns, prediction) :: ends, .cons hreturns hends, ?_, ?_⟩
    · rw [List.mapM_cons, hpredict, hpredictions]
      rfl
    · simp only [turnsLeft, List.map_cons, List.sum_cons, List.length_cons] at hleft ⊢
      rw [Nat.mul_succ]
      omega

/-! ### Scores -/

variable {arm}

variable (arm) in
/-- No case of the batch raises. -/
def NoCaseRaises (H : Harness F) (client : LLMClient) (batch : EvaluationBatch F) : Prop :=
  ∀ case ∈ batch.cases, ∃ prediction, H.predict arm client case = .ok prediction

/-- The batch is summarised from the scores of its cases, whenever the schedule completes. -/
theorem evaluateBatch_eq {batch : EvaluationBatch F} (hraises : NoCaseRaises arm H client batch)
    {concurrency : Int} (hconcurrency : 1 ≤ concurrency) {schedule : List ℕ}
    {result : Except PyException EvaluationSummary}
    (h : evaluateBatch H arm (some client) none concurrency batch schedule = some result) :
    result = (aggregate <$>
      batch.cases.mapM (H.scoreOf arm client (groundTruth batch.entries))) := by
  have hlimit : ¬ concurrency < 1 := not_lt.mpr hconcurrency
  simp only [evaluateBatch, Option.isNone_some, Bool.false_eq_true, and_false, if_false, hlimit] at h
  cases arm with
  | baseline =>
    obtain rfl := Option.some.inj h
    rw [map_eq_pure_bind]
    rfl
  | gemini =>
    obtain ⟨ends, hends, hpredictions, -⟩ := return_of_cases hraises
    obtain ⟨predictions, hgather, rfl⟩ := Option.map_eq_some_iff.mp h
    rw [gather_eq hends hgather]
    have hscores : ((batch.cases.zip (values ends)).mapM fun x =>
        scorePrediction (groundTruth batch.entries) x.1 x.2) = _ :=
      mapM_zip (g := scorePrediction (groundTruth batch.entries)) hpredictions
    show (((batch.cases.zip (values ends)).mapM fun x =>
      scorePrediction (groundTruth batch.entries) x.1 x.2) >>= _) = _
    rw [hscores, map_eq_pure_bind]
    rfl

/-- The event loop completes a batch whose cases do not raise, however it began. -/
theorem exists_schedule {batch : EvaluationBatch F} (hraises : NoCaseRaises .gemini H client batch)
    {concurrency : Int} (hconcurrency : 1 ≤ concurrency) {schedule : List ℕ}
    {tasks : List (Task (InvestigationCase F) (PreparedCase F × ℕ) PyException Prediction)}
    (hrun : run (predictCoroutine H client) concurrency.toNat (batch.cases.map .waiting) schedule =
      some tasks) :
    schedule.length ≤ (MAX_PROVIDER_RETRIES + 2) * batch.cases.length ∧
      ∃ rest, (evaluateBatch H .gemini (some client) none concurrency batch
        (schedule ++ rest)).isSome = true := by
  have hlimit : ¬ concurrency < 1 := not_lt.mpr hconcurrency
  obtain ⟨ends, hends, -, hturns⟩ := return_of_cases hraises
  obtain ⟨hlength, rest, hgather⟩ := exists_gather_of_run hends (by omega) hrun
  refine ⟨hlength.trans hturns, rest, ?_⟩
  simp only [evaluateBatch, Option.isNone_some, Bool.false_eq_true, and_false, if_false, hlimit,
    hgather, Option.map_some, Option.isSome_some]

/-- A case with a label that does not raise has a score. -/
theorem exists_score {truth : Dict CaseId Str} {case : InvestigationCase F} {label : Str}
    (htruth : truth.get? case.caseId = some label) {prediction : Prediction}
    (hpredict : H.predict arm client case = .ok prediction) :
    ∃ score, H.scoreOf arm client truth case = .ok score ∧ score.Consistent := by
  have hcount : ¬ (prediction.invalidEvidenceIdCount : Int) < 0 := by omega
  have hscore : H.scoreOf arm client truth case =
      scoreCase prediction.services label prediction.abstained
        prediction.invalidEvidenceIdCount := by
    unfold Harness.scoreOf scorePrediction
    rw [hpredict, htruth]
    rfl
  obtain ⟨score, hok⟩ : ∃ score, scoreCase prediction.services label prediction.abstained
      prediction.invalidEvidenceIdCount = .ok score := by
    unfold scoreCase
    rw [if_neg hcount]
    exact ⟨_, rfl⟩
  exact ⟨score, hscore.trans hok, scoreCase_consistent hok⟩

end predictions

/-- Every case has an entry in the sidecar. -/
def EvaluationBatch.Labelled {F : Type} [PyFloat F] (batch : EvaluationBatch F) : Prop :=
  ∀ case ∈ batch.cases, ∃ e ∈ batch.entries, e.caseId = case.caseId

/-- **A summary is independent of every order, and consistent.** There is one summary for a
    labelled batch: that of every permutation of its cases and of its sidecar, under every
    concurrency and every order in which the calls complete; and the calls do complete. -/
theorem summary_order_independent {F : Type} [PyFloat F] [FloatHex F] [Sha256] (H : Harness F)
    (arm : Arm) (client : LLMClient) {batch : EvaluationBatch F} (hlabelled : batch.Labelled)
    (hone : OneLabel batch.entries) (hraises : NoCaseRaises arm H client batch) :
    ∃ summary : EvaluationSummary, summary.Coherent ∧
      ∀ batch' : EvaluationBatch F, batch'.cases.Perm batch.cases →
        batch'.entries.Perm batch.entries → ∀ concurrency : Int, 1 ≤ concurrency →
        (∀ schedule result,
          evaluateBatch H arm (some client) none concurrency batch' schedule = some result →
            result = .ok summary) ∧
        (arm = .baseline → ∀ schedule,
          evaluateBatch H arm (some client) none concurrency batch' schedule =
            some (.ok summary)) ∧
        (arm = .gemini → ∀ schedule tasks,
          run (predictCoroutine H client) concurrency.toNat (batch'.cases.map .waiting) schedule =
            some tasks →
          schedule.length ≤ (MAX_PROVIDER_RETRIES + 2) * batch'.cases.length ∧
          ∃ rest, evaluateBatch H arm (some client) none concurrency batch' (schedule ++ rest) =
            some (.ok summary)) := by
  have hscores : ∀ case ∈ batch.cases, ∃ score,
      H.scoreOf arm client (groundTruth batch.entries) case = .ok score ∧ score.Consistent := by
    intro case hcase
    obtain ⟨e, he, hid⟩ := hlabelled case hcase
    obtain ⟨prediction, hpredict⟩ := hraises case hcase
    exact exists_score (hid ▸ get?_groundTruth hone he) hpredict
  obtain ⟨scores, hloop⟩ : ∃ scores,
      batch.cases.mapM (H.scoreOf arm client (groundTruth batch.entries)) = .ok scores := by
    apply exists_mapM_eq_ok.mpr
    intro case hcase
    obtain ⟨score, hscore, -⟩ := hscores case hcase
    exact ⟨score, hscore⟩
  have hconsistent : ∀ score ∈ scores, score.Consistent := by
    intro score hscore
    obtain ⟨i, hi, rfl⟩ := List.getElem_of_mem hscore
    have hturns := mapM_eq_ok.mp hloop
    have hi' : i < batch.cases.length := hturns.length_eq ▸ hi
    obtain ⟨score, hscore, hok⟩ := hscores _ (List.getElem_mem hi')
    have hsame : scores[i] = score := Except.ok.inj ((hturns.get hi' hi).symm.trans hscore)
    rw [hsame]
    exact hok
  refine ⟨aggregate scores, aggregate_coherent hconsistent, ?_⟩
  intro batch' hcases hentries concurrency hconcurrency
  have hraises' : NoCaseRaises arm H client batch' :=
    fun case hcase => hraises case (hcases.mem_iff.mp hcase)
  have hone' : OneLabel batch'.entries := fun e he e' he' =>
    hone e (hentries.mem_iff.mp he) e' (hentries.mem_iff.mp he')
  -- a case finds the same label in either sidecar
  have hscoreOf : ∀ case ∈ batch'.cases, H.scoreOf arm client (groundTruth batch'.entries) case =
      H.scoreOf arm client (groundTruth batch.entries) case := by
    intro case hcase
    obtain ⟨e, he, hid⟩ := hlabelled case (hcases.mem_iff.mp hcase)
    have htruth := get?_groundTruth hone he
    have htruth' := get?_groundTruth hone' (hentries.mem_iff.mpr he)
    rw [hid] at htruth htruth'
    unfold Harness.scoreOf scorePrediction
    rw [htruth, htruth']
  have hsummary : (aggregate <$> batch'.cases.mapM
      (H.scoreOf arm client (groundTruth batch'.entries))) = .ok (aggregate scores) := by
    obtain ⟨scores', hloop', hperm⟩ := mapM_perm hloop hcases
    rw [mapM_congr hscoreOf, hloop']
    exact congrArg Except.ok (aggregate_perm hperm)
  have hreturned : ∀ schedule result,
      evaluateBatch H arm (some client) none concurrency batch' schedule = some result →
        result = .ok (aggregate scores) := by
    intro schedule result hresult
    rw [evaluateBatch_eq hraises' hconcurrency hresult]
    exact hsummary
  refine ⟨hreturned, ?_, ?_⟩
  · intro hbaseline schedule
    subst hbaseline
    have hlimit : ¬ concurrency < 1 := not_lt.mpr hconcurrency
    cases hresult : evaluateBatch H .baseline (some client) none concurrency batch' schedule with
    | none => simp [evaluateBatch, hlimit] at hresult
    | some result => rw [hreturned schedule result hresult]
  · intro hgemini schedule tasks hrun
    subst hgemini
    obtain ⟨hlength, rest, hcompletes⟩ := exists_schedule hraises' hconcurrency hrun
    obtain ⟨result, hresult⟩ := Option.isSome_iff_exists.mp hcompletes
    refine ⟨hlength, rest, ?_⟩
    rw [hresult, hreturned _ result hresult]

/-! ### A small batch -/

namespace Demo

def harness : Harness ExactFloat := ⟨policy, none, ⟨16, 16⟩⟩

/-- The small incident, as a case. -/
def incidentCase : InvestigationCase ExactFloat :=
  ⟨⟨⟨0x00000000000040008000000000000000, caseId_lt⟩⟩, .OB, window, [latency.signal, errors.signal]⟩

theorem otherCaseId_lt : 0x00000000000040008000000000000001 < 2 ^ 128 := by decide

/-- An entry that names a service for the case. -/
def labelFor (service : Str) : SidecarEntry :=
  ⟨incidentCase.caseId, .OB, [], service, [], [], []⟩

/-- The case, with entries that name these services for it. -/
def labelledWith (services : List Str) : EvaluationBatch ExactFloat :=
  ⟨[incidentCase], services.map labelFor, 0⟩

/-- A client whose every answer is rejected. -/
def rejected : LLMClient := fun _ _ => .error (.llm .emptyProposal)

/-- Another case with the same signals. -/
def otherCase : InvestigationCase ExactFloat :=
  { incidentCase with caseId := ⟨⟨0x00000000000040008000000000000001, otherCaseId_lt⟩⟩ }

theorem case_prepared (id : CaseId) :
    ∃ prepared, harness.prepare { incidentCase with caseId := id } = .ok prepared := by
  apply case_is_prepared
  · show window.Valid
    decide
  · exact policy_ok
  · exact ScaleFloorPolicy.default_valid
  · intro signal hsignal
    simp only [incidentCase, List.mem_cons, List.not_mem_nil, or_false] at hsignal
    rcases hsignal with rfl | rfl
    · exact encodable_str _
    · exact encodable_str _
  · show [latency.signal.key, errors.signal.key].Nodup
    decide
  · show 2 ≤ maxsize
    decide
  · exact two_lt_limit

theorem rejected_abstains (id : CaseId) :
    predictServicesWithLlm harness rejected { incidentCase with caseId := id } = .ok .abstention := by
  obtain ⟨prepared, hprepared⟩ := case_prepared id
  unfold predictServicesWithLlm
  rw [hprepared]
  rfl

theorem labelled_labelledWith {services : List Str} (h : services ≠ []) :
    (labelledWith services).Labelled := by
  obtain ⟨service, hservice⟩ := List.exists_mem_of_ne_nil services h
  intro case hcase
  obtain rfl := List.mem_singleton.mp hcase
  exact ⟨labelFor service, List.mem_map_of_mem hservice, rfl⟩

/-- The share of first places in a summary of the baseline. -/
def baselineTop1 (services : List Str) : Option (Option ℚ) :=
  (evaluateBatch harness .baseline (some rejected) none 1 (labelledWith services) []).map
    fun result => result.toOption.map (·.top1Accuracy)

def otherLabel : SidecarEntry :=
  { labelFor (str "checkout.errors") with caseId := otherCase.caseId }

def twoCases : EvaluationBatch ExactFloat :=
  ⟨[incidentCase, otherCase], [labelFor (str "checkout.latency"), otherLabel], 0⟩

/-- The same cases and entries in another order. -/
def swappedCases : EvaluationBatch ExactFloat :=
  ⟨[otherCase, incidentCase], [otherLabel, labelFor (str "checkout.latency")], 0⟩

theorem labelled_twoCases : twoCases.Labelled := by
  intro case hcase
  simp only [twoCases, List.mem_cons, List.not_mem_nil, or_false] at hcase
  rcases hcase with rfl | rfl
  · exact ⟨_, List.mem_cons_self, rfl⟩
  · exact ⟨_, List.mem_cons_of_mem _ List.mem_cons_self, rfl⟩

theorem oneLabel_twoCases : OneLabel twoCases.entries := by
  have hne : incidentCase.caseId ≠ otherCase.caseId := by decide
  intro e he e' he' hid
  simp only [twoCases, List.mem_cons, List.not_mem_nil, or_false] at he he'
  rcases he with rfl | rfl
  · rcases he' with rfl | rfl
    · rfl
    · exact absurd hid hne
  · rcases he' with rfl | rfl
    · exact absurd hid hne.symm
    · rfl

/-- Neither arm raises: the signals can be ranked, and the client's answers are rejected. -/
theorem noCaseRaises_twoCases (arm : Arm) : NoCaseRaises arm harness rejected twoCases := by
  intro case hcase
  simp only [twoCases, List.mem_cons, List.not_mem_nil, or_false] at hcase
  cases arm with
  | baseline =>
    rcases hcase with rfl | rfl
    · exact exists_of_isOk (by decide +kernel)
    · exact exists_of_isOk (by decide +kernel)
  | gemini =>
    rcases hcase with rfl | rfl
    · exact ⟨_, rejected_abstains _⟩
    · exact ⟨_, rejected_abstains _⟩

end Demo

open Demo in
/-- Two cases have one summary in each arm, in either order, one at a time or both at once. -/
theorem summary_order_independent_demo : ∃ baseline gemini : EvaluationSummary,
    baseline.Coherent ∧ gemini.Coherent ∧
      evaluateBatch harness .baseline (some rejected) none 1 twoCases [] = some (.ok baseline) ∧
      evaluateBatch harness .baseline (some rejected) none 2 swappedCases [] = some (.ok baseline) ∧
      (∃ schedule, evaluateBatch harness .gemini (some rejected) none 1 twoCases schedule =
        some (.ok gemini)) ∧
      ∃ schedule, evaluateBatch harness .gemini (some rejected) none 2 swappedCases schedule =
        some (.ok gemini) := by
  have hevery := fun arm => summary_order_independent harness arm rejected labelled_twoCases
    oneLabel_twoCases (noCaseRaises_twoCases arm)
  have hcases : swappedCases.cases.Perm twoCases.cases := List.Perm.swap _ _ _
  have hentries : swappedCases.entries.Perm twoCases.entries := List.Perm.swap _ _ _
  obtain ⟨baseline, hbaseline, hranked⟩ := hevery .baseline
  obtain ⟨gemini, hgemini, hasked⟩ := hevery .gemini
  obtain ⟨-, -, hone⟩ := hasked twoCases (List.Perm.refl _) (List.Perm.refl _) 1 (le_refl 1)
  obtain ⟨-, -, htwo⟩ := hasked swappedCases hcases hentries 2 (by decide)
  exact ⟨baseline, gemini, hbaseline, hgemini,
    (hranked twoCases (List.Perm.refl _) (List.Perm.refl _) 1 (le_refl 1)).2.1 rfl [],
    (hranked swappedCases hcases hentries 2 (by decide)).2.1 rfl [],
    (hone rfl [] _ rfl).2, (htwo rfl [] _ rfl).2⟩

open Demo in
/-- A sidecar that labels a case twice: which of its entries comes last decides the
    summary. -/
theorem twice_labelled_depends_on_order :
    ∃ batch batch' : EvaluationBatch ExactFloat, (batch.cases.map (·.caseId)).Nodup ∧
      batch.Labelled ∧ NoCaseRaises .baseline harness rejected batch ∧
      batch'.cases.Perm batch.cases ∧ batch'.entries.Perm batch.entries ∧
      evaluateBatch harness .baseline (some rejected) none 1 batch [] ≠
        evaluateBatch harness .baseline (some rejected) none 1 batch' [] := by
  refine ⟨labelledWith [str "checkout.latency", str "checkout.errors"],
    labelledWith [str "checkout.errors", str "checkout.latency"], by decide,
    labelled_labelledWith (by simp), ?_, List.Perm.refl _, List.Perm.swap _ _ _, ?_⟩
  · intro case hcase
    obtain rfl := List.mem_singleton.mp hcase
    have hok : (predictServicesBaseline harness incidentCase).isOk = true := by decide +kernel
    exact exists_of_isOk hok
  · intro heq
    have hfirst : baselineTop1 [str "checkout.latency", str "checkout.errors"] =
        some (some 0) := by decide +kernel
    have hsecond : baselineTop1 [str "checkout.errors", str "checkout.latency"] =
        some (some 1) := by decide +kernel
    unfold baselineTop1 at hfirst hsecond
    rw [heq, hsecond] at hfirst
    exact absurd hfirst (by decide)

end IncidentEvidence
