import IncidentEvidence.Evaluation.TypedFailures
import IncidentEvidence.Py.ExactHex

/-! # Loading a batch of cases

    The loop of `RcaevalAdapter._load` over the discovered cases, with
    `unique_case_id`. Writing the sidecar to a replay destination is left out.

    The main result says when the case parser fails typed, and what that means for
    a batch that skips the cases it cannot parse (`case_failures_typed_iff`).
-/

namespace IncidentEvidence

open Py

/-! ### Case identifiers -/

/-- `case_id.value.version == 4`; only the RFC 4122 variant has a version. -/
def CaseId.isVersion4 (id : CaseId) : Bool :=
  id.value.int.testBit 63 && !id.value.int.testBit 62 && id.value.int / 2 ^ 76 % 16 == 4

section batch
variable {σ : Type} (factory : σ → Option CaseId × σ)

/-- `unique_case_id` with the attempts that are left. The factory draws from a state, and
    yields `none` when it raises or returns something else. -/
def uniqueCaseId (assigned : List CaseId) : Nat → σ → Except LoaderException (CaseId × σ)
  | 0, _ => .error (.rcaeval ⟨.caseIdCollision, none⟩)
  | attempts + 1, s =>
    match factory s with
    | (none, _) => .error (.rcaeval ⟨.invalidCaseId, none⟩)
    | (some id, s) =>
      if id.isVersion4 = false then .error (.rcaeval ⟨.invalidCaseId, none⟩)
      else if id ∉ assigned then .ok (id, s)
      else uniqueCaseId assigned attempts s

/-- The identifiers of the next cases, and the state of the factory after them. -/
def drawIds : Nat → List CaseId → σ → Except LoaderException (List CaseId)
  | 0, _, _ => .ok []
  | n + 1, assigned, s => do
    let (id, s) ← uniqueCaseId factory assigned 8 s
    let ids ← drawIds n (id :: assigned) s
    return id :: ids

/-! ### The loop -/

inductive RcaevalSplit where
  | OB
  | SS
  | TT
  deriving DecidableEq

/-- `discovery.DiscoveredCase`, with what is at its two paths. -/
structure DiscoveredCase where
  metricFile : Option File
  injectionFile : Option File
  sourceLocator : Str
  rootCauseService : Str
  injectedFaultType : Str
  repetition : Str

structure SidecarEntry where
  caseId : CaseId
  split : RcaevalSplit
  sourceLocator : Str
  rootCauseService : Str
  injectedFaultType : Str
  repetition : Str
  answerLabels : List Str

variable (F : Type) [PyFloat F]

structure InvestigationCase where
  caseId : CaseId
  split : RcaevalSplit
  window : IncidentWindow
  signals : List (MetricSignal F)

/-- `EvaluationBatch`, with the entries of its sidecar. -/
structure EvaluationBatch where
  cases : List (InvestigationCase F)
  entries : List SidecarEntry
  skippedCaseCount : Nat

variable {F} (C : Platform F) (limits : LoaderLimits) (split : RcaevalSplit)

def DiscoveredCase.parse (source : DiscoveredCase) (caseId : CaseId) :
    Except LoaderException (ParsedCase F) :=
  parseCase C limits source.metricFile source.injectionFile caseId

def DiscoveredCase.entry (source : DiscoveredCase) (caseId : CaseId) : SidecarEntry where
  caseId := caseId
  split := split
  sourceLocator := source.sourceLocator
  rootCauseService := source.rootCauseService
  injectedFaultType := source.injectedFaultType
  repetition := source.repetition
  answerLabels := [source.rootCauseService, source.injectedFaultType]

/-- The loop of `_load`. -/
def loadCases (skipUnparsableCases : Bool) : List DiscoveredCase → List CaseId → σ →
    Except LoaderException (EvaluationBatch F)
  | [], _, _ => .ok ⟨[], [], 0⟩
  | source :: sources, assigned, s => do
    let (caseId, s) ← uniqueCaseId factory assigned 8 s
    match source.parse C limits caseId with
    | .ok parsed =>
      let batch ← loadCases skipUnparsableCases sources (caseId :: assigned) s
      return ⟨⟨caseId, split, parsed.window, parsed.signals⟩ :: batch.cases,
        source.entry split caseId :: batch.entries, batch.skippedCaseCount⟩
    | .error e =>
      if e.isLoadError = true ∧ skipUnparsableCases = true then
        let batch ← loadCases skipUnparsableCases sources (caseId :: assigned) s
        return { batch with skippedCaseCount := batch.skippedCaseCount + 1 }
      else .error e

/-! ### What a batch raises and holds -/

variable {factory C limits split}

/-- Drawing an identifier raises only load errors. -/
theorem raises_uniqueCaseId {assigned : List CaseId} {attempts : Nat} {s : σ} :
    ¬ Raises Escapes (uniqueCaseId factory assigned attempts s) := by
  fun_induction uniqueCaseId factory assigned attempts s <;> simp_all

/-- One turn of a batch that skips what it cannot parse. -/
theorem loadCases_cons {source : DiscoveredCase} {sources : List DiscoveredCase}
    {assigned : List CaseId} {s s' : σ} {id : CaseId}
    (hdraw : uniqueCaseId factory assigned 8 s = .ok (id, s')) :
    loadCases factory C limits split true (source :: sources) assigned s =
      match source.parse C limits id with
      | .ok parsed =>
        loadCases factory C limits split true sources (id :: assigned) s' >>= fun batch =>
          pure ⟨⟨id, split, parsed.window, parsed.signals⟩ :: batch.cases,
            source.entry split id :: batch.entries, batch.skippedCaseCount⟩
      | .error e =>
        if e.isLoadError = true then
          loadCases factory C limits split true sources (id :: assigned) s' >>= fun batch =>
            pure { batch with skippedCaseCount := batch.skippedCaseCount + 1 }
        else .error e := by
  rw [loadCases, hdraw]
  show (match source.parse C limits id with | .ok parsed => _ | .error e => _) = _
  cases source.parse C limits id with
  | ok parsed => rfl
  | error e => simp

/-- The case at the front of what is left, or a later one. -/
theorem exists_escaping_cons {source : DiscoveredCase} {sources : List DiscoveredCase}
    {assigned : List CaseId} {s s' : σ} {id : CaseId}
    (hdraw : uniqueCaseId factory assigned 8 s = .ok (id, s')) :
    (∃ before source' after ids caseId, source :: sources = before ++ source' :: after ∧
        drawIds factory (before.length + 1) assigned s = .ok (ids ++ [caseId]) ∧
          CaseEscapes C limits caseId source'.metricFile source'.injectionFile) ↔
      CaseEscapes C limits id source.metricFile source.injectionFile ∨
        ∃ before source' after ids caseId, sources = before ++ source' :: after ∧
          drawIds factory (before.length + 1) (id :: assigned) s' = .ok (ids ++ [caseId]) ∧
            CaseEscapes C limits caseId source'.metricFile source'.injectionFile := by
  have hsucc : ∀ n l, drawIds factory (n + 1) assigned s = .ok l ↔
      ∃ ids, drawIds factory n (id :: assigned) s' = .ok ids ∧ l = id :: ids := by
    intro n l
    simp [drawIds, hdraw, bind, Except.bind, pure, Except.pure]
    cases drawIds factory n (id :: assigned) s' with
    | error e => simp
    | ok ids => simp [eq_comm]
  constructor
  · intro h
    obtain ⟨before, source', after, ids, caseId, hsources, hids, hescapes⟩ := h
    cases before with
    | nil =>
      obtain ⟨rfl, -⟩ := List.cons.inj hsources
      obtain ⟨l, hl, hcons⟩ := (hsucc 0 _).mp hids
      obtain rfl : l = [] := by simpa [drawIds, eq_comm] using hl
      obtain rfl : caseId = id := by
        cases ids with
        | nil => simpa using hcons
        | cons a ids => simp at hcons
      exact .inl hescapes
    | cons first before =>
      obtain ⟨-, rfl⟩ := List.cons.inj hsources
      obtain ⟨l, hl, hcons⟩ := (hsucc _ _).mp hids
      cases ids with
      | nil =>
        -- two identifiers have been drawn
        rw [List.nil_append] at hcons
        obtain ⟨-, rfl⟩ := List.cons.inj hcons
        rw [List.length_cons] at hids hl
        exact absurd hl (by simp [drawIds])
      | cons a ids =>
        obtain ⟨-, rfl⟩ := List.cons.inj hcons
        exact .inr ⟨before, source', after, ids, caseId, rfl, hl, hescapes⟩
  · intro h
    rcases h with h | ⟨before, source', after, ids, caseId, rfl, hids, hescapes⟩
    · exact ⟨[], source, sources, [], id, rfl, (hsucc 0 _).mpr ⟨[], rfl, rfl⟩, h⟩
    · exact ⟨source :: before, source', after, id :: ids, caseId, rfl,
        (hsucc _ _).mpr ⟨_, hids, rfl⟩, hescapes⟩

/-- A batch that skips what it cannot parse raises only when an exception escapes the
    parser at a case it has an identifier for. -/
theorem raises_loadCases {sources : List DiscoveredCase} {assigned : List CaseId} {s : σ} :
    Raises Escapes (loadCases factory C limits split true sources assigned s) ↔
      ∃ before source after ids caseId, sources = before ++ source :: after ∧
        drawIds factory (before.length + 1) assigned s = .ok (ids ++ [caseId]) ∧
          CaseEscapes C limits caseId source.metricFile source.injectionFile := by
  induction sources generalizing assigned s with
  | nil => simp [loadCases]
  | cons source sources ih =>
    cases hdraw : uniqueCaseId factory assigned 8 s with
    | error e =>
      have hload : ¬ Escapes e := by
        intro he
        have hraises : Raises Escapes (uniqueCaseId factory assigned 8 s) := ⟨e, hdraw, he⟩
        exact raises_uniqueCaseId hraises
      constructor
      · intro h
        rw [loadCases, hdraw] at h
        exact absurd (raises_error.mp h) hload
      · intro h
        obtain ⟨before, source', after, ids, caseId, -, hids, -⟩ := h
        rw [drawIds, hdraw] at hids
        exact absurd hids (by simp [bind, Except.bind])
    | ok drawn =>
      obtain ⟨id, s'⟩ := drawn
      rw [exists_escaping_cons hdraw, ← ih, ← raises_parseCase, loadCases_cons hdraw]
      show Raises Escapes _ ↔ Raises Escapes (source.parse C limits id) ∨ _
      cases source.parse C limits id with
      | ok parsed => simp
      | error e =>
        by_cases hload : e.isLoadError = true
        · simp [hload, Escapes]
        · simp [hload, Escapes]

/-- The batch holds the cases that parse, and counts the others. -/
theorem loadCases_eq_ok {sources : List DiscoveredCase} {assigned : List CaseId} {s : σ}
    {batch : EvaluationBatch F}
    (h : loadCases factory C limits split true sources assigned s = .ok batch) :
    ∃ ids, drawIds factory sources.length assigned s = .ok ids ∧
      batch.cases = (sources.zip ids).filterMap (fun (source, id) =>
        (source.parse C limits id).toOption.map fun parsed =>
          ⟨id, split, parsed.window, parsed.signals⟩) ∧
      batch.skippedCaseCount =
        (sources.zip ids).countP fun (source, id) => !(source.parse C limits id).isOk := by
  induction sources generalizing assigned s batch with
  | nil =>
    obtain rfl : ⟨[], [], 0⟩ = batch := by simpa [loadCases] using h
    exact ⟨[], rfl, rfl, rfl⟩
  | cons source sources ih =>
    cases hdraw : uniqueCaseId factory assigned 8 s with
    | error e =>
      rw [loadCases, hdraw] at h
      exact absurd h (by simp [bind, Except.bind])
    | ok drawn =>
      obtain ⟨id, s'⟩ := drawn
      rw [loadCases_cons hdraw] at h
      -- an id is drawn for the case whether it can be parsed or not
      have hids : ∀ ids, drawIds factory sources.length (id :: assigned) s' = .ok ids →
          drawIds factory (source :: sources).length assigned s = .ok (id :: ids) := by
        intro ids hrest
        rw [List.length_cons, drawIds, hdraw]
        show (drawIds factory sources.length (id :: assigned) s' >>= fun ids => pure (id :: ids)) = _
        rw [hrest]
        rfl
      cases hparse : source.parse C limits id with
      | ok parsed =>
        simp only [hparse, bind_eq_ok, pure_eq_ok] at h
        obtain ⟨rest, hrest, rfl⟩ := h
        obtain ⟨ids, hdrawn, hcases, hskipped⟩ := ih hrest
        refine ⟨id :: ids, hids ids hdrawn, ?_, ?_⟩
        · simp [hparse, hcases, Except.toOption]
        · simp [hparse, hskipped, Except.isOk, Except.toBool]
      | error e =>
        simp only [hparse] at h
        -- only a load error skips the case
        by_cases hload : e.isLoadError = true
        · rw [if_pos hload] at h
          simp only [bind_eq_ok, pure_eq_ok] at h
          obtain ⟨rest, hrest, rfl⟩ := h
          obtain ⟨ids, hdrawn, hcases, hskipped⟩ := ih hrest
          refine ⟨id :: ids, hids ids hdrawn, ?_, ?_⟩
          · simp [hparse, hcases, Except.toOption]
          · simp [hparse, hskipped, Except.isOk, Except.toBool]
        · rw [if_neg hload] at h
          exact absurd h (by simp)

end batch

/-- An exception that leaves the computation is a load error. -/
def FailsTyped {α : Type} (x : Except LoaderException α) : Prop :=
  ∀ e, x = .error e → e.isLoadError = true

theorem failsTyped_iff {α : Type} {x : Except LoaderException α} :
    FailsTyped x ↔ ¬ Raises Escapes x := by
  unfold FailsTyped Raises Escapes
  constructor
  · intro h hraises
    obtain ⟨e, he, hfalse⟩ := hraises
    rw [h e he] at hfalse
    exact absurd hfalse (by simp)
  · intro h e he
    by_contra hfalse
    exact h ⟨e, he, by simpa using hfalse⟩

/-- **When the case parser fails typed.** It does unless `gmtime` refuses a time it
    reaches or a limit does not fit a C integer. A batch that skips what it cannot parse
    is aborted by such a case only; otherwise it holds the cases that parse and counts
    the others. -/
theorem case_failures_typed_iff {F : Type} [PyFloat F] (C : Platform F) (limits : LoaderLimits) :
    (∀ metricFile injectionFile caseId,
      FailsTyped (parseCase C limits metricFile injectionFile caseId) ↔
        ¬ CaseEscapes C limits caseId metricFile injectionFile) ∧
    ∀ {σ : Type} (factory : σ → Option CaseId × σ) (split : RcaevalSplit)
      (sources : List DiscoveredCase) (s : σ),
      (FailsTyped (loadCases factory C limits split true sources [] s) ↔
        ∀ before source after ids caseId, sources = before ++ source :: after →
          drawIds factory (before.length + 1) [] s = .ok (ids ++ [caseId]) →
            ¬ CaseEscapes C limits caseId source.metricFile source.injectionFile) ∧
      ∀ batch, loadCases factory C limits split true sources [] s = .ok batch →
        ∃ ids, drawIds factory sources.length [] s = .ok ids ∧
          batch.cases = (sources.zip ids).filterMap (fun (source, id) =>
            (source.parse C limits id).toOption.map fun parsed =>
              ⟨id, split, parsed.window, parsed.signals⟩) ∧
          batch.skippedCaseCount =
            (sources.zip ids).countP fun (source, id) => !(source.parse C limits id).isOk := by
  refine ⟨fun metricFile injectionFile caseId => ?_, fun factory split sources s =>
    ⟨?_, fun batch => loadCases_eq_ok⟩⟩
  · rw [failsTyped_iff, raises_parseCase]
  · rw [failsTyped_iff, raises_loadCases]
    constructor
    · intro h before source after ids caseId hsources hids hescapes
      exact h ⟨before, source, after, ids, caseId, hsources, hids, hescapes⟩
    · intro h hsome
      obtain ⟨before, source, after, ids, caseId, hsources, hids, hescapes⟩ := hsome
      exact h before source after ids caseId hsources hids hescapes

/-! ### A time out of range -/

namespace Demo

/-- A 64-bit platform whose `gmtime` refuses the year 3168808806. -/
def linux : Platform ExactFloat where
  float text := if text = str "1e17" then some (.fin (10 ^ 17)) else none
  fromtimestamp x := if x = .fin (10 ^ 17) then .error .os else .error .value
  fromisoformat _ := none
  longMax := 2 ^ 63 - 1
  ssizeMax := 2 ^ 63 - 34

theorem caseId_lt : 0x00000000000040008000000000000000 < 2 ^ 128 := by decide

def caseId : CaseId := ⟨⟨0x00000000000040008000000000000000, caseId_lt⟩⟩

/-- A metric file with one row, at 1e17 seconds. -/
def farFuture : List UInt8 := "time,x\n1e17,1\n".toUTF8.data.toList

def injectTime : List UInt8 := "0".toUTF8.data.toList

theorem farFuture_reads : ReadsText linux.ssizeMax LoaderLimits.default.maxMetricFileBytes
    (some (.regular farFuture)) (str "time,x\n1e17,1\n") := by
  refine ⟨farFuture, rfl, by decide, by decide, by decide, decodeUtf8Sig_toUTF8 ?_⟩
  decide

theorem farFuture_width :
    WidthAccepted LoaderLimits.default caseId (str "time,x\n1e17,1\n") := by
  have hok : (validateRecordWidth LoaderLimits.default.maxColumns caseId false false 1
      (str "time,x\n1e17,1\n")).isOk = true := by decide
  obtain ⟨u, hu⟩ := exists_of_isOk hok
  exact hu

theorem farFuture_escapes : CaseEscapes linux .default caseId (some (.regular farFuture))
    (some (.regular injectTime)) := by
  have hread : Csv.reader LoaderLimits.default.maxFieldCharacters (str "time,x\n1e17,1\n") =
      ([[str "time", str "x"], [str "1e17", str "1"]], none) := by decide
  have hfails : GmtimeFails linux (str "1e17") :=
    ⟨by decide, by decide, .fin (10 ^ 17), rfl, rfl, by decide⟩
  refine .row farFuture_reads farFuture_width (by decide) ⟨_, _, _, hread, by decide, by decide, ?_⟩
  exact ⟨[], _, [], rfl, ⟨by decide, [], .nil, .nil⟩, by decide, rfl, hfails⟩

/-- The file with a time that `gmtime` refuses aborts the parser with an `OSError`. -/
theorem parse_case_escapes : ¬ FailsTyped (parseCase linux .default (some (.regular farFuture))
    (some (.regular injectTime)) caseId) := by
  rw [failsTyped_iff, not_not, raises_parseCase]
  exact farFuture_escapes

end Demo

end IncidentEvidence
