import IncidentEvidence.Evaluation.Observations

/-! # Joining cases with labels

    `RcaevalAdapter._load` appends to two lists: a case without labels, and the labels in an
    entry of the sidecar. They are joined by position and by identifier, whatever fails on the
    way (`cases_joined_with_labels`), and no label reaches a case. -/

namespace IncidentEvidence

open Py

section batch
variable {σ F : Type} [PyFloat F] {factory : σ → Option CaseId × σ} {C : Platform F}
  {limits : LoaderLimits} {split : RcaevalSplit}

/-- A discovered directory whose files were parsed under an identifier. -/
structure LoadedCase (C : Platform F) (limits : LoaderLimits) where
  source : DiscoveredCase
  caseId : CaseId
  parsed : ParsedCase F
  parses : source.parse C limits caseId = .ok parsed

/-- What the loop appends to `cases`. -/
def LoadedCase.case (split : RcaevalSplit) (l : LoadedCase C limits) : InvestigationCase F :=
  ⟨l.caseId, split, l.parsed.window, l.parsed.signals⟩

/-- What the loop appends to `entries`. -/
def LoadedCase.entry (split : RcaevalSplit) (l : LoadedCase C limits) : SidecarEntry :=
  l.source.entry split l.caseId

/-- The two directories hold the same files. -/
def SameFiles (a b : DiscoveredCase) : Prop :=
  a.metricFile = b.metricFile ∧ a.injectionFile = b.injectionFile

/-! ### One turn -/

/-- An identifier that is drawn has not been assigned. -/
theorem uniqueCaseId_fresh {assigned : List CaseId} {attempts : ℕ} {s s' : σ} {id : CaseId}
    (h : uniqueCaseId factory assigned attempts s = .ok (id, s')) : id ∉ assigned := by
  induction attempts generalizing s with
  | zero => exact absurd h (by simp [uniqueCaseId])
  | succ attempts ih =>
    rw [uniqueCaseId] at h
    cases hdraw : factory s with
    | mk drawn next =>
      cases drawn with
      | none => simp [hdraw] at h
      | some candidate =>
        simp only [hdraw] at h
        by_cases hversion : candidate.isVersion4 = false
        · rw [if_pos hversion] at h
          exact absurd h (by simp)
        · rw [if_neg hversion] at h
          by_cases hassigned : candidate ∈ assigned
          · -- the factory repeated itself: the next attempt decides
            rw [if_neg (not_not.mpr hassigned)] at h
            exact ih h
          · rw [if_pos hassigned] at h
            obtain ⟨rfl, -⟩ := Prod.mk.inj (Except.ok.inj h)
            exact hassigned

/-- A turn draws an identifier, and appends to both lists or to neither. -/
theorem loadCases_turn {skip : Bool} {source : DiscoveredCase} {sources : List DiscoveredCase}
    {assigned : List CaseId} {s : σ} {batch : EvaluationBatch F}
    (h : loadCases factory C limits split skip (source :: sources) assigned s = .ok batch) :
    ∃ id s' rest, uniqueCaseId factory assigned 8 s = .ok (id, s') ∧
      loadCases factory C limits split skip sources (id :: assigned) s' = .ok rest ∧
      ((∃ parsed, source.parse C limits id = .ok parsed ∧
          batch = ⟨⟨id, split, parsed.window, parsed.signals⟩ :: rest.cases,
            source.entry split id :: rest.entries, rest.skippedCaseCount⟩) ∨
        batch = ⟨rest.cases, rest.entries, rest.skippedCaseCount + 1⟩) := by
  rw [loadCases, bind_eq_ok] at h
  obtain ⟨⟨id, s'⟩, hdraw, h⟩ := h
  cases hparse : source.parse C limits id with
  | ok parsed =>
    simp only [hparse, bind_eq_ok, pure_eq_ok] at h
    obtain ⟨rest, hrest, hbatch⟩ := h
    exact ⟨id, s', rest, hdraw, hrest, .inl ⟨parsed, hparse, hbatch⟩⟩
  | error e =>
    simp only [hparse] at h
    by_cases hskipped : e.isLoadError = true ∧ skip = true
    · rw [if_pos hskipped, bind_eq_ok] at h
      obtain ⟨rest, hrest, hbatch⟩ := h
      exact ⟨id, s', rest, hdraw, hrest, .inr (pure_eq_ok.mp hbatch)⟩
    · rw [if_neg hskipped] at h
      exact absurd h (by simp)

/-! ### The whole loop -/

/-- The batch is made of the cases that were loaded, in the order in which their directories
    were discovered. -/
theorem loadCases_loaded {skip : Bool} {sources : List DiscoveredCase} {assigned : List CaseId}
    {s : σ} {batch : EvaluationBatch F}
    (h : loadCases factory C limits split skip sources assigned s = .ok batch) :
    ∃ loaded : List (LoadedCase C limits),
      (loaded.map (·.source)).Sublist sources ∧ (loaded.map (·.caseId)).Nodup ∧
      (∀ l ∈ loaded, l.caseId ∉ assigned) ∧ batch.cases = loaded.map (·.case split) ∧
      batch.entries = loaded.map (·.entry split) ∧
      loaded.length + batch.skippedCaseCount = sources.length := by
  induction sources generalizing assigned s batch with
  | nil =>
    obtain rfl : ⟨[], [], 0⟩ = batch := by simpa [loadCases] using h
    exact ⟨[], .slnil, .nil, by simp, rfl, rfl, rfl⟩
  | cons source sources ih =>
    obtain ⟨id, s', rest, hdraw, hrest, hturn⟩ := loadCases_turn h
    obtain ⟨loaded, hsources, hnodup, hfresh, hcases, hentries, hcount⟩ := ih hrest
    have hlater : ∀ l ∈ loaded, l.caseId ∉ assigned := by
      intro l hl hassigned
      exact hfresh l hl (List.mem_cons_of_mem id hassigned)
    rcases hturn with ⟨parsed, hparsed, rfl⟩ | rfl
    · refine ⟨⟨source, id, parsed, hparsed⟩ :: loaded, hsources.cons_cons source, ?_, ?_, ?_, ?_, ?_⟩
      · -- a later identifier was drawn after this one was assigned
        apply List.nodup_cons.mpr ⟨?_, hnodup⟩
        intro hmem
        obtain ⟨l, hl, hid⟩ := List.mem_map.mp hmem
        apply hfresh l hl
        rw [hid]
        exact List.mem_cons_self
      · exact List.forall_mem_cons.mpr ⟨uniqueCaseId_fresh hdraw, hlater⟩
      · rw [hcases]
        rfl
      · rw [hentries]
        rfl
      · show loaded.length + 1 + rest.skippedCaseCount = sources.length + 1
        omega
    · refine ⟨loaded, hsources.cons source, hnodup, hlater, hcases, hentries, ?_⟩
      show loaded.length + (rest.skippedCaseCount + 1) = sources.length + 1
      omega

/-- What a batch shows without its labels. -/
def EvaluationBatch.unlabelled (batch : EvaluationBatch F) : List (InvestigationCase F) × ℕ :=
  (batch.cases, batch.skippedCaseCount)

/-- Results that are alike without their labels stay alike, when both go on alike. -/
theorem map_unlabelled_bind {x y : Except LoaderException (EvaluationBatch F)}
    {g g' : EvaluationBatch F → EvaluationBatch F}
    (hg : ∀ b b', b.unlabelled = b'.unlabelled → (g b).unlabelled = (g' b').unlabelled)
    (h : x.map (·.unlabelled) = y.map (·.unlabelled)) :
    (x >>= fun b => pure (g b)).map (·.unlabelled) =
      (y >>= fun b => pure (g' b)).map (·.unlabelled) := by
  cases x with
  | error e =>
    cases y with
    | error e' => exact h
    | ok b' => exact absurd h (by simp [Except.map])
  | ok b =>
    cases y with
    | error e' => exact absurd h (by simp [Except.map])
    | ok b' => exact congrArg Except.ok (hg b b' (Except.ok.inj h))

variable (factory C limits split)

/-- The cases and the count of what was skipped depend on the files only. -/
theorem loadCases_sameFiles (skip : Bool) {sources sources' : List DiscoveredCase}
    (h : List.Forall₂ SameFiles sources sources') (assigned : List CaseId) (s : σ) :
    (loadCases factory C limits split skip sources assigned s).map (·.unlabelled) =
      (loadCases factory C limits split skip sources' assigned s).map (·.unlabelled) := by
  induction h generalizing assigned s with
  | nil => rfl
  | @cons source source' sources sources' hfiles _ ih =>
    rw [loadCases, loadCases]
    cases uniqueCaseId factory assigned 8 s with
    | error e => rfl
    | ok drawn =>
      obtain ⟨id, s'⟩ := drawn
      have hparse : source.parse C limits id = source'.parse C limits id := by
        unfold DiscoveredCase.parse
        rw [hfiles.1, hfiles.2]
      simp only [bind, Except.bind, hparse]
      cases source'.parse C limits id with
      | ok parsed =>
        apply map_unlabelled_bind _ (ih (id :: assigned) s')
        intro b b' hb
        obtain ⟨hcases, hskipped⟩ := Prod.mk.inj hb
        show (_ :: b.cases, b.skippedCaseCount) = (_ :: b'.cases, b'.skippedCaseCount)
        rw [hcases, hskipped]
      | error e =>
        by_cases hskip : e.isLoadError = true ∧ skip = true
        · simp only [if_pos hskip]
          apply map_unlabelled_bind _ (ih (id :: assigned) s')
          intro b b' hb
          obtain ⟨hcases, hskipped⟩ := Prod.mk.inj hb
          show (b.cases, b.skippedCaseCount + 1) = (b'.cases, b'.skippedCaseCount + 1)
          rw [hcases, hskipped]
        · simp only [if_neg hskip]

end batch

/-- **Cases and labels are joined one to one, and no label reaches a case.** -/
theorem cases_joined_with_labels {σ F : Type} [PyFloat F] (factory : σ → Option CaseId × σ)
    (C : Platform F) (limits : LoaderLimits) (split : RcaevalSplit) (skip : Bool)
    (sources : List DiscoveredCase) (s : σ) :
    (∀ batch, loadCases factory C limits split skip sources [] s = .ok batch →
      batch.cases.length = batch.entries.length ∧
      batch.cases.map (·.caseId) = batch.entries.map (·.caseId) ∧
      (batch.cases.map (·.caseId)).Nodup ∧
      (∃ loaded : List (LoadedCase C limits), (loaded.map (·.source)).Sublist sources ∧
        batch.cases = loaded.map (·.case split) ∧ batch.entries = loaded.map (·.entry split)) ∧
      batch.cases.length + batch.skippedCaseCount = sources.length) ∧
    ∀ sources', List.Forall₂ SameFiles sources sources' →
      (loadCases factory C limits split skip sources [] s).map (·.cases) =
        (loadCases factory C limits split skip sources' [] s).map (·.cases) := by
  constructor
  · intro batch hbatch
    obtain ⟨loaded, hsources, hnodup, -, hcases, hentries, hcount⟩ := loadCases_loaded hbatch
    have hids : batch.cases.map (·.caseId) = loaded.map (·.caseId) := by
      rw [hcases, List.map_map]
      rfl
    have hlength : batch.cases.length = loaded.length := by
      rw [hcases, List.length_map]
    refine ⟨?_, ?_, ?_, ⟨loaded, hsources, hcases, hentries⟩, ?_⟩
    · rw [hlength, hentries, List.length_map]
    · rw [hids, hentries, List.map_map]
      rfl
    · rw [hids]
      exact hnodup
    · rw [hlength]
      exact hcount
  · intro sources' hfiles
    have hboth := loadCases_sameFiles factory C limits split skip hfiles [] s
    have hcases : ∀ x : Except LoaderException (EvaluationBatch F),
        x.map (·.cases) = (x.map (·.unlabelled)).map Prod.fst := by
      intro x
      cases x with
      | error e => rfl
      | ok batch => rfl
    rw [hcases, hcases, hboth]

/-! ### A batch of two directories -/

namespace Demo

/-- The next identifier of version 4. -/
def nextId : CaseId := ⟨⟨0x00000000000040008000000000000001, by decide⟩⟩

/-- A factory with two identifiers. -/
def twoIds : ℕ → Option CaseId × ℕ
  | 0 => (some caseId, 1)
  | 1 => (some nextId, 2)
  | n => (none, n)

/-- A directory with the file that has a gap. -/
def gapDirectory : DiscoveredCase :=
  ⟨some (.regular gap), some (.regular gapInjection), str "a_cpu/1", str "a", str "cpu", str "1"⟩

/-- A directory whose files cannot be opened. -/
def lostDirectory : DiscoveredCase := ⟨none, none, str "b_mem/1", str "b", str "mem", str "1"⟩

theorem directories_load :
    (loadCases twoIds minutes .default .OB true [lostDirectory, gapDirectory] [] 0).isOk = true := by
  obtain ⟨parsed, hparsed⟩ := exists_of_isOk (gap_parses nextId)
  have hgap : gapDirectory.parse minutes .default nextId = .ok parsed := hparsed
  have hlost : lostDirectory.parse minutes .default caseId =
      (loadError .invalidEncoding caseId : Except _ (ParsedCase ExactFloat)) := rfl
  have hfirst : uniqueCaseId twoIds [] 8 0 = .ok (caseId, 1) := by decide
  have hsecond : uniqueCaseId twoIds [caseId] 8 1 = .ok (nextId, 2) := by decide
  rw [loadCases_cons hfirst, hlost]
  simp only [loadError, LoaderException.isLoadError, if_true]
  rw [loadCases_cons hsecond, hgap]
  rfl

end Demo

/-- One of two directories is lost, and the other is joined with its labels. -/
theorem cases_joined_with_labels_demo : ∃ batch,
    loadCases Demo.twoIds Demo.minutes .default .OB true
      [Demo.lostDirectory, Demo.gapDirectory] [] 0 = .ok batch ∧
    batch.cases.map (·.caseId) = batch.entries.map (·.caseId) ∧
    batch.cases.length + batch.skippedCaseCount = 2 := by
  obtain ⟨batch, hbatch⟩ := exists_of_isOk Demo.directories_load
  obtain ⟨hjoined, -⟩ := cases_joined_with_labels Demo.twoIds Demo.minutes .default .OB true
    [Demo.lostDirectory, Demo.gapDirectory] 0
  obtain ⟨-, hids, -, -, hcount⟩ := hjoined batch hbatch
  exact ⟨batch, hbatch, hids, hcount⟩

end IncidentEvidence
