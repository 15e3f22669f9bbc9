import IncidentEvidence.Llm.Gemini
import IncidentEvidence.Llm.Parsing
import IncidentEvidence.Py.JsonRespaced
import IncidentEvidence.Py.JsonMembers

/-! # Answers in a code fence

    `_unwrap_json` splits a fenced answer into lines and joins the lines between the fences. It
    splits where `str.splitlines` does, so the text that comes out has a newline for each of ten
    characters that end a line. Three of them may stand inside a JSON string, where the newline
    that replaces them is an error (`unwrap_preserves_json_iff`). -/

namespace IncidentEvidence

open Py

namespace GeminiLLMClient

/-! ### Splitting and joining -/

/-- The text with a newline for every end of a line. -/
def newlines : Str → Str
  | [] => []
  | .scalar '\r' :: .scalar '\n' :: rest => .scalar '\n' :: newlines rest
  | c :: rest => (if endsLine c then .scalar '\n' else c) :: newlines rest

/-- The carriage returns with a line feed after them. -/
def crlfPairs : Str → ℕ
  | [] => 0
  | .scalar '\r' :: .scalar '\n' :: rest => crlfPairs rest + 1
  | _ :: rest => crlfPairs rest

theorem length_newlines (s : Str) : (newlines s).length + crlfPairs s = s.length := by
  fun_induction newlines s with
  | case1 => rfl
  | case2 rest ih =>
    rw [crlfPairs, List.length_cons, List.length_cons, List.length_cons]
    omega
  | case3 c rest hcrlf ih =>
    rw [crlfPairs, List.length_cons, List.length_cons]
    · omega
    · exact hcrlf

theorem newlines_cons {c : CodePoint} (hc : c ≠ .scalar '\r') (rest : Str) :
    newlines (c :: rest) = (if endsLine c then .scalar '\n' else c) :: newlines rest := by
  rw [newlines]
  rintro rest' rfl
  exact absurd rfl hc

theorem newlines_append (s : Str) {c : CodePoint} (hc : c ≠ .scalar '\n') (rest : Str) :
    newlines (s ++ c :: rest) = newlines s ++ newlines (c :: rest) := by
  fun_induction newlines s with
  | case1 => rfl
  | case2 s ih =>
    show newlines (.scalar '\r' :: .scalar '\n' :: (s ++ c :: rest)) = _
    rw [newlines, ih]
    rfl
  | case3 d s hcrlf ih =>
    show newlines (d :: (s ++ c :: rest)) = _
    rw [newlines, ih]
    · rfl
    · intro rest' hd heq
      cases s with
      | nil => exact hc (List.cons.inj heq).1
      | cons e s =>
        obtain ⟨rfl, -⟩ := List.cons.inj heq
        exact hcrlf s hd rfl

/-- Nothing but whitespace comes from whitespace. -/
theorem isSpace_newlines {s : Str} (h : ∀ c ∈ s, c.isSpace = true) :
    ∀ c ∈ newlines s, c.isSpace = true := by
  fun_induction newlines s with
  | case1 => exact h
  | case2 s ih =>
    obtain ⟨-, -, hrest⟩ := by simpa using h
    exact List.forall_mem_cons.mpr ⟨by decide, ih hrest⟩
  | case3 c s _ ih =>
    obtain ⟨hc, hrest⟩ := List.forall_mem_cons.mp h
    refine List.forall_mem_cons.mpr ⟨?_, ih hrest⟩
    by_cases hend : endsLine c = true
    · rw [if_pos hend]
      decide
    · rw [if_neg hend]
      exact hc

/-- There is a line unless nothing is left. -/
theorem splitLinesFrom_eq_nil {line s : Str} (h : splitLinesFrom line s = []) :
    line = [] ∧ s = [] := by
  fun_induction splitLinesFrom line s with
  | case1 => exact ⟨rfl, rfl⟩
  | case2 line hline => exact absurd h (by simp)
  | case3 => exact absurd h (by simp)
  | case4 => exact absurd h (by simp)
  | case5 line c rest _ hend ih => exact absurd (ih h).1 (by simp)

theorem joinLines_cons (line : Str) {lines : List Str} (h : lines ≠ []) :
    joinLines (line :: lines) = line ++ .scalar '\n' :: joinLines lines := by
  cases lines with
  | nil => exact absurd rfl h
  | cons next lines => simp [joinLines, str, List.intercalate]

/-- Joining the lines of a text gives back its newlines, but for one at the end. -/
theorem joinLines_splitLinesFrom (line s : Str) : ∃ ending,
    (ending = [] ∨ ending = [.scalar '\n']) ∧
      joinLines (splitLinesFrom line s) ++ ending = line ++ newlines s := by
  -- the end of a line, with the lines after it
  have hline : ∀ (line rest : Str), (∃ ending, (ending = [] ∨ ending = [.scalar '\n']) ∧
      joinLines (splitLinesFrom [] rest) ++ ending = [] ++ newlines rest) →
      ∃ ending, (ending = [] ∨ ending = [.scalar '\n']) ∧
        joinLines (line :: splitLinesFrom [] rest) ++ ending =
          line ++ .scalar '\n' :: newlines rest := by
    intro line rest h
    by_cases hlines : splitLinesFrom [] rest = []
    · obtain ⟨-, rfl⟩ := splitLinesFrom_eq_nil hlines
      exact ⟨[.scalar '\n'], .inr rfl, by simp [splitLinesFrom, joinLines, newlines]⟩
    · obtain ⟨ending, hending, hjoin⟩ := h
      refine ⟨ending, hending, ?_⟩
      rw [joinLines_cons line hlines, List.append_assoc, List.cons_append, hjoin]
      rfl
  fun_induction splitLinesFrom line s with
  | case1 => exact ⟨[], .inl rfl, rfl⟩
  | case2 line _ => exact ⟨[], .inl rfl, by simp [joinLines, newlines]⟩
  | case3 line rest ih =>
    rw [newlines]
    exact hline line rest ih
  | case4 line c rest hcrlf hend ih =>
    rw [newlines, if_pos hend]
    · exact hline line rest ih
    · exact hcrlf
  | case5 line c rest hcrlf hend ih =>
    obtain ⟨ending, hending, hjoin⟩ := ih
    refine ⟨ending, hending, ?_⟩
    rw [hjoin, newlines, if_neg hend, List.append_assoc]
    · rfl
    · exact hcrlf

theorem splitLinesFrom_cons (line : Str) {c : CodePoint} {rest : Str}
    (h : c = .scalar '\r' → rest.head? ≠ some (.scalar '\n')) :
    splitLinesFrom line (c :: rest) =
      if endsLine c then line :: splitLinesFrom [] rest else splitLinesFrom (line ++ [c]) rest := by
  rw [splitLinesFrom]
  rintro rest' hc rfl
  exact h hc rfl

/-- Lines after a newline are split by themselves. -/
theorem splitLinesFrom_append (line s rest : Str) :
    splitLinesFrom line (s ++ .scalar '\n' :: rest) =
      splitLinesFrom line (s ++ [.scalar '\n']) ++ splitLinesFrom [] rest := by
  -- a character that is not the carriage return of a pair
  have hsplit : ∀ (c : CodePoint) (s rest : Str), (c = .scalar '\r' → s ≠ []) →
      (∀ s', c = .scalar '\r' → s = .scalar '\n' :: s' → False) →
      c = .scalar '\r' → (s ++ .scalar '\n' :: rest).head? ≠ some (.scalar '\n') := by
    intro c s rest hs hcrlf hc
    cases s with
    | nil => exact absurd rfl (hs hc)
    | cons d s =>
      intro hd
      exact hcrlf s hc (by rw [Option.some.inj hd])
  fun_induction splitLinesFrom line s with
  | case1 => rfl
  | case2 line _ => rfl
  | case3 line s ih => exact congrArg (line :: ·) ih
  | case4 line c s hcrlf hend ih =>
    by_cases hpair : c = .scalar '\r' ∧ s = []
    · obtain ⟨rfl, rfl⟩ := hpair
      rfl
    · have hs : c = .scalar '\r' → s ≠ [] := fun hc hs => hpair ⟨hc, hs⟩
      rw [List.cons_append, List.cons_append, splitLinesFrom_cons line (hsplit c s rest hs hcrlf),
        splitLinesFrom_cons line (hsplit c s [] hs hcrlf), if_pos hend, if_pos hend, ih]
      rfl
  | case5 line c s hcrlf hend ih =>
    have hs : c = .scalar '\r' → s ≠ [] := by
      rintro rfl
      exact absurd (by decide) hend
    rw [List.cons_append, List.cons_append, splitLinesFrom_cons line (hsplit c s rest hs hcrlf),
      splitLinesFrom_cons line (hsplit c s [] hs hcrlf), if_neg hend, if_neg hend, ih]

/-! ### Stripping -/

/-- What stands between whitespace is what is left of a text. -/
theorem strip_between {before after : Str} {c d : CodePoint} (inside : Str)
    (hbefore : ∀ c ∈ before, c.isSpace = true) (hafter : ∀ c ∈ after, c.isSpace = true)
    (hc : c.isSpace = false) (hd : d.isSpace = false) :
    strip (before ++ c :: (inside ++ d :: after)) = c :: (inside ++ [d]) := by
  have hleft : lstrip (before ++ c :: (inside ++ d :: after)) = c :: (inside ++ d :: after) := by
    unfold lstrip
    rw [List.dropWhile_append_of_pos hbefore, List.dropWhile_cons_of_neg (by simp [hc])]
  have hreverse : (c :: (inside ++ d :: after)).reverse =
      after.reverse ++ d :: (inside.reverse ++ [c]) := by simp
  have hright : lstrip (after.reverse ++ d :: (inside.reverse ++ [c])) =
      d :: (inside.reverse ++ [c]) := by
    have hafter' : ∀ c ∈ after.reverse, c.isSpace = true :=
      fun c hc => hafter c (List.mem_reverse.mp hc)
    unfold lstrip
    rw [List.dropWhile_append_of_pos hafter', List.dropWhile_cons_of_neg (by simp [hd])]
  unfold strip
  rw [hleft, rstrip, hreverse, hright]
  simp

/-- Whitespace at the end makes no difference. -/
theorem strip_append_space (s : Str) {c : CodePoint} (hc : c.isSpace = true) :
    strip (s ++ [c]) = strip s := by
  have hright : ∀ t : Str, rstrip (t ++ [c]) = rstrip t := by
    intro t
    unfold rstrip lstrip
    rw [List.reverse_append, List.reverse_singleton, List.singleton_append,
      List.dropWhile_cons_of_pos hc]
  unfold strip
  by_cases hblank : lstrip s = []
  · have hleft : lstrip (s ++ [c]) = [] := by
      unfold lstrip at hblank ⊢
      rw [List.dropWhile_append, hblank]
      exact List.dropWhile_cons_of_pos hc
    rw [hleft, hblank]
  · have hleft : lstrip (s ++ [c]) = lstrip s ++ [c] := by
      unfold lstrip at hblank ⊢
      rw [List.dropWhile_append, if_neg (by simpa using hblank)]
    rw [hleft, hright]

/-! ### Fences -/

/-- A text between a line of three backquotes, optionally followed by `json`, and another
    line of them, with whitespace around it. -/
def fenced (before : Str) (tagged : Bool) (p after : Str) : Str :=
  before ++ (str "```" ++ (if tagged then str "json" else []) ++
    .scalar '\n' :: (p ++ .scalar '\n' :: str "```")) ++ after

section object
variable {before after : Str} (inside : Str)

/-- A text from brace to brace, with whitespace around it, is stripped. -/
theorem unwrapJson_object (hbefore : ∀ c ∈ before, c.isSpace = true)
    (hafter : ∀ c ∈ after, c.isSpace = true) :
    unwrapJson (before ++ .scalar '\x7b' :: (inside ++ .scalar '\x7d' :: after)) =
      .scalar '\x7b' :: (inside ++ [.scalar '\x7d']) := by
  unfold unwrapJson
  rw [strip_between inside hbefore hafter (by decide) (by decide)]
  rfl

/-- Between fences it comes out with newlines for its line ends. -/
theorem unwrapJson_fenced (tagged : Bool) {outer outer' : Str}
    (houter : ∀ c ∈ outer, c.isSpace = true) (houter' : ∀ c ∈ outer', c.isSpace = true)
    (hbefore : ∀ c ∈ before, c.isSpace = true) (hafter : ∀ c ∈ after, c.isSpace = true) :
    unwrapJson (fenced outer tagged
        (before ++ .scalar '\x7b' :: (inside ++ .scalar '\x7d' :: after)) outer') =
      newlines (.scalar '\x7b' :: (inside ++ [.scalar '\x7d'])) := by
  have hopen : ∀ rest, newlines (.scalar '\x7b' :: rest) = .scalar '\x7b' :: newlines rest :=
    fun rest => newlines_cons (by decide) rest
  have hclose : ∀ rest, newlines (.scalar '\x7d' :: rest) = .scalar '\x7d' :: newlines rest :=
    fun rest => newlines_cons (by decide) rest
  generalize hp : before ++ .scalar '\x7b' :: (inside ++ .scalar '\x7d' :: after) = p
  -- what is left of the fenced text, and its lines
  have hstrip : strip (fenced outer tagged p outer') =
      str "```" ++ (if tagged then str "json" else []) ++
        .scalar '\n' :: (p ++ .scalar '\n' :: str "```") := by
    have hends : str "```" ++ (if tagged then str "json" else []) ++
        .scalar '\n' :: (p ++ .scalar '\n' :: str "```") =
          .scalar '\x60' :: ((str "``" ++ (if tagged then str "json" else []) ++
            .scalar '\n' :: (p ++ .scalar '\n' :: str "``")) ++ [.scalar '\x60']) := by
      simp [str]
    unfold fenced
    rw [hends, List.append_assoc, List.cons_append, List.append_assoc]
    exact strip_between _ houter houter' (by decide) (by decide)
  have hfirst : splitLinesFrom [] (str "```" ++ (if tagged then str "json" else []) ++
      .scalar '\n' :: (p ++ .scalar '\n' :: str "```")) =
        (str "```" ++ if tagged then str "json" else []) ::
          (splitLinesFrom [] (p ++ [.scalar '\n']) ++ [str "```"]) := by
    rw [splitLinesFrom_append, splitLinesFrom_append [] p]
    cases tagged <;> rfl
  have hopened : (str "```").isPrefixOf (str "```" ++ (if tagged then str "json" else []) ++
      .scalar '\n' :: (p ++ .scalar '\n' :: str "```")) = true := by
    cases tagged <;> rfl
  have htag : (str "```").isPrefixOf (str "```" ++ if tagged then str "json" else []) = true := by
    cases tagged <;> decide
  have hunwrap : unwrapJson (fenced outer tagged p outer') =
      strip (joinLines (splitLinesFrom [] (p ++ [.scalar '\n']))) := by
    unfold unwrapJson
    dsimp only
    rw [hstrip, hopened, if_neg (by simp), hfirst]
    dsimp only
    rw [if_pos htag, List.getLast?_concat]
    dsimp only
    rw [if_pos (by decide), List.dropLast_concat]
  obtain ⟨ending, hending, hjoin⟩ := joinLines_splitLinesFrom [] (p ++ [.scalar '\n'])
  have hsame : strip (joinLines (splitLinesFrom [] (p ++ [.scalar '\n']))) =
      strip (newlines (p ++ [.scalar '\n'])) := by
    rw [List.nil_append] at hjoin
    rw [← hjoin]
    rcases hending with rfl | rfl
    · rw [List.append_nil]
    · exact (strip_append_space _ (by decide)).symm
  have hnewlines : newlines (p ++ [.scalar '\n']) = newlines before ++ .scalar '\x7b' ::
      (newlines inside ++ .scalar '\x7d' :: newlines (after ++ [.scalar '\n'])) := by
    rw [← hp, List.append_assoc, List.cons_append, List.append_assoc, List.cons_append,
      newlines_append _ (by decide), hopen, newlines_append _ (by decide), hclose]
  have hafter' : ∀ c ∈ after ++ [.scalar '\n'], c.isSpace = true := by
    intro c hc
    rcases List.mem_append.mp hc with hc | hc
    · exact hafter c hc
    · rw [List.mem_singleton.mp hc]
      decide
  rw [hunwrap, hsame, hnewlines, strip_between _ (isSpace_newlines hbefore)
    (isSpace_newlines hafter') (by decide) (by decide), hopen, newlines_append _ (by decide), hclose]
  rfl

end object

/-! ### What JSON makes of it -/

/-- The line ends that may stand inside a JSON string. -/
def isSeparator (c : CodePoint) : Bool := c.ord ∈ [0x85, 0x2028, 0x2029]

theorem breaksOutside_endsLine : BreaksOutside endsLine := by
  intro c hc
  simp only [endsLine, decide_eq_true_eq, List.mem_cons, List.not_mem_nil, or_false] at hc
  omega

theorem isInnerBreak_endsLine (c : CodePoint) : isInnerBreak endsLine c = isSeparator c := by
  unfold isInnerBreak endsLine isSeparator
  apply Bool.eq_iff_iff.mpr
  simp only [Bool.and_eq_true, decide_eq_true_eq, List.mem_cons, List.not_mem_nil, or_false]
  omega

theorem respaced_newlines {after : Str} (hafter : ∀ c ∈ after, isJsonSpace c = true) (s : Str) :
    Respaced endsLine (s ++ after) (newlines s) := by
  fun_induction newlines s with
  | case1 => exact .spaces hafter (by simp)
  | case2 s ih => exact .crlf (by decide) ih
  | case3 c s _ ih =>
    cases hend : endsLine c with
    | true => exact .line hend ih
    | false => exact .same hend ih

/-- Whitespace at the end of a text can be left out. -/
theorem respaced_dropEnd {after : Str} (hafter : ∀ c ∈ after, isJsonSpace c = true) (s : Str) :
    Respaced (fun _ => false) (s ++ after) s := by
  induction s with
  | nil => exact .spaces hafter (by simp)
  | cons c s ih => exact .same rfl ih

theorem isSpace_of_isJsonSpace {c : CodePoint} (h : isJsonSpace c = true) : c.isSpace = true := by
  rcases isJsonSpace_iff.mp h with rfl | rfl | rfl | rfl <;> decide

section parser
variable {limits : RecursionLimits} {raw raw' : Str} (allowed : Finset SignalKey)

/-- The parser refuses a proposal as too large by its length only. -/
theorem parseMetricHypothesis_tooLarge :
    parseMetricHypothesis limits raw allowed = .error (.llm .proposalTooLarge) ↔
      MAX_PROPOSAL_CHARS < raw.length := by
  constructor
  · intro h
    simp only [parseMetricHypothesis, bind_eq_error, require_eq_error, require_eq_ok] at h
    rcases h with ⟨hlength, -⟩ | ⟨_, -, ⟨-, h⟩ | ⟨_, -, hdecode | ⟨parsed, -, h⟩⟩⟩
    · exact not_not.mp hlength
    · exact absurd h (by simp)
    · rcases decodeProposal_error hdecode with h | ⟨h, -⟩
      · exact absurd h (by simp)
      · exact absurd h (by simp)
    · split at h
      · split at h
        · simp only [bind_eq_error, require_eq_error, require_eq_ok, exceptRaise_eq_error,
            pure_ne_error, and_false, exists_false, or_false] at h
          rcases h with ⟨-, h⟩ | ⟨_, -, ⟨e, hbuild, hraised⟩ | ⟨_, -, -, h⟩⟩
          · exact absurd h (by simp)
          · rcases (buildDocument_error limits _ _).1 e hbuild with hcaught | rfl
            · rw [if_pos hcaught] at hraised
              exact absurd hraised (by simp)
            · exact absurd hraised (by decide)
          · exact absurd h (by simp)
        · exact absurd h (by simp)
      · exact absurd h (by simp)
  · intro h
    unfold parseMetricHypothesis
    rw [require, if_neg (by simpa using h)]
    rfl

/-- Proposals that decode alike are parsed alike, when the length is no matter. -/
theorem parseMetricHypothesis_congr (hlength : MAX_PROPOSAL_CHARS < raw.length ↔
    MAX_PROPOSAL_CHARS < raw'.length) (hblank : isBlank raw = false) (hblank' : isBlank raw' = false)
    (hloads : loads limits.decode raw = loads limits.decode raw') :
    parseMetricHypothesis limits raw allowed = parseMetricHypothesis limits raw' allowed := by
  unfold parseMetricHypothesis decodeProposal
  rw [hloads, hblank, hblank']
  simp only [hlength]

end parser

/-- What the fences must preserve of a JSON object: its value, and what the parser makes of the
    answer. -/
def Preserves (limits : RecursionLimits) (fields : List (Str × Json)) (p wrapped : Str) : Prop :=
  loads limits.decode (unwrapJson wrapped) = .ok (.obj fields) ∧
    loads limits.decode (unwrapJson p) = .ok (.obj fields) ∧
    ∀ allowed, parseMetricHypothesis limits (unwrapJson wrapped) allowed =
      parseMetricHypothesis limits (unwrapJson p) allowed

/-- **When fences preserve a JSON object**: if no string in it holds one of the three
    separators, and its carriage returns do not make it too long. -/
theorem unwrap_preserves_json_iff (limits : RecursionLimits) (fields : List (Str × Json))
    (p outer outer' : Str) (tagged : Bool) (hp : loads limits.decode p = .ok (.obj fields))
    (houter : ∀ c ∈ outer, c.isSpace = true) (houter' : ∀ c ∈ outer', c.isSpace = true) :
    Preserves limits fields p (fenced outer tagged p outer') ↔
      (∀ c ∈ p, isSeparator c = false) ∧
        ((strip p).length ≤ MAX_PROPOSAL_CHARS ∨
          MAX_PROPOSAL_CHARS + crlfPairs (strip p) < (strip p).length) := by
  obtain ⟨before, inside, after, rfl, hbefore, hafter⟩ := loads_object hp
  have hspace : ∀ {w : Str}, (∀ c ∈ w, isJsonSpace c = true) → ∀ c ∈ w, c.isSpace = true :=
    fun hw c hc => isSpace_of_isJsonSpace (hw c hc)
  -- the object itself, and what comes out of the fences
  have hobject := strip_between (c := .scalar '\x7b') (d := .scalar '\x7d') inside
    (hspace hbefore) (hspace hafter) (by decide) (by decide)
  have hplain := unwrapJson_object inside (hspace hbefore) (hspace hafter)
  have hwrapped := unwrapJson_fenced inside tagged houter houter' (hspace hbefore) (hspace hafter)
  unfold Preserves
  rw [hwrapped, hplain, hobject]
  generalize hcore : (.scalar '\x7b' :: (inside ++ [.scalar '\x7d']) : Str) = core
  have hwhole : before ++ .scalar '\x7b' :: (inside ++ .scalar '\x7d' :: after) =
      before ++ (core ++ after) := by
    rw [← hcore]
    simp
  have hloads : loads limits.decode (core ++ after) = .ok (.obj fields) := by
    have hstart : StartsVisible (core ++ after) := by
      rw [← hcore]
      exact ⟨_, _, rfl, by decide⟩
    rw [hwhole, loads_spaces hbefore hstart] at hp
    exact hp
  have hcoreLoads : loads limits.decode core = .ok (.obj fields) := by
    have hnobreaks : BreaksOutside fun _ => false := by simp [BreaksOutside]
    rcases loads_respaced hnobreaks hloads (respaced_dropEnd hafter core) with h | h
    · exact h.2
    · obtain ⟨⟨c, -, hc⟩, -⟩ := h
      exact absurd hc (by simp [isInnerBreak])
  have hseparators : (∀ c ∈ before ++ (core ++ after), isSeparator c = false) ↔
      ∀ c ∈ core ++ after, isInnerBreak endsLine c = false := by
    simp only [isInnerBreak_endsLine]
    rw [List.forall_mem_append]
    constructor
    · exact fun h => h.2
    · refine fun h => ⟨?_, h⟩
      intro c hc
      rw [← isInnerBreak_endsLine]
      exact isInnerBreak_of_space (hbefore c hc)
  have hblank : isBlank core = false := by
    rw [← hcore]
    exact isBlank_eq_false_of_mem List.mem_cons_self (by decide)
  have hblank' : isBlank (newlines core) = false := by
    rw [← hcore, newlines_cons (by decide)]
    exact isBlank_eq_false_of_mem List.mem_cons_self (by decide)
  have hlength := length_newlines core
  rw [hwhole, hseparators]
  rcases loads_respaced breaksOutside_endsLine hloads (respaced_newlines hafter core) with
    ⟨hkept, hsame⟩ | ⟨⟨c, hc, hbreak⟩, e, herror⟩
  · constructor
    · intro h
      refine ⟨hkept, ?_⟩
      by_contra hlong
      push Not at hlong
      -- too large as it is, but not without the carriage returns
      have hlarge : parseMetricHypothesis limits _ ∅ = .error (.llm .proposalTooLarge) :=
        (parseMetricHypothesis_tooLarge ∅).mpr hlong.1
      rw [← h.2.2 ∅] at hlarge
      have hfits := (parseMetricHypothesis_tooLarge ∅).mp hlarge
      omega
    · intro h
      refine ⟨hsame, hcoreLoads, ?_⟩
      intro allowed
      apply parseMetricHypothesis_congr allowed _ hblank' hblank (hsame.trans hcoreLoads.symm)
      omega
  · -- a separator stands inside a string
    constructor
    · intro h
      rw [herror] at h
      exact absurd h.1 (by simp)
    · intro h
      rw [h.1 c hc] at hbreak
      exact absurd hbreak (by simp)

/-! ### A separator in a string -/

namespace Demo

/-- An object whose only key holds U+2028. -/
def separated : Str := .scalar '\x7b' :: str "\"\u2028\":0\x7d"

/-- An object over several lines. -/
def indented : Str := str "\x7b\r\n  \"a\": [1, \x7b\"b\": null\x7d],\n  \"c\": \"x y\"\r\n\x7d"

end Demo

/-- Fenced, the object is no JSON text any more. -/
theorem fenced_separator_is_lost :
    loads 1 Demo.separated = .ok (.obj [(str "\u2028", .int 0)]) ∧
      ¬ Preserves ⟨1, 1⟩ [(str "\u2028", .int 0)] Demo.separated
        (fenced [] true Demo.separated []) := by
  refine ⟨rfl, ?_⟩
  intro h
  have hlost : loads 1 (unwrapJson (fenced [] true Demo.separated [])) = .error .jsonDecode := rfl
  exact absurd (hlost.symm.trans h.1) (by simp)

/-- An object over several lines, with another one inside. -/
theorem unwrap_preserves_json_demo : ∃ fields, fields.map Prod.fst = [str "a", str "c"] ∧
    loads 3 Demo.indented = .ok (.obj fields) ∧
    Preserves ⟨3, 3⟩ fields Demo.indented (fenced (str " ") true Demo.indented (str "\n")) := by
  have hread : (loads 3 Demo.indented).toOption.map (·.fields.map Prod.fst) = some [str "a", str "c"] := by
    decide +kernel
  cases hloads : loads 3 Demo.indented with
  | error e =>
    rw [hloads] at hread
    cases hread
  | ok v =>
    rw [hloads] at hread
    cases v with
    | obj fields =>
      exact ⟨fields, Option.some.inj hread, rfl, (unwrap_preserves_json_iff ⟨3, 3⟩ fields Demo.indented
        (str " ") (str "\n") true hloads (by decide) (by decide)).mpr ⟨by decide, .inl (by decide)⟩⟩
    | _ => cases hread

end GeminiLLMClient

end IncidentEvidence
