import IncidentEvidence.Observability.Metrics

/-! # Sample lines

    A sample is written on a line of its own: the sample name, the label values between
    quotes, and the number. Label values are any texts. Escaping makes each of their
    characters a word that is no quote and no line end, so that a line is read back
    uniquely (`Sample.line_inj`). -/

namespace IncidentEvidence

open Py

namespace Observability

/-! ### Escaped label values -/

/-- What `_escape_label_value` writes for one character. -/
def escapeWord (c : CodePoint) : Str :=
  if c = .scalar '\\' then str "\\\\"
  else if c = .scalar '"' then str "\\\""
  else if c = .scalar '\n' then str "\\n"
  else [c]

/-- The three replacements, one after the other, escape character by character: the first
    writes the backslashes of the value, before the others write their own. -/
theorem escapeLabelValue_eq (value : Str) : escapeLabelValue value = value.flatMap escapeWord := by
  unfold escapeLabelValue replaceChar
  rw [List.flatMap_assoc, List.flatMap_assoc]
  congr 1
  funext c
  by_cases hback : c = .scalar '\\'
  · subst hback
    decide
  · by_cases hquote : c = .scalar '"'
    · subst hquote
      decide
    · by_cases hend : c = .scalar '\n'
      · subst hend
        decide
      · simp [escapeWord, hback, hquote, hend]

/-- A word is the character itself, or a backslash and a letter. -/
theorem escapeWord_cases (c : CodePoint) :
    (escapeWord c = [c] ∧ c ≠ .scalar '\\' ∧ c ≠ .scalar '"' ∧ c ≠ .scalar '\n') ∨
    ∃ d e, escapeWord c = [.scalar '\\', .scalar e] ∧ c = .scalar d ∧
      ((d = '\\' ∧ e = '\\') ∨ (d = '"' ∧ e = '"') ∨ (d = '\n' ∧ e = 'n')) := by
  by_cases hback : c = .scalar '\\'
  · subst hback
    exact .inr ⟨'\\', '\\', by decide, rfl, by simp⟩
  · by_cases hquote : c = .scalar '"'
    · subst hquote
      exact .inr ⟨'"', '"', by decide, rfl, by simp⟩
    · by_cases hend : c = .scalar '\n'
      · subst hend
        exact .inr ⟨'\n', 'n', by decide, rfl, by simp⟩
      · exact .inl ⟨by simp [escapeWord, hback, hquote, hend], hback, hquote, hend⟩

theorem escapeWord_append_inj {a b : CodePoint} {r s : Str}
    (h : escapeWord a ++ r = escapeWord b ++ s) : a = b ∧ r = s := by
  rcases escapeWord_cases a with ⟨ha, hna, -⟩ | ⟨d, e, ha, rfl, hd⟩
  · rcases escapeWord_cases b with ⟨hb, hnb, -⟩ | ⟨d, e, hb, rfl, hd⟩
    · rw [ha, hb] at h
      exact List.cons.inj h
    · rw [ha, hb] at h
      exact absurd (List.cons.inj h).1 hna
  · rcases escapeWord_cases b with ⟨hb, hnb, -⟩ | ⟨d', e', hb, rfl, hd'⟩
    · rw [ha, hb] at h
      exact absurd (List.cons.inj h).1.symm hnb
    · -- two escapes: the letter tells which character it is
      rw [ha, hb] at h
      obtain ⟨he, hrest⟩ := List.cons.inj (List.cons.inj h).2
      refine ⟨?_, hrest⟩
      obtain rfl : e = e' := CodePoint.scalar.inj he
      rcases hd with ⟨rfl, rfl⟩ | ⟨rfl, rfl⟩ | ⟨rfl, rfl⟩
      · rcases hd' with ⟨rfl, -⟩ | ⟨rfl, hne⟩ | ⟨rfl, hne⟩
        · rfl
        · exact absurd hne (by decide)
        · exact absurd hne (by decide)
      · rcases hd' with ⟨rfl, hne⟩ | ⟨rfl, -⟩ | ⟨rfl, hne⟩
        · exact absurd hne (by decide)
        · rfl
        · exact absurd hne (by decide)
      · rcases hd' with ⟨rfl, hne⟩ | ⟨rfl, hne⟩ | ⟨rfl, -⟩
        · exact absurd hne (by decide)
        · exact absurd hne (by decide)
        · rfl

theorem escapeWord_ne_quote (c : CodePoint) (r s : Str) :
    escapeWord c ++ r ≠ .scalar '"' :: s := by
  intro h
  rcases escapeWord_cases c with ⟨hc, -, hquote, -⟩ | ⟨d, e, hc, -⟩
  · rw [hc] at h
    exact hquote (List.cons.inj h).1
  · rw [hc] at h
    exact absurd (List.cons.inj h).1 (by decide)

/-- **A quoted value is read back** up to its closing quote, whatever it is. -/
theorem escapeLabelValue_inj {v w r s : Str}
    (h : escapeLabelValue v ++ .scalar '"' :: r = escapeLabelValue w ++ .scalar '"' :: s) :
    v = w ∧ r = s := by
  rw [escapeLabelValue_eq, escapeLabelValue_eq] at h
  exact flatMap_append_inj (fun _ _ _ _ => escapeWord_append_inj) escapeWord_ne_quote h

theorem newline_not_mem_escapeLabelValue (value : Str) :
    .scalar '\n' ∉ escapeLabelValue value := by
  rw [escapeLabelValue_eq, List.mem_flatMap]
  intro hmem
  obtain ⟨c, -, hc⟩ := hmem
  rcases escapeWord_cases c with ⟨hword, -, -, hend⟩ | ⟨d, e, hword, -, hd⟩
  · rw [hword, List.mem_singleton] at hc
    exact hend hc.symm
  · rw [hword] at hc
    rcases hd with ⟨-, rfl⟩ | ⟨-, rfl⟩ | ⟨-, rfl⟩
    · exact absurd hc (by decide)
    · exact absurd hc (by decide)
    · exact absurd hc (by decide)

/-- A number needs no escapes. -/
theorem escapeLabelValue_number {value : Str} (h : ∀ c ∈ value, isNumberChar c = true) :
    escapeLabelValue value = value := by
  rw [escapeLabelValue_eq]
  induction value with
  | nil => rfl
  | cons c value ih =>
    obtain ⟨hc, hvalue⟩ := List.forall_mem_cons.mp h
    have hword : escapeWord c = [c] := by
      rcases escapeWord_cases c with ⟨hword, -⟩ | ⟨d, e, -, rfl, hd⟩
      · exact hword
      · rcases hd with ⟨rfl, -⟩ | ⟨rfl, -⟩ | ⟨rfl, -⟩
        · exact absurd hc (by decide)
        · exact absurd hc (by decide)
        · exact absurd hc (by decide)
    rw [List.flatMap_cons, hword, ih hvalue]
    rfl

/-! ### Samples -/

/-- A label name of the exposition format: letters, digits and `_`, no digit first. -/
def isLabelName (name : Str) : Bool :=
  name ≠ [] && !name.head?.any CodePoint.isDigit &&
    name.all fun c => isNameChar c && c ≠ .scalar ':'

/-- A sample: its name, its labels with their values, and its number. -/
structure Sample where
  name : Str
  labels : List (Str × Str)
  value : Str
  deriving DecidableEq

/-- One label. -/
def pairText (pair : Str × Str) : Str :=
  pair.1 ++ str "=\"" ++ escapeLabelValue pair.2 ++ str "\""

/-- The labels of a sample. -/
def labelText (labels : List (Str × Str)) : Str :=
  if labels = [] then [] else str "\x7b" ++ joinComma (labels.map pairText) ++ str "\x7d"

namespace Sample

/-- The line of a sample. -/
def line (s : Sample) : Str := s.name ++ labelText s.labels ++ str " " ++ s.value

/-- The labels as a set. -/
def labelSet (s : Sample) : Finset (Str × Str) := s.labels.toFinset

/-- The names of a sample are names of the format. -/
structure Readable (s : Sample) : Prop where
  name : ∀ c ∈ s.name, isNameChar c = true
  labels : ∀ pair ∈ s.labels, isLabelName pair.1 = true

end Sample

theorem isNameChar_of_isLabelName {name : Str} (h : isLabelName name = true) :
    ∀ c ∈ name, isNameChar c = true := by
  intro c hc
  simp only [isLabelName, Bool.and_eq_true, List.all_eq_true] at h
  exact (h.2 c hc).1

/-- A label is read back: its name ends at the sign `=`, which is in no name. -/
theorem pairText_append_inj {p q : Str × Str} (hp : isLabelName p.1 = true)
    (hq : isLabelName q.1 = true) {r s : Str} (h : pairText p ++ r = pairText q ++ s) :
    p = q ∧ r = s := by
  obtain ⟨name, value⟩ := p
  obtain ⟨name', value'⟩ := q
  have htext : name ++ (str "=\"" ++ (escapeLabelValue value ++ .scalar '"' :: r)) =
      name' ++ (str "=\"" ++ (escapeLabelValue value' ++ .scalar '"' :: s)) := by
    simp only [pairText, List.append_assoc] at h
    exact h
  have hsign : ∀ (t : Str) (c : CodePoint), (str "=\"" ++ t).head? = some c →
      isNameChar c = false := by
    intro t c hc
    rw [← Option.some.inj hc]
    decide
  obtain ⟨hname, hrest⟩ := run_append_inj (isNameChar_of_isLabelName hp)
    (isNameChar_of_isLabelName hq) (hsign _) (hsign _) htext
  obtain ⟨hvalue, htail⟩ := escapeLabelValue_inj (List.append_cancel_left hrest)
  exact ⟨Prod.ext hname hvalue, htail⟩

/-- The labels are read back up to the closing brace. -/
theorem joinComma_pairs_inj {ps qs : List (Str × Str)} (hps : ∀ p ∈ ps, isLabelName p.1 = true)
    (hqs : ∀ q ∈ qs, isLabelName q.1 = true) (hps' : ps ≠ []) (hqs' : qs ≠ []) {r s : Str}
    (h : joinComma (ps.map pairText) ++ .scalar '\x7d' :: r =
      joinComma (qs.map pairText) ++ .scalar '\x7d' :: s) : ps = qs ∧ r = s := by
  cases ps with
  | nil => exact absurd rfl hps'
  | cons p ps =>
    cases qs with
    | nil => exact absurd rfl hqs'
    | cons q qs =>
      obtain ⟨hp, hps⟩ := List.forall_mem_cons.mp hps
      obtain ⟨hq, hqs⟩ := List.forall_mem_cons.mp hqs
      simp only [List.map_cons, joinComma, List.append_assoc, List.flatMap_map] at h
      obtain ⟨hpq, hrest⟩ := pairText_append_inj hp hq h
      -- each of the other labels is a word that starts with a comma
      obtain ⟨htail, hend⟩ := flatMap_append_inj_of_mem
        (fun a ha b hb r s hword => pairText_append_inj (hps a ha) (hqs b hb)
          (List.cons.inj hword).2)
        (fun a r s hword => absurd (List.cons.inj hword).1 (by decide)) hrest
      exact ⟨by rw [hpq, htail], hend⟩

/-- **A line is read back**: its text determines the sample name and every label value. -/
theorem Sample.line_inj {s t : Sample} (hs : s.Readable) (ht : t.Readable)
    (h : s.line = t.line) : s.name = t.name ∧ s.labels = t.labels := by
  have hhead : ∀ (u : Sample) (c : CodePoint),
      (labelText u.labels ++ (str " " ++ u.value)).head? = some c → isNameChar c = false := by
    intro u c hc
    unfold labelText at hc
    by_cases hu : u.labels = []
    · rw [if_pos hu] at hc
      rw [← Option.some.inj hc]
      decide
    · rw [if_neg hu] at hc
      rw [← Option.some.inj hc]
      decide
  have htext : s.name ++ (labelText s.labels ++ (str " " ++ s.value)) =
      t.name ++ (labelText t.labels ++ (str " " ++ t.value)) := by
    simpa only [Sample.line, List.append_assoc] using h
  obtain ⟨hname, hrest⟩ := run_append_inj hs.name ht.name (hhead s) (hhead t) htext
  refine ⟨hname, ?_⟩
  unfold labelText at hrest
  by_cases hsl : s.labels = []
  · by_cases htl : t.labels = []
    · rw [hsl, htl]
    · rw [if_pos hsl, if_neg htl] at hrest
      exact absurd (List.cons.inj hrest).1 (by decide)
  · by_cases htl : t.labels = []
    · rw [if_neg hsl, if_pos htl] at hrest
      exact absurd (List.cons.inj hrest).1 (by decide)
    · rw [if_neg hsl, if_neg htl] at hrest
      simp only [List.append_assoc] at hrest
      exact (joinComma_pairs_inj hs.labels ht.labels hsl htl (List.append_cancel_left hrest)).1

/-! ### Lines of a text -/

/-- The lines of a text, after the part `line` of one. -/
def linesFrom (line : Str) : Str → List Str
  | [] => if line = [] then [] else [line]
  | c :: rest =>
    if c = .scalar '\n' then line :: linesFrom [] rest else linesFrom (line ++ [c]) rest

/-- The lines of a text, each ended by `\n`. -/
def textLines (text : Str) : List Str := linesFrom [] text

theorem linesFrom_append {line : Str} (rest : Str) (h : .scalar '\n' ∉ line) (start : Str) :
    linesFrom start (line ++ .scalar '\n' :: rest) = (start ++ line) :: linesFrom [] rest := by
  induction line generalizing start with
  | nil => rw [List.nil_append, linesFrom, if_pos rfl, List.append_nil]
  | cons c line ih =>
    have hc : c ≠ .scalar '\n' := fun heq => h (by simp [heq])
    rw [List.cons_append, linesFrom, if_neg hc, ih fun hmem => h (List.mem_cons_of_mem c hmem),
      List.append_assoc]
    rfl

/-- Lines that hold no line end are the lines of their text. -/
theorem textLines_flatMap {lines : List Str} (h : ∀ line ∈ lines, .scalar '\n' ∉ line) :
    textLines (lines.flatMap fun line => line ++ str "\n") = lines := by
  unfold textLines
  induction lines with
  | nil => rfl
  | cons line lines ih =>
    obtain ⟨hline, hlines⟩ := List.forall_mem_cons.mp h
    have htext : ((line :: lines).flatMap fun line => line ++ str "\n") =
        line ++ .scalar '\n' :: lines.flatMap fun line => line ++ str "\n" := by
      rw [List.flatMap_cons, List.append_assoc]
      rfl
    rw [htext, linesFrom_append _ hline, ih hlines, List.nil_append]

end Observability

end IncidentEvidence
