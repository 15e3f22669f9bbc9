import IncidentEvidence.Py.Csv
import IncidentEvidence.Py.Except

/-! # Reading CSV text character by character

    The reader takes lines, but what it does with a character depends only on its state: a
    text can be read from the middle of a line on. -/

namespace Py.Csv

/-- The lines that are left, from the start of a line or from the middle of one. -/
def linesFrom (mid : Bool) (text : Str) : List Str :=
  if mid = true ∧ text = [] then [[]] else lines text

/-- Reading what is left of a text. -/
def Reader.readFrom (limit : ℕ) (mid : Bool) (r : Reader) (text : Str) :
    List (List Str) × Option Error :=
  r.records limit (linesFrom mid text)

/-- Reading on after a line: a record ends when the reader is back in its first state. -/
def Reader.afterLine (limit : ℕ) (r : Reader) (text : Str) : List (List Str) × Option Error :=
  if r.state = .startRecord then
    (r.fields :: (Reader.reset.readFrom limit false text).1, (Reader.reset.readFrom limit false text).2)
  else r.readFrom limit false text

theorem reader_eq_readFrom (limit : ℕ) (text : Str) :
    reader limit text = Reader.reset.readFrom limit false text := rfl

section run
variable {limit : ℕ} {mid : Bool} {r : Reader} {c : CodePoint} {rest : Str}

theorem readFrom_start_nil : r.readFrom limit false [] =
    ([], if r.field ≠ [] ∨ r.state = .inQuotedField then some .unexpectedEnd else none) := rfl

theorem records_cons (line : Str) (more : List Str) :
    r.records limit (line :: more) =
      match r.processLine limit line with
      | .error e => ([], some e)
      | .ok r =>
        if r.state = .startRecord then
          (r.fields :: (Reader.reset.records limit more).1, (Reader.reset.records limit more).2)
        else r.records limit more := rfl

/-- The end of a text in the middle of a line is the end of the line. -/
theorem readFrom_mid_nil : r.readFrom limit true [] =
    match r.processChar limit none with
    | .error e => ([], some e)
    | .ok r => r.afterLine limit [] := rfl

theorem readFrom_newline : r.readFrom limit mid (.scalar '\n' :: rest) =
    match r.processChar limit (some (.scalar '\n')) >>= fun r => r.processChar limit none with
    | .error e => ([], some e)
    | .ok r => r.afterLine limit rest := by
  have hlines : linesFrom mid (.scalar '\n' :: rest) = [.scalar '\n'] :: lines rest := by
    unfold linesFrom
    rw [if_neg (by simp), lines, if_pos rfl]
  unfold Reader.readFrom
  rw [hlines, records_cons, Reader.processLine, List.foldlM_cons]
  cases r.processChar limit (some (.scalar '\n')) with
  | error e => rfl
  | ok r => rfl

theorem lines_ne_nil (h : rest ≠ []) : lines rest ≠ [] := by
  cases rest with
  | nil => exact absurd rfl h
  | cons c rest =>
    rw [lines]
    by_cases hc : c = .scalar '\n'
    · rw [if_pos hc]
      simp
    · rw [if_neg hc]
      cases lines rest with
      | nil => simp
      | cons line more => simp

/-- A character that is no newline belongs to the line of the next one. -/
theorem lines_cons (hc : c ≠ .scalar '\n') :
    ∃ line more, lines (c :: rest) = (c :: line) :: more ∧ linesFrom true rest = line :: more := by
  rw [lines, if_neg hc]
  by_cases hrest : rest = []
  · subst hrest
    exact ⟨[], [], rfl, rfl⟩
  · have hlines : linesFrom true rest = lines rest := if_neg (by simp [hrest])
    rw [hlines]
    cases hmore : lines rest with
    | nil => exact absurd hmore (lines_ne_nil hrest)
    | cons line more => exact ⟨line, more, rfl, rfl⟩

theorem readFrom_cons (hc : c ≠ .scalar '\n') : r.readFrom limit mid (c :: rest) =
    match r.processChar limit (some c) with
    | .error e => ([], some e)
    | .ok r => r.readFrom limit true rest := by
  obtain ⟨line, more, hlines, hrest⟩ := @lines_cons c rest hc
  have hfrom : linesFrom mid (c :: rest) = lines (c :: rest) := if_neg (by simp)
  unfold Reader.readFrom
  rw [hfrom, hlines, hrest, records_cons, Reader.processLine, List.foldlM_cons]
  cases r.processChar limit (some c) with
  | error e => rfl
  | ok r => rfl

/-! ### One character -/

/-- The reader after a character, and after the end of the line that a newline brings. -/
def Reader.step (limit : ℕ) (r : Reader) (c : CodePoint) : Except Error Reader := do
  let r ← r.processChar limit (some c)
  if c = .scalar '\n' then
    let r ← r.processChar limit none
    return if r.state = .startRecord then .reset else r
  else return r

/-- A quote inside an unquoted field is a character like any other. -/
theorem processChar_quote_inField (h : r.state = .inField) :
    r.processChar limit (some (.scalar '"')) = r.addChar limit (.scalar '"') .inField := by
  unfold Reader.processChar
  rw [h]
  rfl

/-- A character other than a newline is one turn of the reader. -/
theorem step_eq_processChar (hc : c ≠ .scalar '\n') :
    r.step limit c = r.processChar limit (some c) := by
  unfold Reader.step
  simp only [if_neg hc]
  cases r.processChar limit (some c) with
  | error e => rfl
  | ok r => rfl

/-! ### A text in two parts -/

/-- A turn of the reader completes some records; then the rest is read. -/
theorem readFrom_step (mid : Bool) {r' : Reader} (h : r.step limit c = .ok r') :
    ∃ records mid', ∀ rest,
    r.readFrom limit mid (c :: rest) =
      (records ++ (r'.readFrom limit mid' rest).1, (r'.readFrom limit mid' rest).2) := by
  by_cases hc : c = .scalar '\n'
  · subst hc
    unfold Reader.step at h
    cases hchar : r.processChar limit (some (.scalar '\n')) with
    | error e => simp [hchar, bind, Except.bind] at h
    | ok r₁ =>
      cases hend : r₁.processChar limit none with
      | error e => simp [hchar, hend, bind, Except.bind] at h
      | ok r₂ =>
        have hnext : r' = if r₂.state = .startRecord then .reset else r₂ := by
          simpa [hchar, hend, bind, Except.bind, pure, Except.pure] using h.symm
        have hline : ∀ rest, r.readFrom limit mid (.scalar '\n' :: rest) = r₂.afterLine limit rest := by
          intro rest
          rw [readFrom_newline, hchar]
          simp only [bind, Except.bind, hend]
        unfold Reader.afterLine at hline
        by_cases hstart : r₂.state = .startRecord
        · rw [if_pos hstart] at hnext
          refine ⟨[r₂.fields], false, fun rest => ?_⟩
          rw [hline, if_pos hstart, hnext]
          rfl
        · rw [if_neg hstart] at hnext
          refine ⟨[], false, fun rest => ?_⟩
          rw [hline, if_neg hstart, hnext]
          rfl
  · refine ⟨[], true, fun rest => ?_⟩
    rw [readFrom_cons hc, ← step_eq_processChar hc, h]
    rfl

/-- What the reader has completed before it goes on with the second part of a text. -/
theorem readFrom_append (mid : Bool) {before : Str} {r' : Reader}
    (h : before.foldlM (Reader.step limit) r = .ok r') : ∃ records mid', ∀ rest,
    r.readFrom limit mid (before ++ rest) =
      (records ++ (r'.readFrom limit mid' rest).1, (r'.readFrom limit mid' rest).2) := by
  induction before generalizing r mid with
  | nil =>
    obtain rfl := Except.ok.inj h
    exact ⟨[], mid, fun _ => rfl⟩
  | cons c before ih =>
    rw [List.foldlM_cons, bind_eq_ok] at h
    obtain ⟨r₁, hstep, hrun⟩ := h
    obtain ⟨first, mid₁, hfirst⟩ := readFrom_step mid hstep
    obtain ⟨more, mid', hmore⟩ := ih mid₁ hrun
    refine ⟨first ++ more, mid', fun rest => ?_⟩
    rw [List.cons_append, hfirst, hmore, List.append_assoc]

/-- Each comma outside quotes is one more field. -/
theorem readFrom_commas (hstate : r.state = .inField ∨ r.state = .startField) (n : ℕ) :
    ∃ record, r.readFrom limit true (List.replicate n (.scalar ',')) = ([record], none) ∧
      record.length = r.fields.length + n + 1 := by
  induction n generalizing r with
  | zero =>
    have hend : r.processChar limit none = .ok (r.saveField .startRecord) := by
      unfold Reader.processChar Reader.startField
      rcases hstate with hstate | hstate <;> rw [hstate]
    refine ⟨r.fields ++ [r.field], ?_, by simp⟩
    rw [List.replicate_zero, readFrom_mid_nil, hend]
    rfl
  | succ n ih =>
    have hchar : r.processChar limit (some (.scalar ',')) = .ok (r.saveField .startField) := by
      unfold Reader.processChar Reader.startField
      rcases hstate with hstate | hstate <;> rw [hstate] <;> rfl
    obtain ⟨record, hread, hlength⟩ := @ih (r.saveField .startField) (.inr rfl)
    refine ⟨record, ?_, ?_⟩
    · rw [List.replicate_succ, readFrom_cons (by decide), hchar]
      exact hread
    · rw [hlength]
      simp [Reader.saveField]
      omega

end run

end Py.Csv
