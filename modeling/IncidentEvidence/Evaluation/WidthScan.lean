import IncidentEvidence.Evaluation.CsvLoader
import IncidentEvidence.Py.CsvRun

/-! # The column scan and the CSV reader

    `_validate_logical_record_width` counts the columns of a record before `csv.reader` makes
    its fields. The scan only counts quotes; for the reader a quote inside an unquoted field is
    a character like any other. As long as neither gets to such a quote the two stay in step;
    from the first one on the text can go on so that they disagree (`width_scan_agrees`). -/

namespace IncidentEvidence

open Py

/-! ### The scan -/

/-- The scan without its two looks ahead, from inside or outside quotes and with the columns
    seen so far. -/
def overWide (maxColumns : ℕ) : Bool → ℕ → Str → Bool
  | _, _, [] => false
  | inQuotes, columnCount, c :: rest =>
    if c = .scalar '"' then overWide maxColumns (!inQuotes) columnCount rest
    else if inQuotes = true then overWide maxColumns true columnCount rest
    else if c = .scalar ',' then
      decide (maxColumns < columnCount + 1) || overWide maxColumns false (columnCount + 1) rest
    else if c = .scalar '\r' ∨ c = .scalar '\n' then overWide maxColumns false 1 rest
    else overWide maxColumns false columnCount rest

section scan
variable {maxColumns : ℕ} {caseId : CaseId}

/-- The looks ahead change nothing: two quotes leave the parity as it is, and a line feed after
    a carriage return ends an empty line. -/
theorem validateRecordWidth_eq (skip inQuotes : Bool) (columnCount : ℕ) (text : Str) :
    validateRecordWidth maxColumns caseId skip inQuotes columnCount text =
      if overWide maxColumns inQuotes columnCount (if skip = true then text.tail else text) = true
      then loadError .columnLimitExceeded caseId else .ok () := by
  induction text generalizing skip inQuotes columnCount with
  | nil => cases skip <;> rfl
  | cons c rest ih =>
    cases skip with
    | true =>
      rw [validateRecordWidth, if_pos rfl, ih]
      rfl
    | false =>
      have hcons : ∀ l : Str, (if false = true then l.tail else l) = l := fun _ => rfl
      rw [validateRecordWidth, if_neg Bool.false_ne_true, hcons, overWide]
      by_cases hquote : c = .scalar '"'
      · rw [if_pos hquote, if_pos hquote]
        -- a doubled quote is skipped by the one and toggles twice in the other
        by_cases hdouble : inQuotes = true ∧ rest.head? = some (.scalar '"')
        · obtain ⟨rfl, hnext⟩ := hdouble
          obtain ⟨more, rfl⟩ := List.head?_eq_some_iff.mp hnext
          rw [if_pos ⟨rfl, rfl⟩, ih]
          simp [overWide]
        · rw [if_neg hdouble, ih]
          rfl
      · rw [if_neg hquote, if_neg hquote]
        cases inQuotes with
        | true =>
          simp only [Bool.true_eq_false, and_false, if_false, if_true]
          rw [ih]
          rfl
        | false =>
          simp only [and_true, Bool.false_eq_true, if_false]
          by_cases hcomma : c = .scalar ','
          · rw [if_pos hcomma, if_pos hcomma]
            by_cases hlimit : maxColumns < columnCount + 1
            · simp [hlimit]
            · rw [if_neg hlimit, ih]
              simp [hlimit]
          · rw [if_neg hcomma, if_neg hcomma]
            by_cases hnewline : c = .scalar '\r' ∨ c = .scalar '\n'
            · rw [if_pos hnewline, if_pos hnewline, ih]
              -- one line end of two characters
              by_cases hcrlf : c = .scalar '\r' ∧ rest.head? = some (.scalar '\n')
              · obtain ⟨more, rfl⟩ := List.head?_eq_some_iff.mp hcrlf.2
                rw [decide_eq_true hcrlf]
                simp [overWide]
              · rw [decide_eq_false hcrlf]
                rfl
            · rw [if_neg hnewline, if_neg hnewline, ih]
              rfl

/-- The scan refuses what is over-wide. -/
theorem validateRecordWidth_ok_iff {text : Str} :
    validateRecordWidth maxColumns caseId false false 1 text = .ok () ↔
      overWide maxColumns false 1 text = false := by
  rw [validateRecordWidth_eq]
  by_cases h : overWide maxColumns false 1 text = true
  · simp [h, loadError]
  · simp [h]

end scan

/-! ### In step -/

section step
open Csv

variable {limit maxColumns : ℕ}

/-- The state of the scan after a character. -/
def advance (inQuotes : Bool) (columnCount : ℕ) (c : CodePoint) : Bool × ℕ :=
  if c = .scalar '"' then (!inQuotes, columnCount)
  else if inQuotes = true then (true, columnCount)
  else if c = .scalar ',' then (false, columnCount + 1)
  else if c = .scalar '\r' ∨ c = .scalar '\n' then (false, 1)
  else (false, columnCount)

/-- The scan and the reader are in step: inside quotes together, with as many columns. -/
def InStep (maxColumns : ℕ) (inQuotes : Bool) (columnCount : ℕ) (r : Reader) : Prop :=
  match r.state with
  | .startRecord => inQuotes = false ∧ columnCount = 1 ∧ r.fields = []
  | .startField | .inField | .quoteInQuotedField =>
    inQuotes = false ∧ columnCount = r.fields.length + 1
  | .inQuotedField => inQuotes = true ∧ columnCount = r.fields.length + 1
  | .eatCrnl => inQuotes = false ∧ columnCount = 1 ∧ r.fields.length ≤ maxColumns

/-- The record being read will have more than so many fields. -/
def Widening (maxColumns : ℕ) (r : Reader) : Prop :=
  match r.state with
  | .startRecord => False
  | .startField | .inField | .quoteInQuotedField | .inQuotedField => maxColumns ≤ r.fields.length
  | .eatCrnl => maxColumns < r.fields.length

theorem addChar_eq_ok {r r' : Reader} {c : CodePoint} {next : State}
    (h : r.addChar limit c next = .ok r') : r' = ⟨next, r.field ++ [c], r.fields⟩ := by
  unfold Reader.addChar at h
  by_cases hlimit : limit ≤ r.field.length
  · rw [if_pos hlimit] at h
    exact absurd h (by simp)
  · rw [if_neg hlimit] at h
    exact (Except.ok.inj h).symm

/-- A character keeps the scan and the reader in step, but for a quote inside an unquoted
    field. -/
theorem InStep.processChar {inQuotes : Bool} {columnCount : ℕ} {r r' : Reader} {c : CodePoint}
    (h : InStep maxColumns inQuotes columnCount r) (hcolumns : columnCount ≤ maxColumns)
    (hstray : r.state = .inField → c ≠ .scalar '"')
    (hchar : r.processChar limit (some c) = .ok r') :
    InStep maxColumns (advance inQuotes columnCount c).1 (advance inQuotes columnCount c).2 r' := by
  obtain ⟨state, field, fields⟩ := r
  have hadd := @addChar_eq_ok limit ⟨state, field, fields⟩ r' c
  -- what opens, closes or separates fields for the reader does so for the scan
  cases state with
  | startRecord =>
    obtain ⟨rfl, rfl, hfields⟩ := h
    grind [advance, InStep, Reader.processChar, Reader.startField, isNewline, Reader.saveField]
  | startField =>
    obtain ⟨rfl, hcount⟩ := h
    grind [advance, InStep, Reader.processChar, Reader.startField, isNewline, Reader.saveField]
  | inField =>
    obtain ⟨rfl, hcount⟩ := h
    grind [advance, InStep, Reader.processChar, Reader.startField, isNewline, Reader.saveField]
  | inQuotedField =>
    obtain ⟨rfl, hcount⟩ := h
    grind [advance, InStep, Reader.processChar, Reader.startField, isNewline, Reader.saveField]
  | quoteInQuotedField =>
    obtain ⟨rfl, hcount⟩ := h
    grind [advance, InStep, Reader.processChar, Reader.startField, isNewline, Reader.saveField]
  | eatCrnl =>
    obtain ⟨rfl, hcount, hfields⟩ := h
    grind [advance, InStep, Reader.processChar, Reader.startField, isNewline, Reader.saveField]

/-- At the end of a line in step, a record of at most so many fields is complete, or the
    reader is inside quotes. -/
theorem InStep.endLine {inQuotes : Bool} {columnCount : ℕ} {r r' : Reader}
    (h : InStep maxColumns inQuotes columnCount r) (hcolumns : columnCount ≤ maxColumns)
    (hend : r.processChar limit none = .ok r') :
    inQuotes = false ∧ r'.state = .startRecord ∧ r'.fields.length ≤ maxColumns ∨
      r' = r ∧ r.state = .inQuotedField := by
  obtain ⟨state, field, fields⟩ := r
  cases state with
  | inQuotedField => exact .inr ⟨(Except.ok.inj hend).symm, rfl⟩
  | startRecord =>
    obtain rfl := Except.ok.inj hend
    obtain ⟨hquotes, -, rfl⟩ := h
    exact .inl ⟨hquotes, rfl, Nat.zero_le _⟩
  | eatCrnl =>
    obtain rfl := Except.ok.inj hend
    exact .inl ⟨h.1, rfl, h.2.2⟩
  | _ =>
    obtain rfl := Except.ok.inj hend
    refine .inl ⟨h.1, rfl, ?_⟩
    show (fields ++ [field]).length ≤ maxColumns
    rw [List.length_append, List.length_singleton, ← h.2]
    exact hcolumns

/-- A record that is too wide already stays so. -/
theorem Widening.processChar {r r' : Reader} {c : CodePoint} (h : Widening maxColumns r)
    (hchar : r.processChar limit (some c) = .ok r') : Widening maxColumns r' := by
  obtain ⟨state, field, fields⟩ := r
  have hadd := @addChar_eq_ok limit ⟨state, field, fields⟩ r' c
  cases state with
  | startRecord => exact h.elim
  | _ => grind [Widening, Reader.processChar, Reader.startField, isNewline, Reader.saveField]

theorem Widening.endLine {r r' : Reader} (h : Widening maxColumns r)
    (hend : r.processChar limit none = .ok r') :
    r'.state = .startRecord ∧ maxColumns < r'.fields.length ∨
      r' = r ∧ r.state = .inQuotedField := by
  obtain ⟨state, field, fields⟩ := r
  cases state with
  | inQuotedField => exact .inr ⟨(Except.ok.inj hend).symm, rfl⟩
  | startRecord => exact h.elim
  | eatCrnl =>
    obtain rfl := Except.ok.inj hend
    exact .inl ⟨rfl, h⟩
  | _ =>
    obtain rfl := Except.ok.inj hend
    refine .inl ⟨rfl, ?_⟩
    show maxColumns < (fields ++ [field]).length
    rw [List.length_append, List.length_singleton]
    exact Nat.lt_succ_of_le h

/-- In step with more columns than allowed, the reader is in a record that is too wide. -/
theorem InStep.widening {inQuotes : Bool} {columnCount : ℕ} {r : Reader}
    (h : InStep maxColumns inQuotes columnCount r) (hpositive : 1 ≤ maxColumns)
    (hcolumns : maxColumns < columnCount) : Widening maxColumns r := by
  obtain ⟨state, field, fields⟩ := r
  cases state with
  | startRecord =>
    obtain ⟨-, rfl, -⟩ := h
    omega
  | eatCrnl =>
    obtain ⟨-, rfl, -⟩ := h
    omega
  | _ =>
    obtain ⟨-, rfl⟩ := h
    exact Nat.le_of_lt_succ hcolumns

/-- Some record has more than so many fields. -/
def RecordTooWide (maxColumns : ℕ) (read : List (List Str) × Option Error) : Prop :=
  ∃ record ∈ read.1, maxColumns < record.length

/-- A record that is too wide already is read in the end, or the reader fails. -/
theorem Widening.readFrom {r : Reader} {mid : Bool} {text : Str} (h : Widening maxColumns r)
    (hmid : mid = true ∨ r.state = .inQuotedField) :
    RecordTooWide maxColumns (r.readFrom limit mid text) ∨ (r.readFrom limit mid text).2 ≠ none := by
  -- at the end of a line the record is too wide already, or it goes on inside a quoted field
  have hafter : ∀ (r r' : Reader) (rest : Str), Widening maxColumns r →
      r.processChar limit none = .ok r' →
      (r.state = .inQuotedField → RecordTooWide maxColumns (r.readFrom limit false rest) ∨
        (r.readFrom limit false rest).2 ≠ none) →
      RecordTooWide maxColumns (r'.afterLine limit rest) ∨ (r'.afterLine limit rest).2 ≠ none := by
    intro r r' rest hr hend hquoted
    unfold Reader.afterLine
    rcases hr.endLine hend with ⟨hstart, hwide⟩ | ⟨rfl, hstate⟩
    · rw [if_pos hstart]
      exact .inl ⟨r'.fields, List.mem_cons_self, hwide⟩
    · rw [if_neg (by simp [hstate])]
      exact hquoted hstate
  induction text generalizing r mid with
  | nil =>
    have hquoted : ∀ r : Reader, r.state = .inQuotedField →
        (r.readFrom limit false []).2 ≠ none := by
      intro r hstate
      simp [readFrom_start_nil, hstate]
    cases mid with
    | true =>
      rw [readFrom_mid_nil]
      cases hend : r.processChar limit none with
      | error e => exact .inr (by simp)
      | ok r' => exact hafter r r' [] h hend fun hstate => .inr (hquoted r hstate)
    | false => exact .inr (hquoted r (hmid.resolve_left (by simp)))
  | cons c rest ih =>
    by_cases hc : c = .scalar '\n'
    · subst hc
      rw [readFrom_newline]
      cases hchar : r.processChar limit (some (.scalar '\n')) with
      | error e => exact .inr (by simp [bind, Except.bind])
      | ok r' =>
        have hwidening := h.processChar hchar
        simp only [bind, Except.bind]
        cases hend : r'.processChar limit none with
        | error e => exact .inr (by simp)
        | ok r'' => exact hafter r' r'' rest hwidening hend fun hstate => ih hwidening (.inr hstate)
    · rw [readFrom_cons hc]
      cases hchar : r.processChar limit (some c) with
      | error e => exact .inr (by simp)
      | ok r' => exact ih (h.processChar hchar) (.inl rfl)

/-- What the scan does with one more character. -/
theorem overWide_cons (inQuotes : Bool) (columnCount : ℕ) (c : CodePoint) (rest : Str) :
    overWide maxColumns inQuotes columnCount (c :: rest) =
      (decide (maxColumns < (advance inQuotes columnCount c).2 ∧ inQuotes = false ∧
        c = .scalar ',') || overWide maxColumns (advance inQuotes columnCount c).1
          (advance inQuotes columnCount c).2 rest) := by
  rw [overWide]
  unfold advance
  by_cases hquote : c = .scalar '"'
  · simp [hquote]
  · cases inQuotes with
    | true => simp [hquote]
    | false =>
      by_cases hcomma : c = .scalar ','
      · simp [hcomma]
      · by_cases hnewline : c = .scalar '\r' ∨ c = .scalar '\n'
        · simp [hquote, hcomma, hnewline]
        · simp [hquote, hcomma, hnewline]

/-- A character that the scan does not refuse leaves as many columns as are allowed at most, and
    the scan goes on with the rest. -/
theorem advance_fits {inQuotes : Bool} {columnCount : ℕ} {c : CodePoint} (hpositive : 1 ≤ maxColumns)
    (hcolumns : columnCount ≤ maxColumns)
    (h : ¬ (maxColumns < (advance inQuotes columnCount c).2 ∧ inQuotes = false ∧ c = .scalar ',')) :
    (advance inQuotes columnCount c).2 ≤ maxColumns ∧
      ∀ rest, overWide maxColumns inQuotes columnCount (c :: rest) =
        overWide maxColumns (advance inQuotes columnCount c).1
          (advance inQuotes columnCount c).2 rest := by
  constructor
  · unfold advance at h ⊢
    grind
  · intro rest
    rw [overWide_cons, decide_eq_false h, Bool.false_or]

/-- In step, the scan and the reader agree on what is left of a text. -/
structure Concur (maxColumns : ℕ) (refused : Bool) (read : List (List Str) × Option Error) :
    Prop where
  accepts : refused = false → ¬ RecordTooWide maxColumns read
  refuses : refused = true → RecordTooWide maxColumns read ∨ read.2 ≠ none

theorem concur_error (refused : Bool) (e : Error) : Concur maxColumns refused ([], some e) :=
  ⟨fun _ h => by simp [RecordTooWide] at h, fun _ => .inr (by simp)⟩

/-- A record that fits changes nothing. -/
theorem Concur.cons {refused : Bool} {read : List (List Str) × Option Error} {record : List Str}
    (h : Concur maxColumns refused read) (hrecord : record.length ≤ maxColumns) :
    Concur maxColumns refused (record :: read.1, read.2) := by
  have hwide : RecordTooWide maxColumns (record :: read.1, read.2) ↔
      RecordTooWide maxColumns read := by
    unfold RecordTooWide
    rw [List.exists_mem_cons_iff]
    constructor
    · intro h
      exact h.resolve_left (by omega)
    · exact .inr
  constructor
  · intro hrefused
    rw [hwide]
    exact h.accepts hrefused
  · intro hrefused
    rw [hwide]
    exact h.refuses hrefused

/-- The scan and the reader get to the end of a text, and a quote that came next would stand
    inside an unquoted field, after its first character. -/
def BeforeStray (limit maxColumns : ℕ) (inQuotes : Bool) (columnCount : ℕ) (r : Reader)
    (before : Str) : Prop :=
  overWide maxColumns inQuotes columnCount before = false ∧
    ∃ r', before.foldlM (Reader.step limit) r = .ok r' ∧ r'.state = .inField ∧
      r'.field.length < limit

/-- There is such a quote in the text. -/
def StrayFrom (limit maxColumns : ℕ) (inQuotes : Bool) (columnCount : ℕ) (r : Reader)
    (text : Str) : Prop :=
  ∃ before after, text = before ++ .scalar '"' :: after ∧
    BeforeStray limit maxColumns inQuotes columnCount r before

/-- A stray quote of what is left is one of the text. -/
theorem strayFrom_cons {inQuotes : Bool} {columnCount : ℕ} {r r' : Reader} {c : CodePoint}
    {rest : Str} (hstep : r.step limit c = .ok r')
    (hsame : ∀ rest, overWide maxColumns inQuotes columnCount (c :: rest) =
      overWide maxColumns (advance inQuotes columnCount c).1 (advance inQuotes columnCount c).2 rest)
    (h : StrayFrom limit maxColumns (advance inQuotes columnCount c).1
      (advance inQuotes columnCount c).2 r' rest) :
    StrayFrom limit maxColumns inQuotes columnCount r (c :: rest) := by
  obtain ⟨before, after, htext, haccepted, r'', hrun, hinside⟩ := h
  refine ⟨c :: before, after, by rw [htext]; rfl, by rw [hsame]; exact haccepted, r'', ?_, hinside⟩
  rw [List.foldlM_cons, hstep]
  exact hrun

/-- A quote inside an unquoted field is a stray one, or too much for the field. -/
theorem processChar_quote {inQuotes : Bool} {columnCount : ℕ} {r : Reader} {rest : Str}
    (hstate : r.state = .inField)
    (hstray : ¬ StrayFrom limit maxColumns inQuotes columnCount r (.scalar '"' :: rest)) :
    r.processChar limit (some (.scalar '"')) = .error (.fieldLarger limit) := by
  have hfull : limit ≤ r.field.length := by
    by_contra hroom
    exact hstray ⟨[], rest, rfl, rfl, r, rfl, hstate, by omega⟩
  rw [processChar_quote_inField hstate]
  exact if_pos hfull

theorem concur_start_nil (r : Reader) : Concur maxColumns false (r.readFrom limit false []) :=
  ⟨fun _ hwide => by simp [RecordTooWide, readFrom_start_nil] at hwide, by simp⟩

/-- They agree at the end of the text, where the reader may complete a last record. -/
theorem InStep.concur_nil (mid : Bool) {inQuotes : Bool} {columnCount : ℕ} {r : Reader}
    (h : InStep maxColumns inQuotes columnCount r) (hcolumns : columnCount ≤ maxColumns) :
    Concur maxColumns false (r.readFrom limit mid []) := by
  cases mid with
  | false => exact concur_start_nil r
  | true =>
    rw [readFrom_mid_nil]
    cases hend : r.processChar limit none with
    | error e => exact concur_error _ e
    | ok r' =>
      show Concur maxColumns false (r'.afterLine limit [])
      unfold Reader.afterLine
      rcases h.endLine hcolumns hend with ⟨-, hstart, hfields⟩ | ⟨rfl, hquoted⟩
      · rw [if_pos hstart]
        exact (concur_start_nil _).cons hfields
      · rw [if_neg (by simp [hquoted])]
        exact concur_start_nil _

/-- **Without stray quotes the scan and the reader agree**, from any state in which they are
    in step. -/
theorem InStep.concur (mid : Bool) {inQuotes : Bool} {columnCount : ℕ} {r : Reader} {text : Str}
    (hpositive : 1 ≤ maxColumns) (h : InStep maxColumns inQuotes columnCount r)
    (hcolumns : columnCount ≤ maxColumns)
    (hstray : ¬ StrayFrom limit maxColumns inQuotes columnCount r text) :
    Concur maxColumns (overWide maxColumns inQuotes columnCount text)
      (r.readFrom limit mid text) := by
  induction text generalizing inQuotes columnCount r mid with
  | nil => exact h.concur_nil mid hcolumns
  | cons c rest ih =>
    by_cases hquote : r.state = .inField ∧ c = .scalar '"'
    · -- no stray quote, so there is no room left for this one and the reader fails
      obtain ⟨hstate, rfl⟩ := hquote
      rw [readFrom_cons (by decide), processChar_quote hstate hstray]
      exact concur_error _ _
    have hfield : r.state = .inField → c ≠ .scalar '"' := fun hstate hc => hquote ⟨hstate, hc⟩
    by_cases htoo : maxColumns < (advance inQuotes columnCount c).2 ∧ inQuotes = false ∧
        c = .scalar ','
    · -- the scan refuses the comma; the record is read in the end
      have hnewline : c ≠ .scalar '\n' := by
        rw [htoo.2.2]
        decide
      have hrefused : overWide maxColumns inQuotes columnCount (c :: rest) = true := by
        rw [overWide_cons, decide_eq_true htoo, Bool.true_or]
      rw [hrefused, readFrom_cons hnewline]
      cases hchar : r.processChar limit (some c) with
      | error e => exact concur_error _ e
      | ok r' =>
        have hwidening := (h.processChar hcolumns hfield hchar).widening hpositive htoo.1
        exact ⟨by simp, fun _ => hwidening.readFrom (.inl rfl)⟩
    obtain ⟨hfits, hsame⟩ := advance_fits hpositive hcolumns htoo
    rw [hsame]
    by_cases hnewline : c = .scalar '\n'
    · subst hnewline
      rw [readFrom_newline]
      cases hchar : r.processChar limit (some (.scalar '\n')) with
      | error e => exact concur_error _ e
      | ok r' =>
        have hnext := h.processChar hcolumns hfield hchar
        simp only [bind, Except.bind]
        cases hend : r'.processChar limit none with
        | error e => exact concur_error _ e
        | ok r'' =>
          have hstep : r.step limit (.scalar '\n') =
              .ok (if r''.state = .startRecord then .reset else r'') := by
            simp [Reader.step, hchar, hend, bind, Except.bind, pure, Except.pure]
          have hrest : ¬ StrayFrom limit maxColumns (advance inQuotes columnCount (.scalar '\n')).1
              (advance inQuotes columnCount (.scalar '\n')).2 _ rest :=
            fun hlater => hstray (strayFrom_cons hstep hsame hlater)
          show Concur maxColumns _ (r''.afterLine limit rest)
          unfold Reader.afterLine
          -- the line ends a record, or it goes on inside a quoted field
          rcases hnext.endLine hfits hend with ⟨hquotes, hstart, hfields⟩ | ⟨rfl, hquoted⟩
          · rw [if_pos hstart] at hrest ⊢
            have hone : advance inQuotes columnCount (.scalar '\n') = (false, 1) := by
              cases inQuotes with
              | true => exact absurd hquotes (by simp [advance])
              | false => rfl
            have hreset : InStep maxColumns false 1 .reset := ⟨rfl, rfl, rfl⟩
            rw [hone] at hrest ⊢
            exact (ih false hreset hpositive hrest).cons hfields
          · have hinside : r''.state ≠ .startRecord := by simp [hquoted]
            rw [if_neg hinside] at hrest ⊢
            exact ih false hnext hfits hrest
    · rw [readFrom_cons hnewline]
      cases hchar : r.processChar limit (some c) with
      | error e => exact concur_error _ e
      | ok r' =>
        have hstep : r.step limit c = .ok r' := (step_eq_processChar hnewline).trans hchar
        have hrest := fun hlater => hstray (strayFrom_cons hstep hsame hlater)
        exact ih true (h.processChar hcolumns hfield hchar) hfits hrest

/-! ### After a stray quote -/

/-- A turn of the reader keeps the two in step. -/
theorem InStep.step {inQuotes : Bool} {columnCount : ℕ} {r r' : Reader} {c : CodePoint}
    (h : InStep maxColumns inQuotes columnCount r) (hcolumns : columnCount ≤ maxColumns)
    (hfits : (advance inQuotes columnCount c).2 ≤ maxColumns)
    (hfield : r.state = .inField → c ≠ .scalar '"') (hstep : r.step limit c = .ok r') :
    InStep maxColumns (advance inQuotes columnCount c).1 (advance inQuotes columnCount c).2 r' := by
  by_cases hnewline : c = .scalar '\n'
  · subst hnewline
    unfold Reader.step at hstep
    simp only [bind_eq_ok, if_true, pure_eq_ok] at hstep
    obtain ⟨r₁, hchar, r₂, hend, rfl⟩ := hstep
    have hnext := h.processChar hcolumns hfield hchar
    rcases hnext.endLine hfits hend with ⟨hquotes, hstart, -⟩ | ⟨rfl, hquoted⟩
    · rw [if_pos hstart]
      cases inQuotes with
      | true => exact absurd hquotes (by simp [advance])
      | false => exact ⟨rfl, rfl, rfl⟩
    · rw [if_neg (by simp [hquoted])]
      exact hnext
  · rw [step_eq_processChar hnewline] at hstep
    exact h.processChar hcolumns hfield hstep

/-- Up to a first stray quote the two are in step, and the scan goes on as from there. -/
theorem InStep.run {inQuotes : Bool} {columnCount : ℕ} {r r' : Reader} {before : Str}
    (hpositive : 1 ≤ maxColumns) (h : InStep maxColumns inQuotes columnCount r)
    (hcolumns : columnCount ≤ maxColumns)
    (haccepted : overWide maxColumns inQuotes columnCount before = false)
    (hrun : before.foldlM (Reader.step limit) r = .ok r')
    (hstray : ¬ StrayFrom limit maxColumns inQuotes columnCount r before) :
    ∃ inQuotes' columnCount', InStep maxColumns inQuotes' columnCount' r' ∧ ∀ rest,
      overWide maxColumns inQuotes columnCount (before ++ rest) =
        overWide maxColumns inQuotes' columnCount' rest := by
  induction before generalizing inQuotes columnCount r with
  | nil =>
    obtain rfl := Except.ok.inj hrun
    exact ⟨inQuotes, columnCount, h, fun _ => rfl⟩
  | cons c before ih =>
    rw [List.foldlM_cons, bind_eq_ok] at hrun
    obtain ⟨r₁, hstep, hrun⟩ := hrun
    have hfield : r.state = .inField → c ≠ .scalar '"' := by
      rintro hstate rfl
      rw [step_eq_processChar (by decide), processChar_quote hstate hstray] at hstep
      cases hstep
    have htoo : ¬ (maxColumns < (advance inQuotes columnCount c).2 ∧ inQuotes = false ∧
        c = .scalar ',') := by
      intro htoo
      rw [overWide_cons, decide_eq_true htoo] at haccepted
      cases haccepted
    obtain ⟨hfits, hsame⟩ := advance_fits hpositive hcolumns htoo
    rw [hsame] at haccepted
    obtain ⟨inQuotes', columnCount', hinstep, hrest⟩ :=
      ih (h.step hcolumns hfits hfield hstep) hfits haccepted hrun
        fun hlater => hstray (strayFrom_cons hstep hsame hlater)
    refine ⟨inQuotes', columnCount', hinstep, fun rest => ?_⟩
    rw [List.cons_append, hsame, hrest]

/-- Commas inside quotes are not counted. -/
theorem overWide_quoted_commas (columnCount n : ℕ) :
    overWide maxColumns true columnCount (List.replicate n (.scalar ',')) = false := by
  induction n with
  | zero => rfl
  | succ n ih =>
    rw [List.replicate_succ, overWide, if_neg (by decide), if_pos rfl]
    exact ih

end step

/-! ### The scan and the reader -/

/-- The scan accepts a text only if no record is too wide, and refuses it only if one is or the
    reader fails. -/
def ScanAgrees (limits : LoaderLimits) (limit : ℕ) (caseId : CaseId) (text : Str) : Prop :=
  (validateRecordWidth limits.maxColumns caseId false false 1 text = .ok () →
    ∀ record ∈ (Csv.reader limit text).1, record.length ≤ limits.maxColumns) ∧
  (validateRecordWidth limits.maxColumns caseId false false 1 text ≠ .ok () →
    (∃ record ∈ (Csv.reader limit text).1, limits.maxColumns < record.length) ∨
      (Csv.reader limit text).2 ≠ none)

/-- The scan accepts what is before the next character and the reader takes it; then a quote
    would stand inside an unquoted field, after its first character, with room for it. -/
structure StrayNext (limits : LoaderLimits) (limit : ℕ) (caseId : CaseId) (before : Str) : Prop where
  accepted : validateRecordWidth limits.maxColumns caseId false false 1 before = .ok ()
  inside : ∃ r, before.foldlM (Csv.Reader.step limit) .reset = .ok r ∧ r.state = .inField ∧
    r.field.length < limit

/-- A quote of the text that the scan and the reader get to stands inside an unquoted field,
    after its first character. -/
def StrayQuote (limits : LoaderLimits) (limit : ℕ) (caseId : CaseId) (text : Str) : Prop :=
  ∃ before after, text = before ++ .scalar '"' :: after ∧ StrayNext limits limit caseId before

section agreement
variable {limits : LoaderLimits} {limit : ℕ} {caseId : CaseId}

theorem strayNext_iff {before : Str} : StrayNext limits limit caseId before ↔
    BeforeStray limit limits.maxColumns false 1 .reset before := by
  unfold BeforeStray
  constructor
  · intro h
    exact ⟨validateRecordWidth_ok_iff.mp h.accepted, h.inside⟩
  · intro h
    exact ⟨validateRecordWidth_ok_iff.mpr h.1, h.2⟩

theorem strayQuote_iff {text : Str} : StrayQuote limits limit caseId text ↔
    StrayFrom limit limits.maxColumns false 1 .reset text := by
  unfold StrayQuote StrayFrom
  simp only [strayNext_iff]

theorem inStep_reset (maxColumns : ℕ) : InStep maxColumns false 1 .reset := ⟨rfl, rfl, rfl⟩

theorem scanAgrees_of_not_strayQuote {text : Str} (h : ¬ StrayQuote limits limit caseId text) :
    ScanAgrees limits limit caseId text := by
  have hpositive : 1 ≤ limits.maxColumns := limits.positive.2.2.2.1
  rw [strayQuote_iff] at h
  have hconcur := (inStep_reset _).concur false hpositive hpositive h
  rw [← Csv.reader_eq_readFrom] at hconcur
  unfold ScanAgrees
  rw [Ne, validateRecordWidth_ok_iff, Bool.not_eq_false]
  refine ⟨?_, hconcur.refuses⟩
  intro haccepted record hmem
  by_contra hlong
  exact hconcur.accepts haccepted ⟨record, hmem, by omega⟩

/-- After a first stray quote the scan takes commas for quoted text; the reader splits there. -/
theorem not_scanAgrees_of_strayNext {before : Str} (h : StrayNext limits limit caseId before)
    (hfirst : ¬ StrayQuote limits limit caseId before) :
    ¬ ScanAgrees limits limit caseId
      (before ++ .scalar '"' :: List.replicate limits.maxColumns (.scalar ',')) := by
  have hpositive : 1 ≤ limits.maxColumns := limits.positive.2.2.2.1
  obtain ⟨haccepted, r, hrun, hstate, hroom⟩ := strayNext_iff.mp h
  rw [strayQuote_iff] at hfirst
  intro hagrees
  have hscan : validateRecordWidth limits.maxColumns caseId false false 1
      (before ++ .scalar '"' :: List.replicate limits.maxColumns (.scalar ',')) = .ok () := by
    obtain ⟨inQuotes, columnCount, hinstep, hrest⟩ :=
      (inStep_reset _).run hpositive hpositive haccepted hrun hfirst
    obtain rfl : inQuotes = false := by
      unfold InStep at hinstep
      rw [hstate] at hinstep
      exact hinstep.1
    rw [validateRecordWidth_ok_iff, hrest, overWide, if_pos rfl]
    exact overWide_quoted_commas _ _
  obtain ⟨records, mid, hread⟩ := Csv.readFrom_append false hrun
  have hquote : r.processChar limit (some (.scalar '"')) =
      .ok ⟨.inField, r.field ++ [.scalar '"'], r.fields⟩ := by
    rw [Csv.processChar_quote_inField hstate]
    exact if_neg (by omega)
  obtain ⟨record, hcommas, hlength⟩ := @Csv.readFrom_commas limit
    ⟨.inField, r.field ++ [.scalar '"'], r.fields⟩ (.inl rfl) limits.maxColumns
  have hmem : record ∈ (Csv.reader limit
      (before ++ .scalar '"' :: List.replicate limits.maxColumns (.scalar ','))).1 := by
    rw [Csv.reader_eq_readFrom, hread, Csv.readFrom_cons (by decide), hquote]
    simp only [hcommas]
    exact List.mem_append_right _ List.mem_cons_self
  have hfits := hagrees.1 hscan record hmem
  omega

end agreement

/-- **When the scan agrees with the reader**: on every text without a stray quote. And no
    beginning of a text up to a first stray quote is safe, since the text can go on so that
    they disagree. -/
theorem width_scan_agrees (limits : LoaderLimits) (limit : ℕ) (caseId : CaseId) :
    (∀ text, ¬ StrayQuote limits limit caseId text → ScanAgrees limits limit caseId text) ∧
      ∀ before, StrayNext limits limit caseId before → ¬ StrayQuote limits limit caseId before →
        ∃ after, ¬ ScanAgrees limits limit caseId (before ++ .scalar '"' :: after) := by
  constructor
  · intro text h
    exact scanAgrees_of_not_strayQuote h
  · intro before h hfirst
    exact ⟨_, not_scanAgrees_of_strayNext h hfirst⟩

namespace Demo

def twoColumns : LoaderLimits := ⟨67108864, 4096, 250000, 2, 65536, by decide⟩

theorem no_quotes {limits : LoaderLimits} {limit : ℕ} {caseId : CaseId} {text : Str}
    (h : CodePoint.scalar '"' ∉ text) : ¬ StrayQuote limits limit caseId text := by
  rintro ⟨before, after, rfl, -⟩
  simp at h

end Demo

open Demo in
/-- Two columns fit, and a quote after the last of them is where the two part. -/
theorem width_scan_agrees_demo :
    ScanAgrees twoColumns 65536 ⟨⟨0, UUID.zero_lt⟩⟩ (str "time,x\n0,1\n") ∧
      ∃ after, ¬ ScanAgrees twoColumns 65536 ⟨⟨0, UUID.zero_lt⟩⟩
        (str "time,x\n0,1" ++ .scalar '"' :: after) := by
  obtain ⟨hagrees, hparts⟩ := width_scan_agrees twoColumns 65536 ⟨⟨0, UUID.zero_lt⟩⟩
  refine ⟨hagrees _ (no_quotes (by decide)), hparts _ ?_ (no_quotes (by decide))⟩
  exact ⟨by decide, ⟨.inField, str "1", [str "0"]⟩, rfl, rfl, by decide⟩

/-! ### A hidden comma -/

namespace Demo

/-- A quote stands after the first character of the second field of a record. -/
def hidden : Str := str "time,x\n0,1\",2,3\n"

end Demo

/-- The scan accepts a record of four columns where two are allowed. -/
theorem stray_quote_hides_columns :
    ¬ ScanAgrees Demo.twoColumns 65536 ⟨⟨0, by decide⟩⟩ Demo.hidden := by
  intro h
  have hread : Csv.reader 65536 Demo.hidden =
      ([[str "time", str "x"], [str "0", str "1\"", str "2", str "3"]], none) := by decide
  have haccepted : validateRecordWidth Demo.twoColumns.maxColumns ⟨⟨0, by decide⟩⟩ false false 1
      Demo.hidden = .ok () := by decide
  have hfits := h.1 haccepted
  rw [hread] at hfits
  exact absurd (hfits [str "0", str "1\"", str "2", str "3"] (by simp)) (by decide)

end IncidentEvidence
