import IncidentEvidence.Evaluation.CsvLoader
import IncidentEvidence.Py.Raises

/-! # What escapes the case parser

    An exception escapes when it is not an `RcaevalLoadError`. The parser lets
    through the `OSError` of a time that the platform's `gmtime` refuses, in the
    metric file or in the injection file, and the `OverflowError` of a limit too
    large for a C integer; and nothing else (`raises_parseCase`).

    Whether a cell is reached depends on the rows before it, so these are
    described first (`RowsAccepted`).
-/

namespace IncidentEvidence

open Py

/-- The exception is not caught by the adapter. -/
def Escapes (e : LoaderException) : Prop := e.isLoadError = false

/-- Neither is it the `csv.Error` that `_parse_metric_csv` turns into one. -/
def EscapesTable (e : LoaderException) : Prop := Escapes e ∧ ∀ c, e ≠ .csv c

@[simp] theorem escapes_rcaeval (e : RcaevalLoadError) : ¬ Escapes (.rcaeval e) := by
  simp [Escapes, LoaderException.isLoadError]

@[simp] theorem escapes_osError : Escapes .osError := rfl

@[simp] theorem escapes_overflowError : Escapes .overflowError := rfl

@[simp] theorem escapesTable_rcaeval (e : RcaevalLoadError) : ¬ EscapesTable (.rcaeval e) := by
  simp [EscapesTable]

@[simp] theorem escapesTable_csv (e : Csv.Error) : ¬ EscapesTable (.csv e) := by
  simp [EscapesTable]

@[simp] theorem escapesTable_osError : EscapesTable .osError := by
  simp [EscapesTable]

@[simp] theorem escapesTable_overflowError : EscapesTable .overflowError := by
  simp [EscapesTable]

/-! ### Files -/

section files
variable (ssizeMax maximum : Nat) (path : Option File)

/-- The path is a regular file within the limit, and its text is `text`. -/
def ReadsText (text : Str) : Prop :=
  ∃ bytes, path = some (.regular bytes) ∧ bytes.length ≤ maximum ∧ maximum + 1 ≤ ssizeMax ∧
    0 ∉ bytes ∧ decodeUtf8Sig bytes = some text

/-- The path is a regular file within a limit for which `read` is asked for more than it takes. -/
def ReadOverflows : Prop :=
  ∃ bytes, path = some (.regular bytes) ∧ bytes.length ≤ maximum ∧ ssizeMax < maximum + 1

variable {ssizeMax maximum path}

theorem take_of_le {bytes : List UInt8} (h : bytes.length ≤ maximum) :
    bytes.take (maximum + 1) = bytes :=
  List.take_of_length_le (by omega)

theorem boundedText_eq_ok {tooLarge : LoadErrorCode} {caseId : CaseId} {text : Str} :
    boundedText ssizeMax path maximum tooLarge caseId = .ok text ↔
      ReadsText ssizeMax maximum path text := by
  unfold ReadsText
  cases path with
  | none => simp [boundedText, loadError]
  | some file =>
    cases file with
    | special => simp [boundedText, loadError]
    | regular bytes =>
      by_cases hlong : maximum < bytes.length
      · have hnot : ¬ bytes.length ≤ maximum := by omega
        simp [boundedText, loadError, hlong, hnot]
      · have hle : bytes.length ≤ maximum := by omega
        by_cases hsize : ssizeMax < maximum + 1
        · have hnot : ¬ maximum + 1 ≤ ssizeMax := by omega
          simp [boundedText, hlong, hsize, hnot]
        · have hfits : maximum + 1 ≤ ssizeMax := by omega
          by_cases hnul : (0 : UInt8) ∈ bytes
          · simp [boundedText, loadError, hlong, hsize, take_of_le hle, hnul]
          · cases hdecode : decodeUtf8Sig bytes with
            | none => simp [boundedText, loadError, hlong, hsize, take_of_le hle, hnul, hdecode]
            | some s =>
              simp [boundedText, hlong, hsize, take_of_le hle, hnul, hdecode, hle, hfits]

theorem raises_boundedText {tooLarge : LoadErrorCode} {caseId : CaseId} :
    Raises Escapes (boundedText ssizeMax path maximum tooLarge caseId) ↔
      ReadOverflows ssizeMax maximum path := by
  unfold ReadOverflows
  cases path with
  | none => simp [boundedText, loadError]
  | some file =>
    cases file with
    | special => simp [boundedText, loadError]
    | regular bytes =>
      by_cases hlong : maximum < bytes.length
      · have hnot : ¬ bytes.length ≤ maximum := by omega
        simp [boundedText, loadError, hlong, hnot]
      · have hle : bytes.length ≤ maximum := by omega
        by_cases hsize : ssizeMax < maximum + 1
        · simp [boundedText, hlong, hsize, hle]
        · by_cases hnul : (0 : UInt8) ∈ bytes
          · simp [boundedText, loadError, hlong, hsize, take_of_le hle, hnul]
          · cases hdecode : decodeUtf8Sig bytes with
            | none => simp [boundedText, loadError, hlong, hsize, take_of_le hle, hnul, hdecode]
            | some s => simp [boundedText, hlong, hsize, take_of_le hle, hnul, hdecode]

end files

section parser
variable {F : Type} [PyFloat F] (C : Platform F)

/-! ### Cells -/

/-- The text is a finite number of seconds that the platform's `gmtime` refuses. -/
def GmtimeFails (raw : Str) : Prop :=
  raw ≠ [] ∧ raw = strip raw ∧
    ∃ x, C.float raw = some x ∧ PyFloat.isFinite x = true ∧ C.fromtimestamp x = .error .os

/-- The cell is empty or a number. -/
def CellAccepted (raw : Str) : Prop := raw = [] ∨ (C.float raw).isSome = true

variable {C}

theorem raises_epochTimestamp {p : LoaderException → Prop} {raw : Str} :
    Raises p (epochTimestamp C raw) ↔ p .osError ∧
      ∃ x, C.float raw = some x ∧ PyFloat.isFinite x = true ∧ C.fromtimestamp x = .error .os := by
  unfold epochTimestamp
  cases hfloat : C.float raw with
  | none => simp
  | some x =>
    by_cases hfinite : PyFloat.isFinite x = true
    · cases htime : C.fromtimestamp x with
      | ok t => simp [hfinite, htime]
      | error e => cases e <;> simp [hfinite, htime]
    · simp [hfinite]

theorem raises_parseTimestamp {p : LoaderException → Prop} (hload : ∀ e, ¬ p (.rcaeval e))
    {raw : Str} {caseId : CaseId} :
    Raises p (parseTimestamp C raw caseId) ↔ p .osError ∧ GmtimeFails C raw := by
  unfold parseTimestamp GmtimeFails
  by_cases hraw : raw = [] ∨ raw ≠ strip raw
  · have hnot : ¬ (raw ≠ [] ∧ raw = strip raw) := by tauto
    rw [if_pos hraw]
    constructor
    · intro h
      exact absurd (raises_error.mp h) (hload _)
    · intro h
      exact absurd ⟨h.2.1, h.2.2.1⟩ hnot
  · have hboth : raw ≠ [] ∧ raw = strip raw := by tauto
    rw [if_neg hraw, raises_bind, raises_epochTimestamp]
    constructor
    · intro h
      rcases h with ⟨hp, hfails⟩ | ⟨t, -, h⟩
      · exact ⟨hp, hboth.1, hboth.2, hfails⟩
      · -- what follows the epoch conversion raises only load errors
        cases t with
        | some t => exact absurd h raises_pure
        | none =>
          cases hiso : isoTimestamp C raw with
          | some t => simp [hiso] at h
          | none =>
            simp only [hiso] at h
            exact absurd (raises_error.mp h) (hload _)
    · intro h
      exact .inl ⟨h.1, h.2.2.2⟩

theorem finiteValueOrGap_isOk {raw : Str} {caseId : CaseId} :
    (∃ v, finiteValueOrGap C raw caseId = .ok v) ↔ CellAccepted C raw := by
  unfold finiteValueOrGap CellAccepted
  by_cases hraw : raw = []
  · simp [hraw]
  · cases C.float raw <;> simp [hraw, loadError]

theorem raises_finiteValueOrGap {p : LoaderException → Prop} (hload : ∀ e, ¬ p (.rcaeval e))
    {raw : Str} {caseId : CaseId} : ¬ Raises p (finiteValueOrGap C raw caseId) := by
  unfold finiteValueOrGap
  by_cases hraw : raw = []
  · simp [hraw]
  · cases hfloat : C.float raw with
    | none => simpa [hraw, loadError] using hload _
    | some v => simp [hraw]

theorem finite_of_finiteValueOrGap {raw : Str} {caseId : CaseId} {v : F}
    (h : finiteValueOrGap C raw caseId = .ok (some v)) : PyFloat.isFinite v = true := by
  unfold finiteValueOrGap at h
  by_cases hraw : raw = []
  · simp [hraw] at h
  · cases hfloat : C.float raw with
    | none => simp [hraw, hfloat, loadError] at h
    | some x =>
      by_cases hfinite : PyFloat.isFinite x = true
      · have hx : x = v := by simpa [hraw, hfloat, hfinite] using h
        rw [← hx]
        exact hfinite
      · simp [hraw, hfloat, hfinite] at h

/-- A point of a finite value is always built. -/
theorem construct_point {t : Datetime} {v : F} (h : PyFloat.isFinite v = true) :
    raiseDomain (MetricPoint.construct t v) = .ok ⟨t, v, h⟩ := by
  simp [MetricPoint.construct, h, raiseDomain]

/-! ### Rows -/

/-- With a column for each cell, the loop over the cells raises only load errors. -/
theorem raises_readCells {p : LoaderException → Prop} (hload : ∀ e, ¬ p (.rcaeval e))
    {t : Datetime} {caseId : CaseId} {columns : List (List (MetricPoint F))} {cells : List Str}
    (hlength : cells.length = columns.length) : ¬ Raises p (readCells C t caseId columns cells) := by
  induction cells generalizing columns with
  | nil => simp [readCells]
  | cons raw cells ih =>
    cases columns with
    | nil => simp at hlength
    | cons column columns =>
      have hrest : cells.length = columns.length := by simpa using hlength
      rw [readCells, raises_bind]
      intro h
      rcases h with h | ⟨v, hv, h⟩
      · exact raises_finiteValueOrGap hload h
      · cases v with
        | none =>
          rw [raises_bind] at h
          rcases h with h | ⟨r, -, h⟩
          · exact ih hrest h
          · exact raises_pure h
        | some v =>
          have hpoint := construct_point (t := t) (finite_of_finiteValueOrGap hv)
          simp only [hpoint, raises_bind, raises_ok, false_or] at h
          obtain ⟨q, -, h | ⟨r, -, h⟩⟩ := h
          · exact ih hrest h
          · exact raises_pure h

/-- One turn for an accepted cell: the column keeps its place, with the point or
    without. -/
theorem readCells_cons_eq_ok {t : Datetime} {caseId : CaseId} {column : List (MetricPoint F)}
    {columns : List (List (MetricPoint F))} {raw : Str} {cells : List Str}
    {r : List (List (MetricPoint F)) × Nat}
    (h : readCells C t caseId (column :: columns) (raw :: cells) = .ok r) :
    CellAccepted C raw ∧ ∃ rest column', readCells C t caseId columns cells = .ok rest ∧
      r.1 = column' :: rest.1 := by
  rw [readCells, bind_eq_ok] at h
  obtain ⟨v, hv, h⟩ := h
  refine ⟨finiteValueOrGap_isOk.mp ⟨v, hv⟩, ?_⟩
  cases v with
  | none =>
    rw [bind_eq_ok] at h
    obtain ⟨rest, hrest, h⟩ := h
    rw [pure_eq_ok] at h
    exact ⟨rest, column, hrest, by rw [h]; rfl⟩
  | some v =>
    have hpoint := construct_point (t := t) (finite_of_finiteValueOrGap hv)
    simp only [hpoint, bind_eq_ok, Except.ok.injEq, exists_eq_left'] at h
    obtain ⟨rest, hrest, h⟩ := h
    rw [pure_eq_ok] at h
    exact ⟨rest, _, hrest, by rw [h]⟩

theorem exists_readCells_cons {t : Datetime} {caseId : CaseId} {column : List (MetricPoint F)}
    {columns : List (List (MetricPoint F))} {raw : Str} {cells : List Str}
    {rest : List (List (MetricPoint F)) × Nat} (hraw : CellAccepted C raw)
    (hrest : readCells C t caseId columns cells = .ok rest) :
    ∃ r, readCells C t caseId (column :: columns) (raw :: cells) = .ok r := by
  have hv : ∃ v, finiteValueOrGap C raw caseId = .ok v := finiteValueOrGap_isOk.mpr hraw
  obtain ⟨v, hv⟩ := hv
  rw [readCells, hv]
  cases v with
  | none =>
    exact ⟨(column :: rest.1, rest.2 + 1),
      by simp [hrest, bind, Except.bind, pure, Except.pure]⟩
  | some v =>
    have hpoint := construct_point (t := t) (finite_of_finiteValueOrGap hv)
    exact ⟨((column ++ [⟨t, v, finite_of_finiteValueOrGap hv⟩]) :: rest.1, rest.2),
      by simp [hpoint, hrest, bind, Except.bind, pure, Except.pure]⟩

/-- It succeeds exactly when every cell is accepted. -/
theorem exists_readCells {t : Datetime} {caseId : CaseId} {columns : List (List (MetricPoint F))}
    {cells : List Str} (hlength : cells.length = columns.length) :
    (∃ r, readCells C t caseId columns cells = .ok r) ↔ ∀ cell ∈ cells, CellAccepted C cell := by
  induction cells generalizing columns with
  | nil => simp [readCells]
  | cons raw cells ih =>
    cases columns with
    | nil => simp at hlength
    | cons column columns =>
      have hih := @ih columns (by simpa using hlength)
      rw [List.forall_mem_cons, ← hih]
      constructor
      · intro h
        obtain ⟨r, hr⟩ := h
        obtain ⟨hraw, rest, -, hrest, -⟩ := readCells_cons_eq_ok hr
        exact ⟨hraw, rest, hrest⟩
      · intro h
        obtain ⟨hraw, rest, hrest⟩ := h
        exact exists_readCells_cons hraw hrest

theorem length_readCells {t : Datetime} {caseId : CaseId} {columns : List (List (MetricPoint F))}
    {cells : List Str} {r : List (List (MetricPoint F)) × Nat}
    (hlength : cells.length = columns.length) (h : readCells C t caseId columns cells = .ok r) :
    r.1.length = columns.length := by
  induction cells generalizing columns r with
  | nil =>
    have hr : (columns, 0) = r := by simpa [readCells] using h
    rw [← hr]
  | cons raw cells ih =>
    cases columns with
    | nil => simp at hlength
    | cons column columns =>
      obtain ⟨-, rest, column', hrest, hr⟩ := readCells_cons_eq_ok h
      rw [hr, List.length_cons, List.length_cons, ih (by simpa using hlength) hrest]

variable (C) in
/-- What the parser checks of a row by itself, and the instant it reads. -/
structure RowAccepted (caseId : CaseId) (header row : List Str) (t : Datetime) : Prop where
  width : row.length = header.length
  time : parseTimestamp C (row.headD []) caseId = .ok t
  cells : ∀ cell ∈ row.tail, CellAccepted C cell

variable (C) in
/-- The rows are accepted, at increasing instants, within the limit. -/
def RowsAccepted (limits : LoaderLimits) (caseId : CaseId) (header : List Str)
    (rows : List (List Str)) : Prop :=
  rows.length ≤ limits.maxDataRows ∧
    ∃ ts, List.Forall₂ (RowAccepted C caseId header) rows ts ∧ ts.IsChain (· < ·)

/-- The table after some accepted rows. -/
structure TableOf (header : List Str) (ts : List Datetime) (table : MetricTable F) : Prop where
  timestamps : table.timestamps = ts
  columns : table.columns.length = header.tail.length
  rowCount : table.rowCount = ts.length

variable {limits : LoaderLimits} {caseId : CaseId} {header row : List Str} {ts : List Datetime}
  {table : MetricTable F}

/-- A row of the right width, within the limits. -/
theorem readRow_checked (hcolumns : row.length ≤ limits.maxColumns)
    (hrows : table.rowCount + 1 ≤ limits.maxDataRows) (hwidth : row.length = header.length)
    {first : Str} {cells : List Str} (hrow : row = first :: cells) :
    readRow C limits caseId header table row =
      (parseTimestamp C first caseId >>= fun observedAt =>
        if ∃ last ∈ table.timestamps.getLast?, observedAt ≤ last then
          loadError .timestampsNotOrdered caseId
        else
          readCells C observedAt caseId table.columns cells >>= fun r =>
            pure ⟨table.timestamps ++ [observedAt], r.1, table.rowCount + 1,
              table.droppedCellCount + r.2⟩) := by
  have h₁ : ¬ limits.maxColumns < row.length := by omega
  have h₂ : ¬ limits.maxDataRows < table.rowCount + 1 := by omega
  unfold readRow
  rw [if_neg h₁, if_neg h₂, if_neg (not_not.mpr hwidth), hrow]

/-- A row of another width, or beyond a limit, is a load error. -/
theorem readRow_unchecked (h : ¬ (row.length ≤ limits.maxColumns ∧
    table.rowCount + 1 ≤ limits.maxDataRows ∧ row.length = header.length)) :
    ∃ code, readRow C limits caseId header table row = loadError code caseId := by
  unfold readRow
  by_cases hcolumns : limits.maxColumns < row.length
  · exact ⟨_, if_pos hcolumns⟩
  · by_cases hrows : limits.maxDataRows < table.rowCount + 1
    · rw [if_neg hcolumns]
      exact ⟨_, if_pos hrows⟩
    · have hwidth : row.length ≠ header.length :=
        fun hwidth => h ⟨not_lt.mp hcolumns, not_lt.mp hrows, hwidth⟩
      rw [if_neg hcolumns, if_neg hrows]
      exact ⟨_, if_pos hwidth⟩

/-- A row that passes the loop. -/
theorem readRow_eq_ok (hheader : header ≠ []) (htable : TableOf header ts table)
    {table' : MetricTable F} (h : readRow C limits caseId header table row = .ok table') :
    ∃ t, RowAccepted C caseId header row t ∧ (∀ last ∈ ts.getLast?, last < t) ∧
      ts.length + 1 ≤ limits.maxDataRows ∧ TableOf header (ts ++ [t]) table' := by
  have hchecked : row.length ≤ limits.maxColumns ∧
      table.rowCount + 1 ≤ limits.maxDataRows ∧ row.length = header.length := by
    by_contra hunchecked
    have hrefused : ∃ code, readRow C limits caseId header table row = loadError code caseId :=
      readRow_unchecked hunchecked
    obtain ⟨code, hcode⟩ := hrefused
    rw [hcode] at h
    exact absurd h (by simp [loadError])
  obtain ⟨hcolumns, hrows, hwidth⟩ := hchecked
  cases hrow : row with
  | nil =>
    rw [hrow] at hwidth
    exact absurd (List.length_eq_zero_iff.mp hwidth.symm) hheader
  | cons first cells =>
    rw [readRow_checked hcolumns hrows hwidth hrow, bind_eq_ok] at h
    obtain ⟨t, ht, h⟩ := h
    have hcells : cells.length = table.columns.length := by
      rw [htable.columns, List.length_tail, ← hwidth, hrow]
      rfl
    by_cases hlast : ∃ last ∈ table.timestamps.getLast?, t ≤ last
    · rw [if_pos hlast] at h
      exact absurd h (by simp [loadError])
    · rw [if_neg hlast, bind_eq_ok] at h
      obtain ⟨r, hr, h⟩ := h
      rw [pure_eq_ok] at h
      -- the times of a table increase
      have hlater : ∀ last ∈ ts.getLast?, last < t := by
        intro last hmem
        rw [← htable.timestamps] at hmem
        exact not_le.mp fun hle => hlast ⟨last, hmem, hle⟩
      refine ⟨t, ⟨by rw [← hrow]; exact hwidth, ht, (exists_readCells hcells).mp ⟨r, hr⟩⟩, hlater,
        ?_, ?_, ?_, ?_⟩
      · rw [← htable.rowCount]
        omega
      · rw [h, htable.timestamps]
      · rw [h]
        exact (length_readCells hcells hr).trans htable.columns
      · rw [h, List.length_append, List.length_singleton, htable.rowCount]

/-- A row that is accepted, later than the rows before it and within the limit, passes
    the loop. -/
theorem exists_readRow (hwide : header.length ≤ limits.maxColumns) (hheader : header ≠ [])
    (htable : TableOf header ts table) {t : Datetime} (hrow : RowAccepted C caseId header row t)
    (hlater : ∀ last ∈ ts.getLast?, last < t) (hrows : ts.length + 1 ≤ limits.maxDataRows) :
    ∃ table', readRow C limits caseId header table row = .ok table' := by
  have hwidth := hrow.width
  have htime := hrow.time
  have haccepted := hrow.cells
  cases hcases : row with
  | nil =>
    rw [hcases] at hwidth
    exact absurd (List.length_eq_zero_iff.mp hwidth.symm) hheader
  | cons first cells =>
    rw [hcases] at htime haccepted
    have hcells : cells.length = table.columns.length := by
      rw [htable.columns, List.length_tail, ← hwidth, hcases]
      rfl
    obtain ⟨r, hr⟩ := (exists_readCells hcells).mpr haccepted
    have hlast : ¬ ∃ last ∈ table.timestamps.getLast?, t ≤ last := by
      intro h
      obtain ⟨last, hmem, hle⟩ := h
      rw [htable.timestamps] at hmem
      exact absurd (hlater last hmem) (not_lt.mpr hle)
    refine ⟨⟨table.timestamps ++ [t], r.1, table.rowCount + 1, table.droppedCellCount + r.2⟩, ?_⟩
    rw [← hcases, readRow_checked (by omega) (by rw [htable.rowCount]; omega) hwidth hcases,
      bind_eq_ok]
    refine ⟨t, htime, ?_⟩
    rw [if_neg hlast, bind_eq_ok]
    exact ⟨r, hr, rfl⟩

/-- What a row raises other than a load error is the failure of `gmtime`. -/
theorem raises_readRow {p : LoaderException → Prop} (hload : ∀ e, ¬ p (.rcaeval e))
    (hwide : header.length ≤ limits.maxColumns) (hheader : header ≠ [])
    (htable : TableOf header ts table) :
    Raises p (readRow C limits caseId header table row) ↔ p .osError ∧
      ts.length < limits.maxDataRows ∧ row.length = header.length ∧
        GmtimeFails C (row.headD []) := by
  have hraised : ∀ {α : Type} (code : LoadErrorCode),
      ¬ Raises p (loadError code caseId : Except LoaderException α) :=
    fun code => by simpa [loadError] using hload _
  by_cases hchecked : row.length ≤ limits.maxColumns ∧
      table.rowCount + 1 ≤ limits.maxDataRows ∧ row.length = header.length
  · obtain ⟨hcolumns, hrows, hwidth⟩ := hchecked
    have hmany : ts.length < limits.maxDataRows := by
      rw [htable.rowCount] at hrows
      omega
    cases hcases : row with
    | nil =>
      rw [hcases] at hwidth
      exact absurd (List.length_eq_zero_iff.mp hwidth.symm) hheader
    | cons first cells =>
      have hcells : cells.length = table.columns.length := by
        rw [htable.columns, List.length_tail, ← hwidth, hcases]
        rfl
      rw [← hcases, readRow_checked hcolumns hrows hwidth hcases, raises_bind,
        raises_parseTimestamp hload]
      constructor
      · intro h
        rcases h with ⟨hos, hfails⟩ | ⟨t, -, h⟩
        · rw [hcases] at hwidth ⊢
          exact ⟨hos, hmany, hwidth, hfails⟩
        · -- after the instant only load errors are raised
          by_cases hlast : ∃ last ∈ table.timestamps.getLast?, t ≤ last
          · rw [if_pos hlast] at h
            exact absurd h (hraised _)
          · rw [if_neg hlast, raises_bind] at h
            rcases h with h | ⟨r, -, h⟩
            · exact absurd h (raises_readCells hload hcells)
            · exact absurd h raises_pure
      · intro h
        rw [hcases] at h
        exact .inl ⟨h.1, h.2.2.2⟩
  · have hrefused : ∃ code, readRow C limits caseId header table row = loadError code caseId :=
      readRow_unchecked hchecked
    obtain ⟨code, hcode⟩ := hrefused
    rw [hcode]
    constructor
    · intro h
      exact absurd h (hraised _)
    · intro h
      refine absurd ⟨?_, ?_, h.2.2.1⟩ hchecked
      · rw [h.2.2.1]
        exact hwide
      · rw [htable.rowCount]
        exact h.2.1

/-! ### The table -/

variable {rows : List (List Str)}

theorem readRows_eq_ok (hheader : header ≠ []) (htable : TableOf header ts table)
    (hchain : ts.IsChain (· < ·)) (hbound : ts.length ≤ limits.maxDataRows) {table' : MetricTable F}
    (h : rows.foldlM (readRow C limits caseId header) table = .ok table') :
    ∃ ts', List.Forall₂ (RowAccepted C caseId header) rows ts' ∧ (ts ++ ts').IsChain (· < ·) ∧
      (ts ++ ts').length ≤ limits.maxDataRows ∧ TableOf header (ts ++ ts') table' := by
  induction rows generalizing ts table with
  | nil =>
    obtain rfl : table = table' := by simpa [pure, Except.pure] using h
    exact ⟨[], .nil, by simpa using hchain, by simpa using hbound, by simpa using htable⟩
  | cons row rows ih =>
    rw [List.foldlM_cons, bind_eq_ok] at h
    obtain ⟨middle, hmiddle, h⟩ := h
    obtain ⟨t, hrow, hlater, hmany, htable'⟩ := readRow_eq_ok hheader htable hmiddle
    have hchain' : (ts ++ [t]).IsChain (· < ·) := by
      refine List.isChain_append.mpr ⟨hchain, .singleton t, fun x hx y hy => ?_⟩
      obtain rfl : t = y := by simpa using hy
      exact hlater x hx
    obtain ⟨ts', hrows, hts⟩ := ih htable' hchain' (by simpa using hmany) h
    rw [List.append_assoc] at hts
    exact ⟨t :: ts', .cons hrow hrows, hts⟩

theorem exists_readRows (hwide : header.length ≤ limits.maxColumns) (hheader : header ≠ [])
    (htable : TableOf header ts table) {ts' : List Datetime}
    (hrows : List.Forall₂ (RowAccepted C caseId header) rows ts')
    (hchain : (ts ++ ts').IsChain (· < ·)) (hbound : (ts ++ ts').length ≤ limits.maxDataRows) :
    ∃ table', rows.foldlM (readRow C limits caseId header) table = .ok table' := by
  induction hrows generalizing ts table with
  | nil => exact ⟨table, rfl⟩
  | @cons row t rows ts' hrow hrows ih =>
    have hlater : ∀ last ∈ ts.getLast?, last < t := fun last hlast =>
      (List.isChain_append.mp hchain).2.2 last hlast t rfl
    have hmany : ts.length + 1 ≤ limits.maxDataRows := by
      rw [List.length_append, List.length_cons] at hbound
      omega
    obtain ⟨middle, hmiddle⟩ := exists_readRow hwide hheader htable hrow hlater hmany
    have hsnoc : ts ++ t :: ts' = ts ++ [t] ++ ts' := by simp
    rw [hsnoc] at hchain hbound
    obtain ⟨t', hrow', -, -, htable'⟩ := readRow_eq_ok hheader htable hmiddle
    obtain rfl : t' = t := by
      have heq := hrow'.time.symm.trans hrow.time
      exact Except.ok.inj heq
    obtain ⟨table', h⟩ := ih htable' hchain hbound
    refine ⟨table', ?_⟩
    rw [List.foldlM_cons, hmiddle]
    exact h

/-- The loop over the rows starts with an empty column for each signal. -/
def emptyTable (F : Type) [PyFloat F] (header : List Str) : MetricTable F :=
  ⟨[], header.tail.map fun _ => [], 0, 0⟩

theorem tableOf_empty : TableOf header [] (emptyTable F header) :=
  ⟨rfl, by simp [emptyTable], rfl⟩

/-- The rows pass the loop exactly when they are accepted. -/
theorem exists_readRows_iff (hwide : header.length ≤ limits.maxColumns) (hheader : header ≠ []) :
    (∃ table, rows.foldlM (readRow C limits caseId header) (emptyTable F header) = .ok table) ↔
      RowsAccepted C limits caseId header rows := by
  constructor
  · intro h
    obtain ⟨table, h⟩ := h
    obtain ⟨ts, hrows, hchain, hbound, -⟩ :=
      readRows_eq_ok hheader tableOf_empty .nil (Nat.zero_le _) h
    rw [List.nil_append] at hchain hbound
    exact ⟨by rw [hrows.length_eq]; exact hbound, ts, hrows, hchain⟩
  · intro h
    obtain ⟨hbound, ts, hrows, hchain⟩ := h
    refine exists_readRows hwide hheader tableOf_empty hrows hchain ?_
    rw [List.nil_append, ← hrows.length_eq]
    exact hbound

variable (C limits caseId) in
/-- The loop reaches a row of the right width whose time `gmtime` refuses. -/
def RowEscapes (header : List Str) (rows : List (List Str)) : Prop :=
  ∃ before row after, rows = before ++ row :: after ∧
    RowsAccepted C limits caseId header before ∧ before.length < limits.maxDataRows ∧
      row.length = header.length ∧ GmtimeFails C (row.headD [])

theorem raises_readRows {p : LoaderException → Prop} (hload : ∀ e, ¬ p (.rcaeval e))
    (hwide : header.length ≤ limits.maxColumns) (hheader : header ≠ []) :
    Raises p (rows.foldlM (readRow C limits caseId header) (emptyTable F header)) ↔
      p .osError ∧ RowEscapes C limits caseId header rows := by
  rw [raises_foldlM]
  constructor
  · intro h
    obtain ⟨before, row, after, table, hrows, hbefore, hrow⟩ := h
    have haccepted := (exists_readRows_iff hwide hheader).mp ⟨table, hbefore⟩
    obtain ⟨ts, hforall, -, -, htable⟩ :=
      readRows_eq_ok hheader tableOf_empty .nil (Nat.zero_le _) hbefore
    obtain ⟨hos, hmany, hwidth, hfails⟩ := (raises_readRow hload hwide hheader htable).mp hrow
    rw [List.nil_append, ← hforall.length_eq] at hmany
    exact ⟨hos, before, row, after, hrows, haccepted, hmany, hwidth, hfails⟩
  · intro h
    obtain ⟨hos, before, row, after, hrows, haccepted, hmany, hwidth, hfails⟩ := h
    obtain ⟨table, hbefore⟩ := (exists_readRows_iff hwide hheader).mpr haccepted
    obtain ⟨ts, hforall, -, -, htable⟩ :=
      readRows_eq_ok hheader tableOf_empty .nil (Nat.zero_le _) hbefore
    refine ⟨before, row, after, table, hrows, hbefore, ?_⟩
    refine (raises_readRow hload hwide hheader htable).mpr ⟨hos, ?_, hwidth, hfails⟩
    rw [List.nil_append, ← hforall.length_eq]
    exact hmany

variable (C limits caseId)

/-- The text has a header, and its rows reach a time that `gmtime` refuses. -/
def TableEscapes (text : Str) : Prop :=
  ∃ header rows error, Csv.reader limits.maxFieldCharacters text = (header :: rows, error) ∧
    header.length ≤ limits.maxColumns ∧ HeaderAccepted header ∧
      RowEscapes C limits caseId header rows

/-- The text is a header and at least one row, all of it accepted. -/
def TableAccepted (text : Str) : Prop :=
  ∃ header rows, Csv.reader limits.maxFieldCharacters text = (header :: rows, none) ∧
    header.length ≤ limits.maxColumns ∧ HeaderAccepted header ∧ rows ≠ [] ∧
      RowsAccepted C limits caseId header rows

variable {C limits caseId}

theorem HeaderAccepted.ne_nil (h : HeaderAccepted header) : header ≠ [] := by
  intro hnil
  have hlength := h.1
  rw [hnil] at hlength
  simp at hlength

/-- The table of a text with an accepted header. -/
theorem readTable_of_header {text : Str} {error : Option Csv.Error}
    (hfield : limits.maxFieldCharacters ≤ C.longMax)
    (hread : Csv.reader limits.maxFieldCharacters text = (header :: rows, error))
    (hwide : header.length ≤ limits.maxColumns) (hheader : HeaderAccepted header) :
    readTable C limits caseId text =
      (rows.foldlM (readRow C limits caseId header) (emptyTable F header) >>= fun table =>
        match error with
        | some e => .error (.csv e)
        | none =>
          if table.rowCount = 0 then loadError .unsupportedCsvSchema caseId
          else pure (header, table)) := by
  unfold readTable
  rw [if_neg (not_lt.mpr hfield), hread]
  simp only
  rw [if_neg (not_lt.mpr hwide), if_neg (not_not.mpr hheader)]
  rfl

/-- Without one, a load error or the reader's own error. -/
theorem readTable_of_no_header {text : Str} (hfield : limits.maxFieldCharacters ≤ C.longMax)
    (hread : ∀ header rows error,
      Csv.reader limits.maxFieldCharacters text = (header :: rows, error) →
        ¬ (header.length ≤ limits.maxColumns ∧ HeaderAccepted header)) :
    (∃ code, readTable C limits caseId text = loadError code caseId) ∨
      ∃ e, readTable C limits caseId text = .error (.csv e) := by
  unfold readTable
  rw [if_neg (not_lt.mpr hfield)]
  cases hrecords : Csv.reader limits.maxFieldCharacters text with
  | mk records error =>
    cases records with
    | nil =>
      cases error with
      | none => exact .inl ⟨_, rfl⟩
      | some e => exact .inr ⟨e, rfl⟩
    | cons header rows =>
      simp only
      by_cases hwide : limits.maxColumns < header.length
      · exact .inl ⟨_, if_pos hwide⟩
      · have hheader : ¬ HeaderAccepted header :=
          fun h => hread header rows error hrecords ⟨not_lt.mp hwide, h⟩
        rw [if_neg hwide]
        exact .inl ⟨_, if_pos hheader⟩

theorem raises_readTable {text : Str} :
    Raises EscapesTable (readTable C limits caseId text) ↔
      C.longMax < limits.maxFieldCharacters ∨
        limits.maxFieldCharacters ≤ C.longMax ∧ TableEscapes C limits caseId text := by
  by_cases hfield : C.longMax < limits.maxFieldCharacters
  -- `field_size_limit` takes a C long
  · have hoverflow : readTable C limits caseId text = .error .overflowError := by
      unfold readTable
      exact if_pos hfield
    rw [hoverflow]
    simp [hfield]
  · have hfits : limits.maxFieldCharacters ≤ C.longMax := not_lt.mp hfield
    constructor
    · intro h
      refine .inr ⟨hfits, ?_⟩
      by_contra hnone
      -- without an accepted header the rows are never read
      by_cases hread : ∃ header rows error,
          Csv.reader limits.maxFieldCharacters text = (header :: rows, error) ∧
            header.length ≤ limits.maxColumns ∧ HeaderAccepted header
      · obtain ⟨header, rows, error, hread, hwide, hheader⟩ := hread
        rw [readTable_of_header hfits hread hwide hheader, raises_bind,
          raises_readRows escapesTable_rcaeval hwide hheader.ne_nil] at h
        rcases h with ⟨-, h⟩ | ⟨table, -, h⟩
        · exact hnone ⟨header, rows, error, hread, hwide, hheader, h⟩
        · cases error with
          | some e => exact escapesTable_csv e (raises_error.mp h)
          | none =>
            by_cases hcount : table.rowCount = 0
            · rw [if_pos hcount] at h
              exact escapesTable_rcaeval _ (raises_error.mp h)
            · rw [if_neg hcount] at h
              exact raises_pure h
      · have hno : ∀ header rows error,
            Csv.reader limits.maxFieldCharacters text = (header :: rows, error) →
              ¬ (header.length ≤ limits.maxColumns ∧ HeaderAccepted header) :=
          fun header rows error hrecords hboth => hread ⟨header, rows, error, hrecords, hboth⟩
        have hrefused : (∃ code, readTable C limits caseId text = loadError code caseId) ∨
            ∃ e, readTable C limits caseId text = .error (.csv e) :=
          readTable_of_no_header hfits hno
        rcases hrefused with ⟨code, hcode⟩ | ⟨e, he⟩
        · rw [hcode] at h
          exact escapesTable_rcaeval _ (raises_error.mp h)
        · rw [he] at h
          exact escapesTable_csv e (raises_error.mp h)
    · intro h
      rcases h with h | ⟨-, header, rows, error, hread, hwide, hheader, hrow⟩
      · exact absurd h hfield
      · rw [readTable_of_header hfits hread hwide hheader, raises_bind]
        exact .inl ((raises_readRows escapesTable_rcaeval hwide hheader.ne_nil).mpr
          ⟨escapesTable_osError, hrow⟩)

theorem readTable_eq_ok {text : Str} {r : List Str × MetricTable F}
    (h : readTable C limits caseId text = .ok r) :
    limits.maxFieldCharacters ≤ C.longMax ∧ TableAccepted C limits caseId text ∧
      ∃ ts, ts ≠ [] ∧ TableOf r.1 ts r.2 := by
  have hfits : limits.maxFieldCharacters ≤ C.longMax := by
    by_contra hfield
    unfold readTable at h
    rw [if_pos (not_le.mp hfield)] at h
    exact absurd h (by simp)
  by_cases hread : ∃ header rows error,
      Csv.reader limits.maxFieldCharacters text = (header :: rows, error) ∧
        header.length ≤ limits.maxColumns ∧ HeaderAccepted header
  · obtain ⟨header, rows, error, hread, hwide, hheader⟩ := hread
    rw [readTable_of_header hfits hread hwide hheader, bind_eq_ok] at h
    obtain ⟨table, htable, h⟩ := h
    cases error with
    | some e => exact absurd h (by simp)
    | none =>
      by_cases hcount : table.rowCount = 0
      · rw [if_pos hcount] at h
        exact absurd h (by simp [loadError])
      · rw [if_neg hcount, pure_eq_ok] at h
        have haccepted := (exists_readRows_iff hwide hheader.ne_nil).mp ⟨table, htable⟩
        obtain ⟨ts, hforall, -, -, hof⟩ :=
          readRows_eq_ok hheader.ne_nil tableOf_empty .nil (Nat.zero_le _) htable
        rw [List.nil_append] at hof
        -- an empty table is refused
        have hts : ts ≠ [] := by
          intro hnil
          rw [hof.rowCount, hnil] at hcount
          exact hcount rfl
        refine ⟨hfits, ⟨header, rows, hread, hwide, hheader, ?_, haccepted⟩, ts, hts, ?_⟩
        · intro hnil
          rw [hnil] at hforall
          exact hts (List.forall₂_nil_left_iff.mp hforall)
        · rw [h]
          exact hof
  · have hno : ∀ header rows error,
        Csv.reader limits.maxFieldCharacters text = (header :: rows, error) →
          ¬ (header.length ≤ limits.maxColumns ∧ HeaderAccepted header) :=
      fun header rows error hrecords hboth => hread ⟨header, rows, error, hrecords, hboth⟩
    have hrefused : (∃ code, readTable C limits caseId text = loadError code caseId) ∨
        ∃ e, readTable C limits caseId text = .error (.csv e) :=
      readTable_of_no_header hfits hno
    rcases hrefused with ⟨code, hcode⟩ | ⟨e, he⟩
    · rw [hcode] at h
      exact absurd h (by simp [loadError])
    · rw [he] at h
      exact absurd h (by simp)

theorem exists_readTable {text : Str} (hfits : limits.maxFieldCharacters ≤ C.longMax)
    (h : TableAccepted C limits caseId text) : ∃ r, readTable C limits caseId text = .ok r := by
  obtain ⟨header, rows, hread, hwide, hheader, hrows, haccepted⟩ := h
  obtain ⟨table, htable⟩ := (exists_readRows_iff hwide hheader.ne_nil).mpr haccepted
  obtain ⟨ts, hforall, -, -, hof⟩ :=
    readRows_eq_ok hheader.ne_nil tableOf_empty .nil (Nat.zero_le _) htable
  have hcount : table.rowCount ≠ 0 := by
    rw [hof.rowCount, List.nil_append, ← hforall.length_eq]
    simpa using hrows
  refine ⟨(header, table), ?_⟩
  rw [readTable_of_header hfits hread hwide hheader, htable, bind_eq_ok]
  exact ⟨table, rfl, if_neg hcount⟩

theorem catchCsvError_eq_ok {α : Type} {x : Except LoaderException α} {a : α} :
    catchCsvError caseId x = .ok a ↔ x = .ok a := by
  cases x with
  | ok b => rfl
  | error e => cases e <;> simp [catchCsvError, loadError]

theorem raises_catchCsvError {α : Type} {x : Except LoaderException α} :
    Raises Escapes (catchCsvError caseId x) ↔ Raises EscapesTable x := by
  cases x with
  | ok b => simp [catchCsvError]
  | error e => cases e <;> simp [catchCsvError, loadError, EscapesTable]

variable (limits caseId) in
/-- The width check passes. -/
def WidthAccepted (text : Str) : Prop :=
  validateRecordWidth limits.maxColumns caseId false false 1 text = .ok ()

/-- The width check raises only load errors. -/
theorem raises_validateRecordWidth {maxColumns : Nat} {skip inQuotes : Bool} {columnCount : Nat}
    {text : Str} :
    ¬ Raises Escapes (validateRecordWidth maxColumns caseId skip inQuotes columnCount text) := by
  fun_induction validateRecordWidth maxColumns caseId skip inQuotes columnCount text <;>
    simp_all [loadError]

theorem raises_parseMetricCsv {text : Str} :
    Raises Escapes (parseMetricCsv C limits caseId text) ↔ WidthAccepted limits caseId text ∧
      (C.longMax < limits.maxFieldCharacters ∨
        limits.maxFieldCharacters ≤ C.longMax ∧ TableEscapes C limits caseId text) := by
  unfold parseMetricCsv
  rw [raises_bind, ← raises_readTable]
  constructor
  · intro h
    rcases h with h | ⟨_, hwidth, h⟩
    · exact absurd h raises_validateRecordWidth
    · exact ⟨hwidth, raises_catchCsvError.mp h⟩
  · intro h
    exact .inr ⟨(), h.1, raises_catchCsvError.mpr h.2⟩

theorem parseMetricCsv_eq_ok {text : Str} {r : List Str × MetricTable F}
    (h : parseMetricCsv C limits caseId text = .ok r) :
    WidthAccepted limits caseId text ∧ limits.maxFieldCharacters ≤ C.longMax ∧
      TableAccepted C limits caseId text ∧ ∃ ts, ts ≠ [] ∧ TableOf r.1 ts r.2 := by
  unfold parseMetricCsv at h
  rw [bind_eq_ok] at h
  obtain ⟨_, hwidth, h⟩ := h
  exact ⟨hwidth, readTable_eq_ok (catchCsvError_eq_ok.mp h)⟩

theorem exists_parseMetricCsv {text : Str} (hwidth : WidthAccepted limits caseId text)
    (hfits : limits.maxFieldCharacters ≤ C.longMax) (h : TableAccepted C limits caseId text) :
    ∃ r, parseMetricCsv C limits caseId text = .ok r := by
  obtain ⟨r, hr⟩ := exists_readTable hfits h
  refine ⟨r, ?_⟩
  unfold parseMetricCsv
  rw [bind_eq_ok]
  exact ⟨(), hwidth, catchCsvError_eq_ok.mpr hr⟩

/-! ### Cases -/

/-- What the last `try` of `parse_case` does not list. -/
def EscapesAssembly (e : LoaderException) : Prop := e.isOverflowOrValue = false

theorem raises_catchOverflowOrValue {α : Type} {x : Except LoaderException α}
    (h : ¬ Raises EscapesAssembly x) : ¬ Raises Escapes (catchOverflowOrValue caseId x) := by
  cases x with
  | ok a => simp [catchOverflowOrValue]
  | error e =>
    have hlisted : e.isOverflowOrValue = true := by simpa [EscapesAssembly] using h
    simp [catchOverflowOrValue, hlisted, loadError]

/-- The constructors of the domain raise what the last `try` lists. -/
theorem raises_assemble {injection : Datetime} (htable : TableOf header ts table) (hts : ts ≠ []) :
    ¬ Raises EscapesAssembly (assemble header table injection) := by
  have hfirst : table.timestamps ≠ [] := by
    rw [htable.timestamps]
    exact hts
  have hvalue : ∀ e : DomainError, e ≠ .baselineComputation →
      ¬ EscapesAssembly (.domain e) := by
    intro e he
    simp [EscapesAssembly, LoaderException.isOverflowOrValue, he]
  intro h
  unfold assemble at h
  simp only [raises_bind, raises_orRaise, raises_require, raises_pure, and_false, or_false,
    exists_false] at h
  rcases h with ⟨hnone, -⟩ | ⟨last, -, ⟨-, h⟩ | ⟨e, -, ⟨hnone, -⟩ | ⟨first, -, h⟩⟩⟩
  · exact hfirst (List.getLast?_eq_none_iff.mp hnone)
  · exact absurd h (by simp [EscapesAssembly, LoaderException.isOverflowOrValue])
  · exact hfirst (List.head?_eq_none_iff.mp hnone)
  · rcases h with h | ⟨w, -, h | ⟨signals, -, -, h⟩⟩
    · -- the window
      unfold IncidentWindow.construct at h
      by_cases hvalid : first ≤ injection ∧ injection < e
      · simp [require, hvalid, raiseDomain, bind, Except.bind, pure, Except.pure] at h
      · simp only [require, if_neg hvalid, raiseDomain, bind, Except.bind, raises_error] at h
        exact hvalue _ (by simp) h
    · -- a signal
      obtain ⟨⟨name, points⟩, -, h⟩ := raises_of_mapM h
      simp only [raises_bind] at h
      rcases h with h | ⟨key, -, h⟩
      · unfold SignalKey.construct at h
        by_cases hname : isBlank name = false
        · simp [dif_pos hname, raiseDomain] at h
        · simp only [dif_neg hname, raiseDomain, raises_error] at h
          exact hvalue _ (by simp) h
      · unfold MetricSignal.construct at h
        by_cases hchain : points.IsChain fun p q => p.observedAt < q.observedAt
        · simp [dif_pos hchain, raiseDomain] at h
        · simp only [dif_neg hchain, raiseDomain, raises_error] at h
          exact hvalue _ (by simp) h
    · exact absurd h (by simp [EscapesAssembly, LoaderException.isOverflowOrValue])

variable (C limits caseId) in
/-- What makes an exception escape the parser, in the order of the code. -/
inductive CaseEscapes (metricFile injectionFile : Option File) : Prop where
  /-- The byte limit of the metric file does not fit. -/
  | metricRead : ReadOverflows C.ssizeMax limits.maxMetricFileBytes metricFile →
      CaseEscapes metricFile injectionFile
  /-- The field limit does not fit a C `long`. -/
  | fieldLimit {text : Str} :
      ReadsText C.ssizeMax limits.maxMetricFileBytes metricFile text →
      WidthAccepted limits caseId text → C.longMax < limits.maxFieldCharacters →
      CaseEscapes metricFile injectionFile
  /-- `gmtime` refuses the time of a row. -/
  | row {text : Str} :
      ReadsText C.ssizeMax limits.maxMetricFileBytes metricFile text →
      WidthAccepted limits caseId text → limits.maxFieldCharacters ≤ C.longMax →
      TableEscapes C limits caseId text → CaseEscapes metricFile injectionFile
  /-- The metric file is accepted; the byte limit of the injection file does not fit. -/
  | injectionRead {text : Str} :
      ReadsText C.ssizeMax limits.maxMetricFileBytes metricFile text →
      WidthAccepted limits caseId text → limits.maxFieldCharacters ≤ C.longMax →
      TableAccepted C limits caseId text →
      ReadOverflows C.ssizeMax limits.maxInjectTimeFileBytes injectionFile →
      CaseEscapes metricFile injectionFile
  /-- The metric file is accepted; `gmtime` refuses the injection time. -/
  | injectionTime {text injectionText : Str} :
      ReadsText C.ssizeMax limits.maxMetricFileBytes metricFile text →
      WidthAccepted limits caseId text → limits.maxFieldCharacters ≤ C.longMax →
      TableAccepted C limits caseId text →
      ReadsText C.ssizeMax limits.maxInjectTimeFileBytes injectionFile injectionText →
      GmtimeFails C (strip injectionText) → CaseEscapes metricFile injectionFile

theorem raises_parseCase {metricFile injectionFile : Option File} :
    Raises Escapes (parseCase C limits metricFile injectionFile caseId) ↔
      CaseEscapes C limits caseId metricFile injectionFile := by
  unfold parseCase
  constructor
  · intro h
    simp only [raises_bind] at h
    -- the stages in order: each is reached when those before it return
    rcases h with h | ⟨text, htext, h | ⟨⟨header, table⟩, htable, h⟩⟩
    · exact .metricRead (raises_boundedText.mp h)
    · have hread := boundedText_eq_ok.mp htext
      obtain ⟨hwidth, h | ⟨hfits, h⟩⟩ := raises_parseMetricCsv.mp h
      · exact .fieldLimit hread hwidth h
      · exact .row hread hwidth hfits h
    · have hread := boundedText_eq_ok.mp htext
      obtain ⟨hwidth, hfits, haccepted, ts, hts, hof⟩ := parseMetricCsv_eq_ok htable
      rcases h with h | ⟨injectionText, hinjection, h | ⟨injection, -, h | ⟨r, -, h⟩⟩⟩
      · exact .injectionRead hread hwidth hfits haccepted (raises_boundedText.mp h)
      · exact .injectionTime hread hwidth hfits haccepted (boundedText_eq_ok.mp hinjection)
          ((raises_parseTimestamp escapes_rcaeval).mp h).2
      · exact absurd h (raises_catchOverflowOrValue (raises_assemble hof hts))
      · exact absurd h raises_pure
  · intro h
    simp only [raises_bind]
    cases h with
    | metricRead h => exact .inl (raises_boundedText.mpr h)
    | @fieldLimit text hread hwidth h =>
      exact .inr ⟨text, boundedText_eq_ok.mpr hread,
        .inl (raises_parseMetricCsv.mpr ⟨hwidth, .inl h⟩)⟩
    | @row text hread hwidth hfits h =>
      exact .inr ⟨text, boundedText_eq_ok.mpr hread,
        .inl (raises_parseMetricCsv.mpr ⟨hwidth, .inr ⟨hfits, h⟩⟩)⟩
    | @injectionRead text hread hwidth hfits haccepted h =>
      obtain ⟨r, hr⟩ := exists_parseMetricCsv hwidth hfits haccepted
      exact .inr ⟨text, boundedText_eq_ok.mpr hread,
        .inr ⟨r, hr, .inl (raises_boundedText.mpr h)⟩⟩
    | @injectionTime text injectionText hread hwidth hfits haccepted hinjection h =>
      obtain ⟨r, hr⟩ := exists_parseMetricCsv hwidth hfits haccepted
      exact .inr ⟨text, boundedText_eq_ok.mpr hread, .inr ⟨r, hr,
        .inr ⟨injectionText, boundedText_eq_ok.mpr hinjection,
          .inl ((raises_parseTimestamp escapes_rcaeval).mpr ⟨escapes_osError, h⟩)⟩⟩⟩

end parser

end IncidentEvidence
