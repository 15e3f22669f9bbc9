import IncidentEvidence.Domain.Metrics
import IncidentEvidence.Py.Conversions
import IncidentEvidence.Py.Csv
import IncidentEvidence.Py.Uuid

/-! # The bounded case parser

    `evaluation/rcaeval/csv_loader.py`: a metric file and an injection-time file
    become a window and a signal for each column, or an `RcaevalLoadError`.

    Four functions list the exceptions they expect. What they do not list leaves
    `parse_case` as it is, and the model keeps it: the `OSError` of
    `fromtimestamp`, which `parse_timestamp` does not catch, and the
    `OverflowError` of a limit that does not fit a C integer.
-/

namespace IncidentEvidence

open Py

/-! ### Errors and limits -/

/-- The codes of `errors.py` that the parser and the adapter raise. -/
inductive LoadErrorCode where
  | unsupportedCsvSchema
  | metricFileTooLarge
  | injectionFileTooLarge
  | invalidEncoding
  | fieldTooLong
  | rowLimitExceeded
  | columnLimitExceeded
  | rowWidthMismatch
  | invalidTimestamp
  | timestampsNotOrdered
  | invalidNumber
  | invalidCaseId
  | caseIdCollision
  deriving DecidableEq

/-- `identifiers.CaseId`. -/
structure CaseId where
  value : UUID
  deriving DecidableEq

structure RcaevalLoadError where
  code : LoadErrorCode
  caseId : Option CaseId
  deriving DecidableEq

/-- The exceptions of the parser. -/
inductive LoaderException where
  | rcaeval (e : RcaevalLoadError)
  | csv (e : Csv.Error)
  | domain (e : DomainError)
  | valueError
  | overflowError
  | osError
  | indexError
  deriving DecidableEq

/-- `except RcaevalLoadError`. -/
def LoaderException.isLoadError : LoaderException → Bool
  | .rcaeval _ => true
  | _ => false

/-- `except (OverflowError, ValueError)`. -/
def LoaderException.isOverflowOrValue : LoaderException → Bool
  | .domain e => e ≠ .baselineComputation
  | .valueError | .overflowError => true
  | _ => false

/-- `raise RcaevalLoadError(code, case_id)`. -/
def loadError {α : Type} (code : LoadErrorCode) (caseId : CaseId) : Except LoaderException α :=
  .error (.rcaeval ⟨code, some caseId⟩)

/-- The limits of `limits.py` that the parser reads. -/
structure LoaderLimits where
  maxMetricFileBytes : Nat
  maxInjectTimeFileBytes : Nat
  maxDataRows : Nat
  maxColumns : Nat
  maxFieldCharacters : Nat
  positive : 1 ≤ maxMetricFileBytes ∧ 1 ≤ maxInjectTimeFileBytes ∧ 1 ≤ maxDataRows ∧
    1 ≤ maxColumns ∧ 1 ≤ maxFieldCharacters

def LoaderLimits.default : LoaderLimits :=
  ⟨67108864, 4096, 250000, 2048, 65536, by decide⟩

/-! ### Reading a file -/

/-- What is at a path: a regular file with its bytes, or something else that can be
    opened. -/
inductive File where
  | regular (bytes : List UInt8)
  | special

/-- `_bounded_text` of a path; `none` is a path that cannot be opened or read. -/
def boundedText (ssizeMax : Nat) (path : Option File) (maximum : Nat) (tooLarge : LoadErrorCode)
    (caseId : CaseId) : Except LoaderException Str := do
  match path with
  | none => loadError .invalidEncoding caseId
  | some .special => loadError tooLarge caseId
  | some (.regular bytes) =>
    if maximum < bytes.length then loadError tooLarge caseId
    -- the argument of `stream.read(maximum + 1)` is converted first
    else if ssizeMax < maximum + 1 then .error .overflowError
    else
      let payload := bytes.take (maximum + 1)
      if maximum < payload.length then loadError tooLarge caseId
      else if 0 ∈ payload then loadError .invalidEncoding caseId
      else
        match decodeUtf8Sig payload with
        | none => loadError .invalidEncoding caseId
        | some text => .ok text

section parser
variable {F : Type} [PyFloat F] (C : Platform F)

/-! ### Cells -/

/-- The first `try` of `parse_timestamp`. It passes, with `none`, on text that is no
    number, on a number that is not finite, and on the two exceptions it lists. -/
def epochTimestamp (raw : Str) : Except LoaderException (Option Datetime) :=
  match C.float raw with
  | none => .ok none
  | some numeric =>
    if PyFloat.isFinite numeric then
      match C.fromtimestamp numeric with
      | .ok t => .ok (some t)
      | .error .overflow | .error .value => .ok none
      | .error .os => .error .osError
    else .ok none

/-- The second `try` of `parse_timestamp`. -/
def isoTimestamp (raw : Str) : Option Datetime := do
  let raw := if [CodePoint.scalar 'Z'] <:+ raw then raw.dropLast ++ str "+00:00" else raw
  let parsed ← C.fromisoformat raw
  let offset ← parsed.utcoffset
  parsed.astimezone offset

def parseTimestamp (raw : Str) (caseId : CaseId) : Except LoaderException Datetime := do
  if raw = [] ∨ raw ≠ strip raw then loadError .invalidTimestamp caseId
  else
    match ← epochTimestamp C raw with
    | some t => return t
    | none =>
      match isoTimestamp C raw with
      | some t => return t
      | none => loadError .invalidTimestamp caseId

/-- `_finite_value_or_gap`. -/
def finiteValueOrGap (raw : Str) (caseId : CaseId) : Except LoaderException (Option F) :=
  if raw = [] then .ok none
  else
    match C.float raw with
    | none => loadError .invalidNumber caseId
    | some value => .ok (if PyFloat.isFinite value then some value else none)

/-- An exception of the domain on its way up. -/
def raiseDomain {α : Type} : Except DomainError α → Except LoaderException α
  | .ok a => .ok a
  | .error e => .error (.domain e)

/-! ### Records -/

/-- `_validate_logical_record_width`, from inside or outside quotes and with the
    columns seen so far in the record. With `skip`, the next character has been looked
    at already. -/
def validateRecordWidth (maxColumns : Nat) (caseId : CaseId) (skip inQuotes : Bool)
    (columnCount : Nat) : Str → Except LoaderException Unit
  | [] => .ok ()
  | c :: rest =>
    if skip then validateRecordWidth maxColumns caseId false inQuotes columnCount rest
    else if c = .scalar '"' then
      if inQuotes = true ∧ rest.head? = some (.scalar '"') then
        validateRecordWidth maxColumns caseId true inQuotes columnCount rest
      else validateRecordWidth maxColumns caseId false (!inQuotes) columnCount rest
    else if c = .scalar ',' ∧ inQuotes = false then
      if maxColumns < columnCount + 1 then loadError .columnLimitExceeded caseId
      else validateRecordWidth maxColumns caseId false inQuotes (columnCount + 1) rest
    else if (c = .scalar '\r' ∨ c = .scalar '\n') ∧ inQuotes = false then
      let crlf := c = .scalar '\r' ∧ rest.head? = some (.scalar '\n')
      validateRecordWidth maxColumns caseId (decide crlf) inQuotes 1 rest
    else validateRecordWidth maxColumns caseId false inQuotes columnCount rest

/-- What the loop over the rows has collected. -/
structure MetricTable (F : Type) [PyFloat F] where
  timestamps : List Datetime
  columns : List (List (MetricPoint F))
  rowCount : Nat
  droppedCellCount : Nat

/-- The loop over the cells of a row. -/
def readCells (observedAt : Datetime) (caseId : CaseId) :
    List (List (MetricPoint F)) → List Str →
      Except LoaderException (List (List (MetricPoint F)) × Nat)
  | columns, [] => .ok (columns, 0)
  | columns, raw :: cells => do
    match ← finiteValueOrGap C raw caseId with
    | none =>
      -- `continue` before the column is looked up
      let (rest, dropped) ← readCells observedAt caseId columns.tail cells
      return (columns.take 1 ++ rest, dropped + 1)
    | some value =>
      match columns with
      | [] => .error .indexError
      | column :: columns =>
        let point ← raiseDomain (MetricPoint.construct observedAt value)
        let (rest, dropped) ← readCells observedAt caseId columns cells
        return ((column ++ [point]) :: rest, dropped)

/-- One turn of the loop over the rows. -/
def readRow (limits : LoaderLimits) (caseId : CaseId) (header : List Str) (table : MetricTable F)
    (row : List Str) : Except LoaderException (MetricTable F) := do
  if limits.maxColumns < row.length then loadError .columnLimitExceeded caseId
  else if limits.maxDataRows < table.rowCount + 1 then loadError .rowLimitExceeded caseId
  else if row.length ≠ header.length then loadError .rowWidthMismatch caseId
  else
    match row with
    | [] => .error .indexError
    | first :: cells =>
      let observedAt ← parseTimestamp C first caseId
      if ∃ last ∈ table.timestamps.getLast?, observedAt ≤ last then
        loadError .timestampsNotOrdered caseId
      else
        let (columns, dropped) ← readCells C observedAt caseId table.columns cells
        return ⟨table.timestamps ++ [observedAt], columns, table.rowCount + 1,
          table.droppedCellCount + dropped⟩

/-- The checks on the header. -/
def HeaderAccepted (header : List Str) : Prop :=
  2 ≤ header.length ∧ header.head? = some (str "time") ∧ [] ∉ header ∧ header.Nodup

instance (header : List Str) : Decidable (HeaderAccepted header) :=
  inferInstanceAs (Decidable (_ ∧ _))

/-- The body of the `try` of `_parse_metric_csv`. -/
def readTable (limits : LoaderLimits) (caseId : CaseId) (text : Str) :
    Except LoaderException (List Str × MetricTable F) := do
  -- `csv.field_size_limit` converts its argument to a C `long`
  if C.longMax < limits.maxFieldCharacters then .error .overflowError
  else
    let (records, error) := Csv.reader limits.maxFieldCharacters text
    match records, error with
    | [], none => loadError .unsupportedCsvSchema caseId
    | [], some e => .error (.csv e)
    | header :: rows, error =>
      if limits.maxColumns < header.length then loadError .columnLimitExceeded caseId
      else if ¬ HeaderAccepted header then loadError .unsupportedCsvSchema caseId
      else
        let table ← rows.foldlM (readRow C limits caseId header)
          ⟨[], header.tail.map fun _ => [], 0, 0⟩
        match error with
        | some e => .error (.csv e)
        | none =>
          if table.rowCount = 0 then loadError .unsupportedCsvSchema caseId
          else return (header, table)

/-- The `except csv.Error` of `_parse_metric_csv`. -/
def catchCsvError {α : Type} (caseId : CaseId) : Except LoaderException α → Except LoaderException α
  | .error (.csv e) =>
    loadError (if str "field larger" <:+: e.message then .fieldTooLong else .unsupportedCsvSchema)
      caseId
  | x => x

def parseMetricCsv (limits : LoaderLimits) (caseId : CaseId) (text : Str) :
    Except LoaderException (List Str × MetricTable F) := do
  validateRecordWidth limits.maxColumns caseId false false 1 text
  catchCsvError caseId (readTable C limits caseId text)

/-! ### Cases -/

structure ParsedCase (F : Type) [PyFloat F] where
  window : IncidentWindow
  signals : List (MetricSignal F)
  rowCount : Nat
  columnCount : Nat
  droppedCellCount : Nat

/-- The body of the `try` of `parse_case`. -/
def assemble (header : List Str) (table : MetricTable F) (injection : Datetime) :
    Except LoaderException (IncidentWindow × List (MetricSignal F)) := do
  let last ← orRaise table.timestamps.getLast? .indexError
  let «end» ← orRaise (last.add 1) .overflowError
  let first ← orRaise table.timestamps.head? .indexError
  let window ← raiseDomain (IncidentWindow.construct first injection «end»)
  let signals ← (header.tail.zip table.columns).mapM fun (name, points) => do
    let key ← raiseDomain (SignalKey.construct name)
    raiseDomain (MetricSignal.construct key points)
  require (header.tail.length = table.columns.length) .valueError
  return (window, signals)

/-- The `except (OverflowError, ValueError)` of `parse_case`. -/
def catchOverflowOrValue {α : Type} (caseId : CaseId) :
    Except LoaderException α → Except LoaderException α
  | .ok a => .ok a
  | .error e => if e.isOverflowOrValue then loadError .invalidTimestamp caseId else .error e

def parseCase (limits : LoaderLimits) (metricFile injectionFile : Option File) (caseId : CaseId) :
    Except LoaderException (ParsedCase F) := do
  let text ← boundedText C.ssizeMax metricFile limits.maxMetricFileBytes .metricFileTooLarge caseId
  let (header, table) ← parseMetricCsv C limits caseId text
  let injectionText ← boundedText C.ssizeMax injectionFile limits.maxInjectTimeFileBytes
    .injectionFileTooLarge caseId
  let injection ← parseTimestamp C (strip injectionText) caseId
  let (window, signals) ← catchOverflowOrValue caseId (assemble header table injection)
  return ⟨window, signals, table.rowCount, header.length, table.droppedCellCount⟩

end parser

end IncidentEvidence
