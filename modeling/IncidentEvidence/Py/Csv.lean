import IncidentEvidence.Py.Str

/-! # Reading CSV text

    `csv.reader(io.StringIO(text), strict=True)` with the default dialect, as the
    C reader works through a text one character at a time. A line ends at its
    newline; after each line the reader sees the end of the line once, and a
    record ends when the reader is back in its first state.

    The reader is lazy. A text is read as the records before the first error, and
    that error.
-/

namespace Py.Csv

/-- The `csv.Error`s of the reader. -/
inductive Error where
  | fieldLarger (limit : Nat)
  | newLine
  | expectedDelimiter
  | unexpectedEnd
  deriving DecidableEq

/-- `str(exc)`. -/
def Error.message : Error → Str
  | .fieldLarger limit => str "field larger than field limit (" ++ decimal limit ++ str ")"
  | .newLine => str ("new-line character seen in unquoted field - " ++
      "do you need to open the file with newline=\x27\x27?")
  | .expectedDelimiter => str "\x27,\x27 expected after \x27\"\x27"
  | .unexpectedEnd => str "unexpected end of data"

/-! ### The reader's state -/

inductive State where
  | startRecord
  | startField
  | inField
  | inQuotedField
  | quoteInQuotedField
  | eatCrnl
  deriving DecidableEq

/-- The state, the field being read and the fields of the record so far. -/
structure Reader where
  state : State
  field : Str
  fields : List Str

/-- `parse_reset`. -/
def Reader.reset : Reader := ⟨.startRecord, [], []⟩

/-- `parse_save_field`. -/
def Reader.saveField (r : Reader) (next : State) : Reader := ⟨next, [], r.fields ++ [r.field]⟩

/-- `parse_add_char`. -/
def Reader.addChar (limit : Nat) (r : Reader) (c : CodePoint) (next : State) :
    Except Error Reader :=
  if limit ≤ r.field.length then .error (.fieldLarger limit)
  else .ok ⟨next, r.field ++ [c], r.fields⟩

def isNewline (c : CodePoint) : Bool := c = .scalar '\n' ∨ c = .scalar '\r'

/-- The state `START_FIELD`. The end of a line is `none`. -/
def Reader.startField (limit : Nat) (r : Reader) : Option CodePoint → Except Error Reader
  | none => .ok (r.saveField .startRecord)
  | some c =>
    if isNewline c then .ok (r.saveField .eatCrnl)
    else if c = .scalar '"' then .ok { r with state := .inQuotedField }
    else if c = .scalar ',' then .ok (r.saveField .startField)
    else r.addChar limit c .inField

/-- `parse_process_char`. -/
def Reader.processChar (limit : Nat) (r : Reader) (c : Option CodePoint) : Except Error Reader :=
  match r.state with
  | .startRecord =>
    match c with
    | none => .ok r
    | some c =>
      if isNewline c then .ok { r with state := .eatCrnl }
      else r.startField limit (some c)
  | .startField => r.startField limit c
  | .inField =>
    match c with
    | none => .ok (r.saveField .startRecord)
    | some c =>
      if isNewline c then .ok (r.saveField .eatCrnl)
      else if c = .scalar ',' then .ok (r.saveField .startField)
      else r.addChar limit c .inField
  | .inQuotedField =>
    match c with
    | none => .ok r
    | some c =>
      if c = .scalar '"' then .ok { r with state := .quoteInQuotedField }
      else r.addChar limit c .inQuotedField
  | .quoteInQuotedField =>
    match c with
    | none => .ok (r.saveField .startRecord)
    | some c =>
      if c = .scalar '"' then r.addChar limit c .inQuotedField
      else if c = .scalar ',' then .ok (r.saveField .startField)
      else if isNewline c then .ok (r.saveField .eatCrnl)
      else .error .expectedDelimiter
  | .eatCrnl =>
    match c with
    | none => .ok { r with state := .startRecord }
    | some c => if isNewline c then .ok r else .error .newLine

/-! ### Records -/

/-- The lines of a `StringIO`, each with its newline. -/
def lines : Str → List Str
  | [] => []
  | c :: rest =>
    if c = .scalar '\n' then [c] :: lines rest
    else
      match lines rest with
      | [] => [[c]]
      | line :: more => (c :: line) :: more

def Reader.processLine (limit : Nat) (r : Reader) (line : Str) : Except Error Reader := do
  let r ← line.foldlM (fun r c => r.processChar limit (some c)) r
  r.processChar limit none

/-- `Reader_iternext`, again and again: the records of the lines, and the error that
    ends them. -/
def Reader.records (limit : Nat) : Reader → List Str → List (List Str) × Option Error
  | r, [] => ([], if r.field ≠ [] ∨ r.state = .inQuotedField then some .unexpectedEnd else none)
  | r, line :: rest =>
    match r.processLine limit line with
    | .error e => ([], some e)
    | .ok r =>
      if r.state = .startRecord then
        let (records, error) := Reader.records limit .reset rest
        (r.fields :: records, error)
      else Reader.records limit r rest

/-- The records of a text under `csv.field_size_limit(limit)`. -/
def reader (limit : Nat) (text : Str) : List (List Str) × Option Error :=
  Reader.records limit .reset (lines text)

example : reader 9 (str "a,b\n\"x\"\"y\",\r\n\n") =
    ([[str "a", str "b"], [str "x\"y", []], []], none) := by decide

example : reader 1 (str "a,b\nab") = ([[str "a", str "b"]], some (.fieldLarger 1)) := by decide

end Py.Csv
