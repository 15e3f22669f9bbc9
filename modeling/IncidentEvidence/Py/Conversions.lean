import IncidentEvidence.Py.Datetime
import IncidentEvidence.Py.Except
import IncidentEvidence.Py.Float
import Mathlib.Data.List.Infix

/-! # Conversions of untrusted text

    The calls through which text from outside becomes numbers, instants and
    strings. Which text is which number is CPython's business, and the range of
    an epoch second is the platform's; a `Platform` is any choice of these. The
    types say which exceptions each call may raise.
-/

namespace Py

/-- The exceptions of `datetime.fromtimestamp`. -/
inductive TimestampError where
  /-- The year is out of range. -/
  | value
  /-- The number does not fit `time_t`. -/
  | overflow
  /-- The platform's `gmtime` fails. -/
  | os
  deriving DecidableEq

/-- A `datetime` that `fromisoformat` returns: its fields, and its offset from UTC in
    microseconds if it has a time zone. -/
structure IsoDatetime where
  naive : Datetime
  utcoffset : Option Int

/-- `d.astimezone(UTC)` of an aware `d`; `none` is `OverflowError`. -/
def IsoDatetime.astimezone (d : IsoDatetime) (offset : Int) : Option Datetime :=
  d.naive.add (-offset)

/-- What CPython and the platform decide. -/
structure Platform (F : Type) where
  /-- `float(text)`; `none` is `ValueError`. -/
  float : Str → Option F
  /-- `datetime.fromtimestamp(x, tz=UTC)`. -/
  fromtimestamp : F → Except TimestampError Datetime
  /-- `datetime.fromisoformat(text)`; `none` is `ValueError`. -/
  fromisoformat : Str → Option IsoDatetime
  /-- The largest C `long`. -/
  longMax : Nat
  /-- The largest size `read()` takes: a bytes object of it still fits `Py_ssize_t`. -/
  ssizeMax : Nat

/-- The byte order mark of UTF-8. -/
def bom : List UInt8 := [0xEF, 0xBB, 0xBF]

/-- `payload.decode("utf-8-sig", errors="strict")`; `none` is `UnicodeDecodeError`. -/
def decodeUtf8Sig (payload : List UInt8) : Option Str :=
  (String.fromUTF8? ⟨(if bom <+: payload then payload.drop 3 else payload).toArray⟩).map str

/-- The UTF-8 bytes of a text that does not start with the mark decode to the text. -/
theorem decodeUtf8Sig_toUTF8 {s : String} (h : ¬ bom <+: s.toUTF8.data.toList) :
    decodeUtf8Sig s.toUTF8.data.toList = some (str s) := by
  have hvalid : s.toUTF8.IsValidUTF8 := s.isValidUTF8
  unfold decodeUtf8Sig String.fromUTF8?
  rw [if_neg h, Array.toArray_toList, dif_pos hvalid]
  rfl

end Py
