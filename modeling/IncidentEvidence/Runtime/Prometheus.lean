import IncidentEvidence.Domain.Baseline
import IncidentEvidence.Domain.Metrics
import IncidentEvidence.Py.Conversions
import IncidentEvidence.Py.JsonDecode
import IncidentEvidence.Py.JsonMembers

/-! # The Prometheus client and telemetry source

    `runtime/prometheus.py` and `evaluation/harness/baseline_inputs.py`: a response
    body is decoded, checked for its shape and read into series, the series become
    signals, and the signals inputs of the baseline.

    Python unpacks any iterable of two items. A sample of a response may be a list
    of two elements, but also a text of two characters or an object of two keys.
-/

namespace IncidentEvidence

open Py

/-! ### Values and exceptions -/

/-- The exceptions of the client and the source. -/
inductive SourceException where
  | prometheusError
  | telemetryUnavailable
  | domain (e : DomainError)
  | valueError
  | typeError
  | overflowError
  | osError
  | recursionError
  | zeroDivisionError
  deriving DecidableEq

namespace SourceException

/-- `except ValueError`. -/
def isValueError : SourceException → Bool
  | .domain e => e ≠ .baselineComputation
  | .valueError => true
  | _ => false

/-- `except (TypeError, ValueError, OverflowError, OSError)`. -/
def isConversionError : SourceException → Bool
  | .typeError | .overflowError | .osError => true
  | e => e.isValueError

/-- `except DomainError`. -/
def isDomainError : SourceException → Bool
  | .domain _ => true
  | _ => false

/-- `except (PrometheusError, DomainError)`. -/
def isSourceError : SourceException → Bool
  | .prometheusError | .domain _ => true
  | _ => false

end SourceException

/-- `try` with one `except` clause, whose handler raises `raised`. -/
def rescue {α : Type} (caught : SourceException → Bool) (raised : SourceException) :
    Except SourceException α → Except SourceException α
  | .ok a => .ok a
  | .error e => if caught e then .error raised else .error e

/-- A domain error on its way up. -/
def fromDomain {α : Type} : Except DomainError α → Except SourceException α
  | .ok a => .ok a
  | .error e => .error (.domain e)

structure PrometheusLimits where
  maxResponseBytes : Nat
  maxSeries : Nat
  maxPointsPerSeries : Nat
  positive : 1 ≤ maxResponseBytes ∧ 1 ≤ maxSeries ∧ 1 ≤ maxPointsPerSeries

def PrometheusLimits.default : PrometheusLimits := ⟨8388608, 2048, 100000, by decide⟩

structure PrometheusPoint (F : Type) where
  «at» : Datetime
  value : F

structure PrometheusSeries (F : Type) where
  name : Str
  points : List (PrometheusPoint F)

/-- What CPython does with a body besides converting its texts. -/
structure Decoder (F : Type) extends Platform F where
  /-- `body.decode(detect_encoding(body), "surrogatepass")`; `none` is
      `UnicodeDecodeError`. -/
  decode : List UInt8 → Option Str
  /-- How deep `json.loads` may nest containers. -/
  depth : Nat
  /-- `str(value)` of a decoded value that is not a string. -/
  repr : Json → Str

section client
variable {F : Type} [PyFloat F] (D : Decoder F)

/-! ### Samples -/

/-- `raw_ts, raw_value = sample`: iterating an object yields its keys, a text its
    characters. -/
def unpackPair : Json → Except SourceException (Json × Json)
  | .arr [a, b] => .ok (a, b)
  | .obj [(a, _), (b, _)] => .ok (.str a, .str b)
  | .str [a, b] => .ok (.str [a], .str [b])
  | .arr _ | .obj _ | .str _ => .error .valueError
  | _ => .error .typeError

/-- `float(value)` of a decoded value. -/
def toFloat : Json → Except SourceException F
  | .str s => orRaise (D.float s) .valueError
  | .float literal => orRaise (D.float literal) .valueError
  | .int i => orRaise (PyFloat.ofInt i) .overflowError
  | .bool b => .ok (PyFloat.literal (if b then 1 else 0) 0)
  | .null | .arr _ | .obj _ => .error .typeError

/-- `datetime.fromtimestamp(seconds, tz=UTC)`. -/
def fromTimestamp (seconds : F) : Except SourceException Datetime :=
  match D.fromtimestamp seconds with
  | .ok t => .ok t
  | .error .value => .error .valueError
  | .error .overflow => .error .overflowError
  | .error .os => .error .osError

/-- The body of the `try` around a sample. -/
def convertSample (sample : Json) : Except SourceException (PrometheusPoint F) := do
  let (rawTs, rawValue) ← unpackPair sample
  let seconds ← toFloat D rawTs
  let «at» ← fromTimestamp D seconds
  let value ← toFloat D rawValue
  return ⟨«at», value⟩

def readSample (sample : Json) : Except SourceException (PrometheusPoint F) :=
  rescue SourceException.isConversionError .prometheusError (convertSample D sample)

/-! ### Series -/

/-- `str(value)`. -/
def textOf : Json → Str
  | .str s => s
  | v => D.repr v

def seriesName (metric : Json) : Str :=
  let base := match metric.get "__name__" with
    | some v => textOf D v
    | none => []
  let labels := sortedOn Prod.fst ((metric.fields.filter fun kv => kv.1 ≠ str "__name__").map
    fun kv => (kv.1, textOf D kv.2))
  if labels = [] then base
  else
    let inner := joinComma (labels.map fun kv => kv.1 ++ str "=\"" ++ kv.2 ++ str "\"")
    base ++ .scalar '\x7b' :: (inner ++ [.scalar '\x7d'])

/-- One turn of the loop over `result`. -/
def readSeries (limits : PrometheusLimits) (item : Json) :
    Except SourceException (PrometheusSeries F) :=
  match item with
  | .obj _ =>
    match item.get "metric", item.get "values" with
    | some (.obj metric), some (.arr values) =>
      if limits.maxPointsPerSeries < values.length then .error .prometheusError
      else do
        let points ← values.mapM (readSample D)
        return ⟨seriesName D (.obj metric), points⟩
    | _, _ => .error .prometheusError
  | _ => .error .prometheusError

/-- `data.result` of a document with status `success`. -/
def resultOf (document : Json) : Option (List Json) :=
  match document with
  | .obj _ =>
    match document.get "status" with
    | some (.str status) =>
      if status ≠ str "success" then none
      else
        match document.get "data" with
        | some (.obj data) =>
          match (Json.obj data).get "result" with
          | some (.arr result) => some result
          | _ => none
        | _ => none
    | _ => none
  | _ => none

/-- `json.loads(body)`. -/
def loadsBody (body : List UInt8) : Except SourceException Json := do
  let text ← orRaise (D.decode body) .valueError
  match loads D.depth text with
  | .ok document => return document
  | .error .jsonDecode | .error .value => .error .valueError
  | .error .recursion => .error .recursionError

def parseRangeResponse (body : List UInt8) (limits : PrometheusLimits) :
    Except SourceException (List (PrometheusSeries F)) := do
  let document ← rescue SourceException.isValueError .prometheusError (loadsBody D body)
  let result ← orRaise (resultOf document) .prometheusError
  if limits.maxSeries < result.length then .error .prometheusError
  else result.mapM (readSeries D limits)

/-! ### Queries -/

/-- What goes into the URL and the headers of a request. -/
structure RangeQuery where
  query : Str
  start : Datetime
  «end» : Datetime
  stepSeconds : Nat

structure PrometheusClient where
  /-- The transport; `none` when it raises. -/
  fetch : RangeQuery → Option (Int × List UInt8)
  limits : PrometheusLimits

/-- `query_range`. -/
def PrometheusClient.queryRange (client : PrometheusClient) (q : RangeQuery) :
    Except SourceException (List (PrometheusSeries F)) := do
  -- `urlencode` raises `UnicodeEncodeError` on a lone surrogate
  if (encodeUtf8 q.query).isNone then .error .valueError
  else
    let (status, body) ← orRaise (client.fetch q) .prometheusError
    if ¬ (200 ≤ status ∧ status < 300) then .error .prometheusError
    else if client.limits.maxResponseBytes < body.length then .error .prometheusError
    else parseRangeResponse D body client.limits

/-! ### Signals and baseline inputs -/

/-- The loop of `series_to_signals`, with the names seen so far. -/
def seriesToSignals (seen : List Str) :
    List (PrometheusSeries F) → Except SourceException (List (MetricSignal F))
  | [] => .ok []
  | one :: rest => do
    let finite := one.points.filter fun sample => PyFloat.isFinite sample.value
    if finite = [] then seriesToSignals seen rest
    else if one.name ∈ seen then .error .prometheusError
    else
      let signal ← rescue SourceException.isDomainError .prometheusError (do
        let key ← fromDomain (SignalKey.construct one.name)
        let points ← finite.mapM fun sample =>
          fromDomain (MetricPoint.construct sample.at sample.value)
        fromDomain (MetricSignal.construct key points))
      let signals ← seriesToSignals (one.name :: seen) rest
      return signal :: signals

/-- `ScaleFloorPolicy`. -/
structure ScaleFloorPolicy (F : Type) where
  relativeFloorFraction : F
  absoluteEpsilon : F

/-- The policy of `ScaleFloorPolicy()`. -/
def ScaleFloorPolicy.default : ScaleFloorPolicy F := ⟨PyFloat.literal 5 2, PyFloat.literal 1 9⟩

def ScaleFloorPolicy.floorFor (policy : ScaleFloorPolicy F) (signal : MetricSignal F) :
    Except SourceException F :=
  let magnitudes := signal.points.map fun point => PyFloat.abs point.value
  if magnitudes = [] then .ok policy.absoluteEpsilon
  else do
    let typical ← orRaise (PyFloat.median magnitudes) .zeroDivisionError
    return PyFloat.max policy.absoluteEpsilon (PyFloat.mul policy.relativeFloorFraction typical)

/-- The constructor of a baseline input. -/
def SignalBaselineInput.construct (signal : MetricSignal F) (floor : F) :
    Except DomainError (SignalBaselineInput F) :=
  if h : PyFloat.isFinite floor = true ∧ PyFloat.le PyFloat.zero floor = true ∧
      PyFloat.le floor PyFloat.zero = false then
    .ok ⟨signal, floor, h.1, h.2.2⟩
  else .error .invalidBaselineConfiguration

def toBaselineInputs (policy : ScaleFloorPolicy F) (signals : List (MetricSignal F)) :
    Except SourceException (List (SignalBaselineInput F)) :=
  signals.mapM fun signal => do
    let floor ← policy.floorFor signal
    fromDomain (SignalBaselineInput.construct signal floor)

/-- Each input wraps its signal. -/
theorem signals_of_inputs {policy : ScaleFloorPolicy F} {signals : List (MetricSignal F)}
    {inputs : List (SignalBaselineInput F)} (h : toBaselineInputs policy signals = .ok inputs) :
    inputs.map (·.signal) = signals := by
  unfold toBaselineInputs at h
  have hturns := mapM_eq_ok.mp h
  clear h
  induction hturns with
  | nil => rfl
  | @cons signal input signals inputs hturn _ ih =>
    rw [bind_eq_ok] at hturn
    obtain ⟨floor, -, hconstruct⟩ := hturn
    have hsignal : input.signal = signal := by
      unfold SignalBaselineInput.construct at hconstruct
      by_cases hfloor : PyFloat.isFinite floor = true ∧
          PyFloat.le PyFloat.zero floor = true ∧ PyFloat.le floor PyFloat.zero = false
      · rw [dif_pos hfloor] at hconstruct
        rw [← Except.ok.inj hconstruct]
      · rw [dif_neg hfloor] at hconstruct
        exact absurd hconstruct (by simp [fromDomain])
    rw [List.map_cons, hsignal, ih]

/-! ### The telemetry source -/

structure PrometheusTelemetrySource (F : Type) where
  client : PrometheusClient
  queries : List Str
  stepSeconds : Nat
  floorPolicy : ScaleFloorPolicy F

/-- The request for one selector over a window. -/
def PrometheusTelemetrySource.request (source : PrometheusTelemetrySource F)
    (window : IncidentWindow) (query : Str) : RangeQuery :=
  ⟨query, window.start, window.end, source.stepSeconds⟩

def PrometheusTelemetrySource.loadBlocking (source : PrometheusTelemetrySource F)
    (window : IncidentWindow) : Except SourceException (List (SignalBaselineInput F)) := do
  let collected ← source.queries.mapM fun query =>
    source.client.queryRange D (source.request window query)
  let signals ← seriesToSignals [] collected.flatten
  toBaselineInputs source.floorPolicy signals

def PrometheusTelemetrySource.load (source : PrometheusTelemetrySource F)
    (window : IncidentWindow) : Except SourceException (List (SignalBaselineInput F)) :=
  rescue SourceException.isSourceError .telemetryUnavailable (source.loadBlocking D window)

end client

end IncidentEvidence
