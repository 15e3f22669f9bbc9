import IncidentEvidence.Exceptions
import IncidentEvidence.Py.Dict
import IncidentEvidence.Py.FloatFormat
import IncidentEvidence.Py.Json

/-! # The metrics registry

    `observability/metrics.py`: counters and histograms, partitioned by label values,
    and the text exposition of a registry. The worker keeps the metrics it registered;
    they stay in the registry under their names, which is how they are found here.

    `MetricsRegistry.Sound` is what rendering needs (`render_ok`): label values for
    every label name, the three tables of a histogram in step, and finite sums.
-/

namespace IncidentEvidence

open Py

namespace Observability

/-! ### Names and labels -/

/-- `_METRIC_NAME_CHARS`. -/
def isNameChar (c : CodePoint) : Bool :=
  match c with
  | .scalar c => c.isAlphanum || c = '_' || c = ':'
  | .surrogate _ => false

/-- `_validate_name`. A leading digit that is not ASCII is no name character either. -/
def validateName (name : Str) : Except PyException Str :=
  if name = [] || name.head?.any CodePoint.isDigit || name.any (!isNameChar ·) then .error .valueError
  else .ok name

theorem validateName_eq_ok {name name' : Str} (h : validateName name = .ok name') :
    name' = name ∧ ∀ c ∈ name, isNameChar c = true := by
  unfold validateName at h
  split at h
  · exact absurd h (by simp)
  · next hvalid =>
    refine ⟨(Except.ok.inj h).symm, ?_⟩
    intro c hc
    by_contra hbad
    apply hvalid
    simp only [Bool.or_eq_true, List.any_eq_true]
    exact .inr ⟨c, hc, by simpa using hbad⟩

/-- The values of the labels, in the order of the label names. -/
abbrev LabelKey := List Str

/-- `s.replace(old, new)` for one character. -/
def replaceChar (old : Char) (new : Str) (s : Str) : Str :=
  s.flatMap fun c => if c = .scalar old then new else [c]

/-- `_escape_label_value`. -/
def escapeLabelValue (value : Str) : Str :=
  replaceChar '\n' (str "\\n") (replaceChar '"' (str "\\\"") (replaceChar '\\' (str "\\\\") value))

/-- `zip(a, b, strict=True)`. -/
def zipStrict {α β : Type} (as : List α) (bs : List β) : Except PyException (List (α × β)) :=
  if as.length = bs.length then .ok (as.zip bs) else .error .valueError

/-- `_render_labels`. -/
def renderLabels (labelnames : List Str) (values : LabelKey) (extra : Option Str := none) :
    Except PyException Str := do
  let pairs ← zipStrict labelnames values
  let pairs := pairs.map fun (name, value) =>
    name ++ str "=\"" ++ escapeLabelValue value ++ str "\""
  let pairs := pairs ++ extra.toList
  return if pairs = [] then [] else str "\x7b" ++ joinComma pairs ++ str "\x7d"

/-- `_check_labels`. -/
def checkLabels (labelnames : List Str) (labels : List Str) : Except PyException LabelKey :=
  if labels.length ≠ labelnames.length then .error .valueError else .ok labels

/-! ### Numbers -/

section numbers
variable {F : Type} [PyFloat F]

/-- What `inc` is given: an integer or a float. -/
inductive Amount (F : Type) where
  | int (i : Int)
  | float (x : F)

/-- `amount < 0`. -/
def Amount.isNegative : Amount F → Bool
  | .int i => i < 0
  | .float x => PyFloat.lt x PyFloat.zero

/-- The float that is added; an integer may be too large for one. -/
def Amount.toFloat : Amount F → Except PyException F
  | .int i => orRaise (PyFloat.ofInt i) .overflowError
  | .float x => .ok x

/-- `int(x)`. -/
def intOf [FloatFormat F] (x : F) : Except PyException Int :=
  match FloatFormat.toInt x with
  | some i => .ok i
  | none => .error (if PyFloat.isInf x then .overflowError else .valueError)

/-- `_format`. -/
def format [FloatFormat F] (value : F) : Except PyException Str := do
  let i ← intOf value
  return if FloatFormat.eqInt value i then decimalInt i else FloatFormat.repr value

end numbers

end Observability

open Observability

/-! ### Counters -/

/-- `Counter`. -/
structure Counter (F : Type) where
  name : Str
  documentation : Str
  labelnames : List Str
  values : Dict LabelKey F

namespace Counter

variable {F : Type} [PyFloat F]

/-- `Counter(name, documentation, labelnames)`. -/
def new (name documentation : Str) (labelnames : List Str) : Except PyException (Counter F) := do
  let name ← validateName name
  return ⟨name, documentation, labelnames, .empty⟩

/-- `self._values.get(key, 0.0)`. -/
def total (c : Counter F) (key : LabelKey) : F := (c.values.get? key).getD PyFloat.zero

/-- `self._values[key] = self._values.get(key, 0.0) + amount`. -/
def add (c : Counter F) (key : LabelKey) (amount : F) : Counter F :=
  { c with values := c.values.set key (PyFloat.add (c.total key) amount) }

/-- `inc`. -/
def inc (c : Counter F) (amount : Amount F) (labels : List Str) :
    Except PyException (Counter F) := do
  if amount.isNegative then .error .valueError
  let key ← checkLabels c.labelnames labels
  let amount ← amount.toFloat
  return c.add key amount

/-- `sorted(self._values.items())`, with the zero of a counter without labels. -/
def items (c : Counter F) : List (LabelKey × F) :=
  let items := sortedOn Prod.fst c.values.entries
  if items = [] ∧ c.labelnames = [] then [([], PyFloat.zero)] else items

/-- `_render_lines`. -/
def renderLines [FloatFormat F] (c : Counter F) : Except PyException (List Str) := do
  let samples ← c.items.mapM fun (key, value) => do
    let labels ← renderLabels c.labelnames key
    let value ← format value
    return c.name ++ labels ++ str " " ++ value
  return [str "# HELP " ++ c.name ++ str " " ++ c.documentation,
    str "# TYPE " ++ c.name ++ str " counter"] ++ samples

end Counter

/-! ### Histograms -/

/-- `Histogram`. -/
structure Histogram (F : Type) where
  name : Str
  documentation : Str
  labelnames : List Str
  bounds : List F
  /-- For each bound, how many observations are at most that. -/
  counts : Dict LabelKey (List ℕ)
  sums : Dict LabelKey F
  totals : Dict LabelKey ℕ

/-- `DEFAULT_LATENCY_BUCKETS`. -/
def DEFAULT_LATENCY_BUCKETS {F : Type} [PyFloat F] : List F :=
  [PyFloat.literal 5 3, PyFloat.literal 1 2, PyFloat.literal 25 3, PyFloat.literal 5 2,
    PyFloat.literal 1 1, PyFloat.literal 25 2, PyFloat.literal 5 1, PyFloat.literal 1 0,
    PyFloat.literal 25 1, PyFloat.literal 5 0, PyFloat.literal 10 0, PyFloat.literal 30 0,
    PyFloat.literal 60 0]

namespace Histogram

variable {F : Type} [PyFloat F]

/-- `Histogram(name, documentation, buckets, labelnames)`. -/
def new (name documentation : Str) (buckets : List F) (labelnames : List Str) :
    Except PyException (Histogram F) := do
  let name ← validateName name
  let bounds := sortedBy PyFloat.lt buckets
  if bounds = [] then .error .valueError
  return ⟨name, documentation, labelnames, bounds, .empty, .empty, .empty⟩

/-- The counts of a label set; there are as many as bounds. -/
def bucketCounts (h : Histogram F) (key : LabelKey) : List ℕ :=
  (h.counts.get? key).getD (List.replicate h.bounds.length 0)

/-- The updates of `observe`, under the lock. -/
def add (h : Histogram F) (key : LabelKey) (value : F) : Histogram F :=
  { h with
    counts := h.counts.set key ((h.bounds.zip (h.bucketCounts key)).map fun (bound, count) =>
      if PyFloat.le value bound then count + 1 else count)
    sums := h.sums.set key (PyFloat.add ((h.sums.get? key).getD PyFloat.zero) value)
    totals := h.totals.set key ((h.totals.get? key).getD 0 + 1) }

/-- `observe` of a float, as it is annotated. An integer too large for one would be counted
    in the buckets before its addition to the sum raises. -/
def observe (h : Histogram F) (value : F) (labels : List Str) :
    Except PyException (Histogram F) := do
  let key ← checkLabels h.labelnames labels
  return h.add key value

section rendering
variable [FloatFormat F]

/-- The lines of one label set. -/
def keyLines (h : Histogram F) (key : LabelKey) : Except PyException (List Str) := do
  let counts ← orRaise (h.counts.get? key) .keyError
  let sum ← orRaise (h.sums.get? key) .keyError
  let total ← orRaise (h.totals.get? key) .keyError
  let buckets ← zipStrict h.bounds counts
  let buckets ← buckets.mapM fun (bound, count) => do
    let le ← format bound
    let labels ← renderLabels h.labelnames key (some (str "le=\"" ++ le ++ str "\""))
    return h.name ++ str "_bucket" ++ labels ++ str " " ++ decimal count
  let infLabels ← renderLabels h.labelnames key (some (str "le=\"+Inf\""))
  let base ← renderLabels h.labelnames key
  let sum ← format sum
  return buckets ++ [h.name ++ str "_bucket" ++ infLabels ++ str " " ++ decimal total,
    h.name ++ str "_sum" ++ base ++ str " " ++ sum,
    h.name ++ str "_count" ++ base ++ str " " ++ decimal total]

/-- `_render_lines`. -/
def renderLines (h : Histogram F) : Except PyException (List Str) := do
  let keys := sortedOn id (h.counts.entries.map Prod.fst)
  let lines ← keys.mapM h.keyLines
  return [str "# HELP " ++ h.name ++ str " " ++ h.documentation,
    str "# TYPE " ++ h.name ++ str " histogram"] ++ lines.flatten

end rendering

end Histogram

/-! ### The registry -/

/-- `MetricsRegistry`. -/
structure MetricsRegistry (F : Type) where
  counters : Dict Str (Counter F)
  histograms : Dict Str (Histogram F)

namespace MetricsRegistry

variable {F : Type} [PyFloat F]

/-- `MetricsRegistry()`. -/
def empty : MetricsRegistry F := ⟨.empty, .empty⟩

/-- `self._counters[name] = counter`. -/
def setCounter (r : MetricsRegistry F) (name : Str) (c : Counter F) : MetricsRegistry F :=
  { r with counters := r.counters.set name c }

/-- `self._histograms[name] = histogram`. -/
def setHistogram (r : MetricsRegistry F) (name : Str) (h : Histogram F) : MetricsRegistry F :=
  { r with histograms := r.histograms.set name h }

/-- `counter`: the registry with the counter. -/
def counter (r : MetricsRegistry F) (name documentation : Str) (labelnames : List Str) :
    Except PyException (MetricsRegistry F) :=
  match r.counters.get? name with
  | some _ => .ok r
  | none => do
    let c ← Counter.new name documentation labelnames
    return r.setCounter name c

/-- `histogram`: the registry with the histogram. -/
def histogram (r : MetricsRegistry F) (name documentation : Str) (buckets : List F)
    (labelnames : List Str) : Except PyException (MetricsRegistry F) :=
  match r.histograms.get? name with
  | some _ => .ok r
  | none => do
    let h ← Histogram.new name documentation buckets labelnames
    return r.setHistogram name h

/-- `inc` of the counter with the name. -/
def inc (r : MetricsRegistry F) (name : Str) (amount : Amount F) (labels : List Str) :
    Except PyException (MetricsRegistry F) := do
  let c ← orRaise (r.counters.get? name) .other
  let c ← c.inc amount labels
  return r.setCounter name c

/-- `observe` of the histogram with the name. -/
def observe (r : MetricsRegistry F) (name : Str) (value : F) (labels : List Str) :
    Except PyException (MetricsRegistry F) := do
  let h ← orRaise (r.histograms.get? name) .other
  let h ← h.observe value labels
  return r.setHistogram name h

section rendering
variable [FloatFormat F]

/-- The name of each metric, and its lines. -/
def metrics (r : MetricsRegistry F) : List (Str × Except PyException (List Str)) :=
  r.counters.values.map (fun c => (c.name, c.renderLines)) ++
    r.histograms.values.map fun h => (h.name, h.renderLines)

/-- `render`: the lines, each with its line end. -/
def render (r : MetricsRegistry F) : Except PyException Str := do
  let lines ← (sortedOn Prod.fst r.metrics).mapM Prod.snd
  return lines.flatten.flatMap fun line => line ++ str "\n"

end rendering

end MetricsRegistry

/-! ### What can be rendered -/

section sound
variable {F : Type} [PyFloat F]

/-- Every sample of a counter has a value for each label, and is finite. -/
def Counter.Sound (c : Counter F) : Prop :=
  ∀ k v, c.values.get? k = some v →
    k.length = c.labelnames.length ∧ PyFloat.isFinite v = true

/-- Every label set of a histogram has a value for each label, a count for each
    bound, a finite sum and a total. -/
structure Histogram.Sound (h : Histogram F) : Prop where
  bounds : ∀ b ∈ h.bounds, PyFloat.isFinite b = true
  counts : ∀ k cs, h.counts.get? k = some cs → k.length = h.labelnames.length ∧
    cs.length = h.bounds.length ∧ (∃ s, h.sums.get? k = some s) ∧ ∃ n, h.totals.get? k = some n
  sums : ∀ k s, h.sums.get? k = some s → PyFloat.isFinite s = true

/-- Every metric of the registry is sound. -/
structure MetricsRegistry.Sound (r : MetricsRegistry F) : Prop where
  counters : ∀ name c, r.counters.get? name = some c → c.Sound
  histograms : ∀ name h, r.histograms.get? name = some h → h.Sound

theorem MetricsRegistry.sound_empty : (empty : MetricsRegistry F).Sound :=
  ⟨fun _ _ h => (nomatch h), fun _ _ h => (nomatch h)⟩

section rendering
variable [FloatFormat F]

namespace Observability

theorem exists_format [LawfulFloatFormat F] {x : F} (h : PyFloat.isFinite x = true) :
    ∃ s, format x = .ok s := by
  have hsome : (FloatFormat.toInt x).isSome = true := by
    rw [LawfulFloatFormat.isSome_toInt, h]
  obtain ⟨i, hi⟩ := Option.isSome_iff_exists.mp hsome
  exact ⟨_, bind_eq_ok.mpr ⟨i, by rw [intOf, hi], rfl⟩⟩

theorem exists_renderLabels {labelnames : List Str} {k : LabelKey}
    (h : k.length = labelnames.length) (extra : Option Str) :
    ∃ s, renderLabels labelnames k extra = .ok s := by
  have hzip : zipStrict labelnames k = .ok (labelnames.zip k) := by
    rw [zipStrict, if_pos h.symm]
  exact ⟨_, bind_eq_ok.mpr ⟨_, hzip, rfl⟩⟩

end Observability

omit [FloatFormat F] in
/-- A sample that is listed is stored, or is the zero of a counter without labels. -/
theorem Counter.Sound.items [CountingPyFloat F] {c : Counter F} (h : c.Sound) :
    ∀ kv ∈ c.items, kv.1.length = c.labelnames.length ∧ PyFloat.isFinite kv.2 = true := by
  intro kv hkv
  unfold Counter.items at hkv
  dsimp only at hkv
  split at hkv
  · next hnone =>
    obtain rfl := List.mem_singleton.mp hkv
    rw [hnone.2]
    exact ⟨rfl, CountingPyFloat.finite_literal (by decide)⟩
  · exact h kv.1 kv.2 (Dict.get?_eq_some.mpr (mem_sortedOn.mp hkv))

theorem Counter.Sound.exists_renderLines [CountingPyFloat F] [LawfulFloatFormat F] {c : Counter F}
    (h : c.Sound) : ∃ lines, c.renderLines = .ok lines := by
  obtain ⟨samples, hsamples⟩ : ∃ samples, (c.items.mapM fun (key, value) => do
      let labels ← renderLabels c.labelnames key
      let value ← Observability.format value
      return c.name ++ labels ++ str " " ++ value : Except PyException (List Str)) = .ok samples := by
    refine exists_mapM_eq_ok.mpr fun kv hkv => ?_
    obtain ⟨hlength, hfinite⟩ := h.items kv hkv
    obtain ⟨labels, hlabels⟩ := exists_renderLabels hlength none
    obtain ⟨value, hvalue⟩ := exists_format hfinite
    exact ⟨_, bind_eq_ok.mpr ⟨labels, hlabels, bind_eq_ok.mpr ⟨value, hvalue, rfl⟩⟩⟩
  exact ⟨_, bind_eq_ok.mpr ⟨samples, hsamples, rfl⟩⟩

theorem Histogram.Sound.exists_keyLines [LawfulFloatFormat F] {h : Histogram F} (hsound : h.Sound)
    {k : LabelKey} {cs : List ℕ} (hk : h.counts.get? k = some cs) :
    ∃ lines, h.keyLines k = .ok lines := by
  obtain ⟨hlength, hcounts, ⟨sum, hsum⟩, total, htotal⟩ := hsound.counts k cs hk
  have hzip : zipStrict h.bounds cs = .ok (h.bounds.zip cs) := by
    rw [zipStrict, if_pos hcounts.symm]
  obtain ⟨buckets, hbuckets⟩ : ∃ buckets, ((h.bounds.zip cs).mapM fun (bound, count) => do
      let le ← Observability.format bound
      let labels ← renderLabels h.labelnames k (some (str "le=\"" ++ le ++ str "\""))
      return h.name ++ str "_bucket" ++ labels ++ str " " ++ decimal count :
        Except PyException (List Str)) = .ok buckets := by
    refine exists_mapM_eq_ok.mpr fun bc hbc => ?_
    obtain ⟨le, hle⟩ := exists_format (hsound.bounds bc.1 (List.of_mem_zip hbc).1)
    obtain ⟨labels, hlabels⟩ := exists_renderLabels hlength (some (str "le=\"" ++ le ++ str "\""))
    exact ⟨_, bind_eq_ok.mpr ⟨le, hle, bind_eq_ok.mpr ⟨labels, hlabels, rfl⟩⟩⟩
  obtain ⟨infLabels, hinf⟩ := exists_renderLabels hlength (some (str "le=\"+Inf\""))
  obtain ⟨base, hbase⟩ := exists_renderLabels hlength none
  obtain ⟨text, htext⟩ := exists_format (hsound.sums k sum hsum)
  unfold Histogram.keyLines
  rw [hk, hsum, htotal]
  simp only [bind_eq_ok, orRaise_eq_ok]
  exact ⟨_, _, rfl, _, rfl, _, rfl, _, hzip, _, hbuckets, _, hinf, _, hbase, _, htext, rfl⟩

theorem Histogram.Sound.exists_renderLines [LawfulFloatFormat F] {h : Histogram F}
    (hsound : h.Sound) : ∃ lines, h.renderLines = .ok lines := by
  obtain ⟨lines, hlines⟩ : ∃ lines,
      (sortedOn id (h.counts.entries.map Prod.fst)).mapM h.keyLines = .ok lines := by
    refine exists_mapM_eq_ok.mpr fun k hk => ?_
    obtain ⟨⟨k, cs⟩, hmem, rfl⟩ := List.mem_map.mp (mem_sortedOn.mp hk)
    exact hsound.exists_keyLines (Dict.get?_eq_some.mpr hmem)
  exact ⟨_, bind_eq_ok.mpr ⟨lines, hlines, rfl⟩⟩

/-- **A sound registry is rendered.** -/
theorem MetricsRegistry.Sound.exists_render [CountingPyFloat F] [LawfulFloatFormat F]
    {r : MetricsRegistry F} (h : r.Sound) : ∃ text, r.render = .ok text := by
  obtain ⟨lines, hlines⟩ : ∃ lines, (sortedOn Prod.fst r.metrics).mapM Prod.snd = .ok lines := by
    refine exists_mapM_eq_ok.mpr fun m hm => ?_
    rcases List.mem_append.mp (mem_sortedOn.mp hm) with hm | hm
    · obtain ⟨c, hc, rfl⟩ := List.mem_map.mp hm
      obtain ⟨name, hname⟩ := Dict.mem_values.mp hc
      exact (h.counters name c hname).exists_renderLines
    · obtain ⟨x, hx, rfl⟩ := List.mem_map.mp hm
      obtain ⟨name, hname⟩ := Dict.mem_values.mp hx
      exact (h.histograms name x hname).exists_renderLines
  exact ⟨_, bind_eq_ok.mpr ⟨lines, hlines, rfl⟩⟩

end rendering

/-! ### Counting keeps a registry sound -/

theorem Observability.checkLabels_eq {labelnames labels : List Str}
    (h : labels.length = labelnames.length) : checkLabels labelnames labels = .ok labels := by
  rw [checkLabels, if_neg (not_not.mpr h)]

/-- What `inc` does with an amount that is accepted. -/
theorem Counter.inc_eq {c : Counter F} {amount : Amount F} {labels : List Str} {x : F}
    (hamount : amount.isNegative = false) (hlabels : labels.length = c.labelnames.length)
    (hx : amount.toFloat = .ok x) : c.inc amount labels = .ok (c.add labels x) := by
  unfold Counter.inc
  rw [hamount, checkLabels_eq hlabels, hx]
  rfl

theorem Counter.inc_eq_ok {c c' : Counter F} {amount : Amount F} {labels : List Str}
    (h : c.inc amount labels = .ok c') : ∃ x, amount.toFloat = .ok x ∧
      labels.length = c.labelnames.length ∧ c' = c.add labels x := by
  unfold Counter.inc at h
  by_cases hnegative : amount.isNegative = true
  · rw [if_pos hnegative] at h
    exact absurd h (by simp)
  · rw [if_neg hnegative] at h
    simp only [bind_eq_ok, pure_eq_ok] at h
    obtain ⟨key, hkey, x, hx, rfl⟩ := h
    unfold checkLabels at hkey
    by_cases hlength : labels.length ≠ c.labelnames.length
    · rw [if_pos hlength] at hkey
      exact absurd hkey (by simp)
    · rw [if_neg hlength] at hkey
      rw [← Except.ok.inj hkey]
      exact ⟨x, hx, not_not.mp hlength, rfl⟩

theorem Counter.total_add (c : Counter F) (key key' : LabelKey) (x : F) :
    (c.add key x).total key' = if key' = key then PyFloat.add (c.total key) x else c.total key' := by
  unfold Counter.add Counter.total
  dsimp only
  rw [Dict.get?_set]
  by_cases h : key' = key
  · rw [if_pos h, if_pos h]
    rfl
  · rw [if_neg h, if_neg h]

theorem Counter.Sound.add {c : Counter F} (h : c.Sound) {key : LabelKey} {x : F}
    (hkey : key.length = c.labelnames.length)
    (hfinite : PyFloat.isFinite (PyFloat.add (c.total key) x) = true) : (c.add key x).Sound := by
  intro k v hv
  change (c.values.set key _).get? k = some v at hv
  rw [Dict.get?_set] at hv
  by_cases hk : k = key
  · rw [if_pos hk] at hv
    obtain rfl := Option.some.inj hv
    rw [hk]
    exact ⟨hkey, hfinite⟩
  · rw [if_neg hk] at hv
    exact h k v hv

/-- A sample that was never counted is zero. -/
theorem Counter.Sound.finite_total [CountingPyFloat F] {c : Counter F} (h : c.Sound)
    (key : LabelKey) : PyFloat.isFinite (c.total key) = true := by
  unfold Counter.total
  cases hkey : c.values.get? key with
  | none => exact CountingPyFloat.finite_literal (by decide)
  | some v => exact (h key v hkey).2

theorem Histogram.observe_eq {h : Histogram F} {value : F} {labels : List Str}
    (hlabels : labels.length = h.labelnames.length) :
    h.observe value labels = .ok (h.add labels value) := by
  unfold Histogram.observe
  rw [checkLabels_eq hlabels]
  rfl

theorem Histogram.observe_eq_ok {h h' : Histogram F} {value : F} {labels : List Str}
    (hobserve : h.observe value labels = .ok h') :
    labels.length = h.labelnames.length ∧ h' = h.add labels value := by
  by_cases hlength : labels.length = h.labelnames.length
  · rw [observe_eq hlength] at hobserve
    exact ⟨hlength, (Except.ok.inj hobserve).symm⟩
  · unfold Histogram.observe at hobserve
    rw [checkLabels, if_pos hlength] at hobserve
    exact absurd hobserve (by simp)

/-- A new histogram has observed nothing, and its bounds are in order. -/
theorem Histogram.new_eq_ok {name documentation : Str} {buckets : List F} {labelnames : List Str}
    {h : Histogram F} (hnew : Histogram.new name documentation buckets labelnames = .ok h) :
    h = ⟨name, documentation, labelnames, sortedBy PyFloat.lt buckets, .empty, .empty, .empty⟩ ∧
      ∀ c ∈ name, isNameChar c = true := by
  unfold Histogram.new at hnew
  rw [bind_eq_ok] at hnew
  obtain ⟨name', hname, hreturn⟩ := hnew
  obtain ⟨rfl, hvalid⟩ := validateName_eq_ok hname
  by_cases hbounds : sortedBy PyFloat.lt buckets = []
  · rw [if_pos hbounds] at hreturn
    exact absurd hreturn (by simp)
  · rw [if_neg hbounds] at hreturn
    exact ⟨(Except.ok.inj hreturn).symm, hvalid⟩

theorem Histogram.Sound.length_bucketCounts {h : Histogram F} (hsound : h.Sound) (key : LabelKey) :
    (h.bucketCounts key).length = h.bounds.length := by
  unfold Histogram.bucketCounts
  cases hold : h.counts.get? key with
  | none => exact List.length_replicate
  | some old => exact (hsound.counts key old hold).2.1

/-- An observation that leaves the sum finite keeps a histogram sound. -/
theorem Histogram.Sound.add_of_finite {h : Histogram F} (hsound : h.Sound) {value : F}
    {key : LabelKey} (hkey : key.length = h.labelnames.length)
    (hvalue : PyFloat.isFinite (PyFloat.add ((h.sums.get? key).getD PyFloat.zero) value) = true) :
    (h.add key value).Sound := by
  refine ⟨hsound.bounds, ?_, ?_⟩
  · intro k cs hcs
    change (h.counts.set key _).get? k = some cs at hcs
    show _ ∧ _ ∧ (∃ s, (h.sums.set key _).get? k = some s) ∧ ∃ n, (h.totals.set key _).get? k = some n
    rw [Dict.get?_set] at hcs
    rw [Dict.get?_set, Dict.get?_set]
    by_cases hk : k = key
    · -- the label set that was observed: as many counts as before
      rw [if_pos hk] at hcs
      rw [if_pos hk, if_pos hk]
      obtain rfl := Option.some.inj hcs
      refine ⟨by rw [hk]; exact hkey, ?_, ⟨_, rfl⟩, _, rfl⟩
      rw [List.length_map, List.length_zip, hsound.length_bucketCounts, min_self]
      rfl
    · rw [if_neg hk] at hcs
      rw [if_neg hk, if_neg hk]
      exact hsound.counts k cs hcs
  · intro k s hs
    change (h.sums.set key _).get? k = some s at hs
    rw [Dict.get?_set] at hs
    by_cases hk : k = key
    · rw [if_pos hk] at hs
      obtain rfl := Option.some.inj hs
      exact hvalue
    · rw [if_neg hk] at hs
      exact hsound.sums k s hs

/-- An observation that leaves finite sums finite keeps a histogram sound. -/
theorem Histogram.Sound.add [CountingPyFloat F] {h : Histogram F} (hsound : h.Sound) {value : F}
    {key : LabelKey} (hkey : key.length = h.labelnames.length)
    (hvalue : ∀ s : F, PyFloat.isFinite s = true → PyFloat.isFinite (PyFloat.add s value) = true) :
    (h.add key value).Sound := by
  apply hsound.add_of_finite hkey
  apply hvalue
  cases hold : h.sums.get? key with
  | none => exact CountingPyFloat.finite_literal (by decide)
  | some old => exact hsound.sums key old hold

namespace MetricsRegistry

/-- How many labels a counter has. -/
def counterLabels (r : MetricsRegistry F) (name : Str) : Option ℕ :=
  (r.counters.get? name).map (·.labelnames.length)

/-- How many labels a histogram has. -/
def histogramLabels (r : MetricsRegistry F) (name : Str) : Option ℕ :=
  (r.histograms.get? name).map (·.labelnames.length)

/-- The value of a sample; zero before it is counted. -/
def total (r : MetricsRegistry F) (name : Str) (key : LabelKey) : F :=
  ((r.counters.get? name).map (·.total key)).getD PyFloat.zero

omit [PyFloat F] in
theorem get?_setCounter (r : MetricsRegistry F) (name name' : Str) (c : Counter F) :
    (r.setCounter name c).counters.get? name' = if name' = name then some c else
      r.counters.get? name' := Dict.get?_set _ _ _ _

omit [PyFloat F] in
theorem get?_setHistogram (r : MetricsRegistry F) (name name' : Str) (h : Histogram F) :
    (r.setHistogram name h).histograms.get? name' = if name' = name then some h else
      r.histograms.get? name' := Dict.get?_set _ _ _ _

theorem Sound.setCounter {r : MetricsRegistry F} (h : r.Sound) {name : Str} {c : Counter F}
    (hc : c.Sound) : (r.setCounter name c).Sound := by
  refine ⟨fun name' c' hc' => ?_, h.histograms⟩
  rw [get?_setCounter] at hc'
  by_cases heq : name' = name
  · rw [if_pos heq] at hc'
    obtain rfl := Option.some.inj hc'
    exact hc
  · rw [if_neg heq] at hc'
    exact h.counters name' c' hc'

theorem Sound.setHistogram {r : MetricsRegistry F} (h : r.Sound) {name : Str} {x : Histogram F}
    (hx : x.Sound) : (r.setHistogram name x).Sound := by
  refine ⟨h.counters, fun name' x' hx' => ?_⟩
  rw [get?_setHistogram] at hx'
  by_cases heq : name' = name
  · rw [if_pos heq] at hx'
    obtain rfl := Option.some.inj hx'
    exact hx
  · rw [if_neg heq] at hx'
    exact h.histograms name' x' hx'

/-- What an update leaves of a registry: it is sound, and has the metrics it had. -/
structure Updated (r r' : MetricsRegistry F) : Prop where
  sound : r'.Sound
  counterLabels : ∀ name, r'.counterLabels name = r.counterLabels name
  histogramLabels : ∀ name, r'.histogramLabels name = r.histogramLabels name

theorem Sound.finite_total [CountingPyFloat F] {r : MetricsRegistry F} (h : r.Sound) (name : Str)
    (key : LabelKey) : PyFloat.isFinite (r.total name key) = true := by
  unfold total
  cases hname : r.counters.get? name with
  | none => exact CountingPyFloat.finite_literal (by decide)
  | some c => exact (h.counters name c hname).finite_total key

/-- **Counting an amount keeps a registry sound** when the new total is finite. -/
theorem Sound.inc {r : MetricsRegistry F} (h : r.Sound) {name : Str} {amount : Amount F}
    {labels : List Str} {x : F} (hname : r.counterLabels name = some labels.length)
    (hamount : amount.isNegative = false) (hx : amount.toFloat = .ok x)
    (hfinite : PyFloat.isFinite (PyFloat.add (r.total name labels) x) = true) :
    ∃ r', r.inc name amount labels = .ok r' ∧ r.Updated r' ∧
      ∀ name' key, r'.total name' key =
        if name' = name ∧ key = labels then PyFloat.add (r.total name labels) x
        else r.total name' key := by
  obtain ⟨c, hc, hlength⟩ := Option.map_eq_some_iff.mp hname
  have htotal : r.total name labels = c.total labels := by
    rw [total, hc]
    rfl
  rw [htotal] at hfinite ⊢
  have hinc := Counter.inc_eq hamount hlength.symm hx
  have hsound := (h.counters name c hc).add hlength.symm hfinite
  refine ⟨r.setCounter name (c.add labels x), ?_, ⟨h.setCounter hsound, ?_, fun _ => rfl⟩, ?_⟩
  · rw [MetricsRegistry.inc, hc]
    exact bind_eq_ok.mpr ⟨c, rfl, bind_eq_ok.mpr ⟨_, hinc, rfl⟩⟩
  · intro name'
    unfold counterLabels
    rw [get?_setCounter]
    by_cases heq : name' = name
    · rw [if_pos heq, heq, hc]
      rfl
    · rw [if_neg heq]
  · intro name' key
    unfold total
    rw [get?_setCounter]
    by_cases heq : name' = name
    · rw [if_pos heq, heq, hc]
      simp only [Option.map_some, Option.getD_some, Counter.total_add, true_and]
    · rw [if_neg heq, if_neg fun hand => heq hand.1]

/-- Counting one more. -/
theorem Sound.inc_one [CountingPyFloat F] {r : MetricsRegistry F} (h : r.Sound) {name : Str}
    {labels : List Str} (hname : r.counterLabels name = some labels.length) :
    ∃ r', r.inc name (.float (PyFloat.literal 1 0)) labels = .ok r' ∧ r.Updated r' ∧
      ∀ name' key, name' ≠ name → r'.total name' key = r.total name' key := by
  have hone : (Amount.float (PyFloat.literal 1 0 : F)).isNegative = false := by
    simp [Amount.isNegative, PyFloat.lt, CountingPyFloat.zero_le_one]
  obtain ⟨r', hr', hupdated, htotal⟩ :=
    h.inc hname hone rfl (CountingPyFloat.finite_add_one (h.finite_total name labels))
  refine ⟨r', hr', hupdated, fun name' key hne => ?_⟩
  rw [htotal, if_neg fun hand => hne hand.1]

theorem Sound.observe [CountingPyFloat F] {r : MetricsRegistry F} (h : r.Sound) {name : Str}
    {labels : List Str} {value : F} (hname : r.histogramLabels name = some labels.length)
    (hvalue : ∀ s : F, PyFloat.isFinite s = true → PyFloat.isFinite (PyFloat.add s value) = true) :
    ∃ r', r.observe name value labels = .ok r' ∧ r.Updated r' ∧
      ∀ name' key, r'.total name' key = r.total name' key := by
  obtain ⟨x, hx, hlength⟩ := Option.map_eq_some_iff.mp hname
  have hobserve : x.observe value labels = .ok (x.add labels value) :=
    Histogram.observe_eq hlength.symm
  have hsound := (h.histograms name x hx).add hlength.symm hvalue
  refine ⟨r.setHistogram name (x.add labels value), ?_, ⟨h.setHistogram hsound, fun _ => rfl, ?_⟩,
    fun _ _ => rfl⟩
  · rw [MetricsRegistry.observe, hx]
    exact bind_eq_ok.mpr ⟨x, rfl, bind_eq_ok.mpr ⟨_, hobserve, rfl⟩⟩
  · intro name'
    unfold histogramLabels
    rw [get?_setHistogram]
    by_cases heq : name' = name
    · rw [if_pos heq, heq, hx]
      rfl
    · rw [if_neg heq]

/-! ### Registration keeps a registry sound -/

omit [PyFloat F] in
theorem counter_again {r : MetricsRegistry F} {name : Str} {n : ℕ}
    (h : r.counterLabels name = some n) (documentation : Str) (labelnames : List Str) :
    r.counter name documentation labelnames = .ok r := by
  obtain ⟨c, hc, -⟩ := Option.map_eq_some_iff.mp h
  rw [counter, hc]

theorem histogram_again {r : MetricsRegistry F} {name : Str} {n : ℕ}
    (h : r.histogramLabels name = some n) (documentation : Str) (buckets : List F)
    (labelnames : List Str) : r.histogram name documentation buckets labelnames = .ok r := by
  obtain ⟨x, hx, -⟩ := Option.map_eq_some_iff.mp h
  rw [histogram, hx]

/-- A new counter has counted nothing. -/
theorem Sound.counter_new {r : MetricsRegistry F} (h : r.Sound) {name : Str}
    (hname : validateName name = .ok name) (hfresh : r.counterLabels name = none)
    (documentation : Str) (labelnames : List Str) :
    ∃ r', r.counter name documentation labelnames = .ok r' ∧ r'.Sound ∧
      (∀ n, r'.counterLabels n = if n = name then some labelnames.length else r.counterLabels n) ∧
      (∀ n, r'.histogramLabels n = r.histogramLabels n) ∧
      ∀ n key, r'.total n key = r.total n key := by
  have hnone : r.counters.get? name = none := Option.map_eq_none_iff.mp hfresh
  refine ⟨r.setCounter name ⟨name, documentation, labelnames, .empty⟩, ?_,
    h.setCounter fun _ _ hv => (nomatch hv), ?_, fun _ => rfl, ?_⟩
  · rw [counter, hnone]
    exact bind_eq_ok.mpr ⟨_, bind_eq_ok.mpr ⟨name, hname, rfl⟩, rfl⟩
  · intro n
    unfold counterLabels
    rw [get?_setCounter]
    by_cases heq : n = name
    · rw [if_pos heq, if_pos heq]
      rfl
    · rw [if_neg heq, if_neg heq]
  · intro n key
    unfold total
    rw [get?_setCounter]
    by_cases heq : n = name
    · rw [if_pos heq, heq, hnone]
      rfl
    · rw [if_neg heq]

theorem Sound.histogram_new {r : MetricsRegistry F} (h : r.Sound) {name : Str}
    (hname : validateName name = .ok name) (hfresh : r.histogramLabels name = none)
    (documentation : Str) {buckets : List F} (labelnames : List Str) (hbuckets : buckets ≠ [])
    (hfinite : ∀ b ∈ buckets, PyFloat.isFinite b = true) :
    ∃ r', r.histogram name documentation buckets labelnames = .ok r' ∧ r'.Sound ∧
      (∀ n, r'.histogramLabels n = if n = name then some labelnames.length else r.histogramLabels n) ∧
      (∀ n, r'.counterLabels n = r.counterLabels n) ∧
      ∀ n key, r'.total n key = r.total n key := by
  have hnone : r.histograms.get? name = none := Option.map_eq_none_iff.mp hfresh
  have hbounds : sortedBy PyFloat.lt buckets ≠ [] := by
    intro hnil
    have hlength := length_sortedBy PyFloat.lt buckets
    rw [hnil] at hlength
    exact hbuckets (List.length_eq_zero_iff.mp hlength.symm)
  have hnew : Histogram.new name documentation buckets labelnames =
      .ok ⟨name, documentation, labelnames, sortedBy PyFloat.lt buckets, .empty, .empty, .empty⟩ := by
    refine bind_eq_ok.mpr ⟨name, hname, ?_⟩
    rw [if_neg hbounds]
    rfl
  generalize hx : (⟨name, documentation, labelnames, sortedBy PyFloat.lt buckets, .empty, .empty,
    .empty⟩ : Histogram F) = x at hnew
  have hsound : x.Sound := by
    subst hx
    exact ⟨fun b hb => hfinite b (mem_sortedBy.mp hb), fun _ _ hv => (nomatch hv),
      fun _ _ hv => (nomatch hv)⟩
  refine ⟨r.setHistogram name x, ?_, h.setHistogram hsound, ?_, fun _ => rfl, fun _ _ => rfl⟩
  · rw [histogram, hnone]
    exact bind_eq_ok.mpr ⟨x, hnew, rfl⟩
  · intro n
    unfold histogramLabels
    rw [get?_setHistogram]
    by_cases heq : n = name
    · rw [if_pos heq, if_pos heq, ← hx]
      rfl
    · rw [if_neg heq, if_neg heq]

end MetricsRegistry

end sound

end IncidentEvidence
