import IncidentEvidence.Observability.Unambiguous

/-! # Runs of a metrics registry

    Whoever holds a registry registers metrics and counts with them, in any order, and a
    page can be read at any time. A call is fair when what it registers cannot collide with
    what is there, and when the number it leaves is finite. Every page of a run of fair
    calls is unambiguous. -/

namespace IncidentEvidence

open Py Observability

/-- A call on a registry, or on a metric of it. -/
inductive MetricsCall (F : Type) where
  | counter (name documentation : Str) (labelnames : List Str)
  | histogram (name documentation : Str) (buckets : List F) (labelnames : List Str)
  | inc (name : Str) (amount : Amount F) (labels : List Str)
  | observe (name : Str) (value : F) (labels : List Str)

section runs
variable {F : Type} [PyFloat F]

namespace MetricsCall

/-- The registry after the call. -/
def apply (r : MetricsRegistry F) : MetricsCall F → Except PyException (MetricsRegistry F)
  | .counter name documentation labelnames => r.counter name documentation labelnames
  | .histogram name documentation buckets labelnames =>
    r.histogram name documentation buckets labelnames
  | .inc name amount labels => r.inc name amount labels
  | .observe name value labels => r.observe name value labels

/-- A call that raises leaves the registry as it was. -/
def step (r : MetricsRegistry F) (call : MetricsCall F) : MetricsRegistry F :=
  (call.apply r).toOption.getD r

/-- What a caller may pass: the names are names of the exposition format. -/
def Valid : MetricsCall F → Prop
  | .counter name _ labelnames => validateName name = .ok name ∧ ClearLabels labelnames
  | .histogram name _ buckets labelnames =>
    validateName name = .ok name ∧ buckets ≠ [] ∧ ClearLabels labelnames
  | .inc .. | .observe .. => True

end MetricsCall

namespace MetricsRegistry

/-- The registry after a run of calls. -/
def run (r : MetricsRegistry F) (calls : List (MetricsCall F)) : MetricsRegistry F :=
  calls.foldl MetricsCall.step r

/-- The sum of a label set; zero before it is observed. -/
def sum (r : MetricsRegistry F) (name : Str) (key : LabelKey) : F :=
  ((r.histograms.get? name).bind (·.sums.get? key)).getD PyFloat.zero

end MetricsRegistry

/-! ### Fair calls -/

section fair
variable [FloatFormat F]

/-- What a call needs if it takes effect. A registration of a known name has none. -/
def MetricsCall.Admitted (r : MetricsRegistry F) : MetricsCall F → Prop
  | .counter name documentation labelnames =>
    r.counters.get? name = none → .scalar '\n' ∉ documentation ∧ ClearLabels labelnames ∧
      ∀ entry ∈ r.histograms.entries, Apart name labelnames entry.1 entry.2.labelnames
  | .histogram name documentation buckets labelnames =>
    r.histograms.get? name = none → .scalar '\n' ∉ documentation ∧ ClearLabels labelnames ∧
      str "le" ∉ labelnames ∧ (∀ b ∈ buckets, PyFloat.isFinite b = true) ∧
      (buckets.map formatText).Nodup ∧
      ∀ entry ∈ r.counters.entries, Apart entry.1 entry.2.labelnames name labelnames
  | .inc name amount labels => ∀ x, amount.toFloat = .ok x →
    PyFloat.isFinite (PyFloat.add (r.total name labels) x) = true
  | .observe name value labels =>
    PyFloat.isFinite (PyFloat.add (r.sum name labels) value) = true

/-- A call that raises, or that can be admitted. -/
def MetricsCall.Fair (r : MetricsRegistry F) (call : MetricsCall F) : Prop :=
  (∃ r', call.apply r = .ok r') → call.Admitted r

/-- Every call of the run is fair where it is made. -/
def MetricsRegistry.FairRun (r : MetricsRegistry F) : List (MetricsCall F) → Prop
  | [] => True
  | call :: calls => call.Fair r ∧ FairRun (call.step r) calls

namespace MetricsRegistry

theorem clear_empty : (empty : MetricsRegistry F).Clear :=
  ⟨fun _ _ h => (nomatch h), fun _ _ h => (nomatch h), fun _ _ _ _ h => (nomatch h)⟩

variable {r : MetricsRegistry F}

theorem Clear.setCounter (h : r.Clear) {c : Counter F} (hc : c.Clear)
    (hapart : ∀ name x, r.histograms.get? name = some x →
      Apart c.name c.labelnames x.name x.labelnames) : (r.setCounter c.name c).Clear := by
  refine ⟨?_, h.histograms, ?_⟩
  · intro name c' hc'
    rw [get?_setCounter] at hc'
    by_cases heq : name = c.name
    · rw [if_pos heq] at hc'
      obtain rfl := Option.some.inj hc'
      exact ⟨heq.symm, hc⟩
    · rw [if_neg heq] at hc'
      exact h.counters name c' hc'
  · intro name c' name' x hc' hx
    rw [get?_setCounter] at hc'
    by_cases heq : name = c.name
    · rw [if_pos heq] at hc'
      obtain rfl := Option.some.inj hc'
      exact hapart name' x hx
    · rw [if_neg heq] at hc'
      exact h.apart name c' name' x hc' hx

theorem Clear.setHistogram (h : r.Clear) {x : Histogram F} (hx : x.Clear)
    (hapart : ∀ name c, r.counters.get? name = some c →
      Apart c.name c.labelnames x.name x.labelnames) : (r.setHistogram x.name x).Clear := by
  refine ⟨h.counters, ?_, ?_⟩
  · intro name x' hx'
    rw [get?_setHistogram] at hx'
    by_cases heq : name = x.name
    · rw [if_pos heq] at hx'
      obtain rfl := Option.some.inj hx'
      exact ⟨heq.symm, hx⟩
    · rw [if_neg heq] at hx'
      exact h.histograms name x' hx'
  · intro name c name' x' hc hx'
    rw [get?_setHistogram] at hx'
    by_cases heq : name' = x.name
    · rw [if_pos heq] at hx'
      obtain rfl := Option.some.inj hx'
      exact hapart name c hc
    · rw [if_neg heq] at hx'
      exact h.apart name c name' x' hc hx'

theorem Clear.counter (h : r.Clear) {name documentation : Str} {labelnames : List Str}
    {r' : MetricsRegistry F} (hr' : r.counter name documentation labelnames = .ok r')
    (hadmitted : MetricsCall.Admitted r (.counter name documentation labelnames)) : r'.Clear := by
  unfold MetricsRegistry.counter at hr'
  cases hget : r.counters.get? name with
  | some c =>
    rw [hget] at hr'
    rw [← Except.ok.inj hr']
    exact h
  | none =>
    rw [hget] at hr'
    simp only [Counter.new, bind_eq_ok, pure_eq_ok] at hr'
    obtain ⟨c, ⟨name', hname, rfl⟩, rfl⟩ := hr'
    obtain ⟨rfl, hvalid⟩ := validateName_eq_ok hname
    obtain ⟨hdocumentation, hlabels, hapart⟩ := hadmitted hget
    refine @Clear.setCounter _ _ _ _ h ⟨name', documentation, labelnames, .empty⟩
      ⟨hvalid, hdocumentation, hlabels, fun _ _ hv => (by cases hv)⟩ ?_
    intro name x hx
    rw [(h.histograms name x hx).1]
    exact hapart (name, x) (Dict.get?_eq_some.mp hx)

theorem Clear.histogram (h : r.Clear) {name documentation : Str} {buckets : List F}
    {labelnames : List Str} {r' : MetricsRegistry F}
    (hr' : r.histogram name documentation buckets labelnames = .ok r')
    (hadmitted : MetricsCall.Admitted r (.histogram name documentation buckets labelnames)) :
    r'.Clear := by
  unfold MetricsRegistry.histogram at hr'
  cases hget : r.histograms.get? name with
  | some x =>
    rw [hget] at hr'
    rw [← Except.ok.inj hr']
    exact h
  | none =>
    rw [hget] at hr'
    simp only [bind_eq_ok, pure_eq_ok] at hr'
    obtain ⟨x, hnew, rfl⟩ := hr'
    obtain ⟨rfl, hvalid⟩ := Histogram.new_eq_ok hnew
    obtain ⟨hdocumentation, hlabels, hle, hfinite, htexts, hapart⟩ := hadmitted hget
    have hbounds : ((sortedBy PyFloat.lt buckets).map formatText).Nodup :=
      ((perm_sortedBy PyFloat.lt buckets).map formatText).nodup_iff.mpr htexts
    have hsound : (⟨name, documentation, labelnames, sortedBy PyFloat.lt buckets, .empty, .empty,
        .empty⟩ : Histogram F).Sound :=
      ⟨fun b hb => hfinite b (mem_sortedBy.mp hb), fun _ _ hv => (by cases hv),
        fun _ _ hv => (by cases hv)⟩
    refine @Clear.setHistogram _ _ _ _ h ⟨name, documentation, labelnames,
      sortedBy PyFloat.lt buckets, .empty, .empty, .empty⟩
      ⟨hvalid, hdocumentation, hlabels, hle, hbounds, hsound⟩ ?_
    intro name' c hc
    rw [(h.counters name' c hc).1]
    exact hapart (name', c) (Dict.get?_eq_some.mp hc)

theorem Clear.inc (h : r.Clear) {name : Str} {amount : Amount F} {labels : List Str}
    {r' : MetricsRegistry F} (hr' : r.inc name amount labels = .ok r')
    (hadmitted : MetricsCall.Admitted r (.inc name amount labels)) : r'.Clear := by
  simp only [MetricsRegistry.inc, bind_eq_ok, orRaise_eq_ok, pure_eq_ok] at hr'
  obtain ⟨c, hc, c', hinc, rfl⟩ := hr'
  obtain ⟨x, hx, hlength, rfl⟩ := Counter.inc_eq_ok hinc
  obtain ⟨rfl, hclear⟩ := h.counters name c hc
  have hfinite := hadmitted x hx
  rw [total, hc] at hfinite
  exact @Clear.setCounter _ _ _ _ h (c.add labels x)
    ⟨hclear.name, hclear.documentation, hclear.labels, hclear.sound.add hlength hfinite⟩
    fun name' y hy => h.apart _ c name' y hc hy

theorem Clear.observe (h : r.Clear) {name : Str} {value : F} {labels : List Str}
    {r' : MetricsRegistry F} (hr' : r.observe name value labels = .ok r')
    (hadmitted : MetricsCall.Admitted r (.observe name value labels)) : r'.Clear := by
  simp only [MetricsRegistry.observe, bind_eq_ok, orRaise_eq_ok, pure_eq_ok] at hr'
  obtain ⟨x, hx, x', hobserve, rfl⟩ := hr'
  obtain ⟨hlength, rfl⟩ := Histogram.observe_eq_ok hobserve
  obtain ⟨rfl, hclear⟩ := h.histograms name x hx
  have hfinite : PyFloat.isFinite (PyFloat.add (r.sum x.name labels) value) = true := hadmitted
  rw [sum, hx] at hfinite
  exact @Clear.setHistogram _ _ _ _ h (x.add labels value)
    ⟨hclear.name, hclear.documentation, hclear.labels, hclear.le, hclear.bounds,
      hclear.sound.add_of_finite hlength hfinite⟩
    fun name' c hc => h.apart name' c _ x hc hx

/-- **A fair call keeps a registry clear.** -/
theorem Clear.step (h : r.Clear) {call : MetricsCall F} (hfair : call.Fair r) :
    (call.step r).Clear := by
  unfold MetricsCall.step
  cases hr' : call.apply r with
  | error e => exact h
  | ok r' =>
    have hadmitted := hfair ⟨r', hr'⟩
    cases call with
    | counter name documentation labelnames => exact h.counter hr' hadmitted
    | histogram name documentation buckets labelnames => exact h.histogram hr' hadmitted
    | inc name amount labels => exact h.inc hr' hadmitted
    | observe name value labels => exact h.observe hr' hadmitted

theorem Clear.run (h : r.Clear) {calls : List (MetricsCall F)} (hfair : r.FairRun calls) :
    (r.run calls).Clear := by
  induction calls generalizing r with
  | nil => exact h
  | cons call calls ih => exact ih (h.step hfair.1) hfair.2

/-- **Every page of a fair run is unambiguous**: each family has one TYPE line, no two samples
    have the same name and labels, and each sample is read back from its line. -/
theorem run_unambiguous [LawfulFloatFormat F] [PlainFloatFormat F] [CountingPyFloat F]
    {calls : List (MetricsCall F)} (hfair : (empty : MetricsRegistry F).FairRun calls) :
    ∃ text, ((empty : MetricsRegistry F).run calls).render = .ok text ∧
      Unambiguous text ((empty : MetricsRegistry F).run calls).familyNames
        ((empty : MetricsRegistry F).run calls).samples :=
  (clear_empty.run hfair).unambiguous

end MetricsRegistry

end fair

end runs

/-! ### A fair run, and one that is not -/

namespace MetricsRegistry

/-- A label value with a quote, a backslash and a line end. -/
def awkward : Str := str "\"\\\n"

theorem run_unambiguous_demo : ∃ text, ((empty : MetricsRegistry ExactFloat).run
    [.counter (str "jobs_count") (str "d") [str "l"], .histogram (str "jobs") (str "d") [.fin 1] [],
      .inc (str "jobs_count") (.int 2) [awkward], .observe (str "jobs") (.fin 3) []]).render =
        .ok text := by
  have hfair : (empty : MetricsRegistry ExactFloat).FairRun
      [.counter (str "jobs_count") (str "d") [str "l"],
        .histogram (str "jobs") (str "d") [.fin 1] [],
        .inc (str "jobs_count") (.int 2) [awkward], .observe (str "jobs") (.fin 3) []] := by
    refine ⟨fun _ _ => ⟨by decide, ⟨by decide, by decide⟩, ?_⟩,
      fun _ _ => ⟨by decide, ⟨by decide, by decide⟩, by decide, by decide, by decide, ?_⟩,
      fun _ x hx => ?_, fun _ => rfl, trivial⟩
    · intro entry hentry
      exact absurd hentry List.not_mem_nil
    · intro entry hentry
      obtain rfl := List.mem_singleton.mp hentry
      exact ⟨by decide, by decide, by decide, by decide⟩
    · obtain rfl := Except.ok.inj hx
      rfl
  obtain ⟨text, htext, -⟩ := run_unambiguous hfair
  exact ⟨text, htext⟩

/-- A counter and a histogram of one name give the family two TYPE lines. -/
theorem shared_name_ambiguous :
    ¬ ∀ calls : List (MetricsCall ExactFloat), (∀ call ∈ calls, call.Valid) →
      ∃ text, ((empty : MetricsRegistry ExactFloat).run calls).render = .ok text ∧
        Unambiguous text ((empty : MetricsRegistry ExactFloat).run calls).familyNames
          ((empty : MetricsRegistry ExactFloat).run calls).samples := by
  intro h
  have hvalid : ∀ call ∈ ([.counter (str "x") (str "d") [],
      .histogram (str "x") (str "d") [.fin 1] []] : List (MetricsCall ExactFloat)), call.Valid := by
    have hname : validateName (str "x") = .ok (str "x") := by decide
    have hlabels : ClearLabels [] := ⟨List.nodup_nil, fun _ hmem => absurd hmem List.not_mem_nil⟩
    intro call hcall
    simp only [List.mem_cons, List.not_mem_nil, or_false] at hcall
    rcases hcall with rfl | rfl
    · exact ⟨hname, hlabels⟩
    · exact ⟨hname, by simp, hlabels⟩
  obtain ⟨text, htext, hunambiguous⟩ := h _ hvalid
  have hpage : ((empty : MetricsRegistry ExactFloat).run [.counter (str "x") (str "d") [],
      .histogram (str "x") (str "d") [.fin 1] []]).render = .ok (str "# HELP x d\n" ++
        (str "# TYPE x counter\n" ++ (str "x 0\n" ++ (str "# HELP x d\n" ++
          str "# TYPE x histogram\n")))) := by decide +kernel
  rw [hpage] at htext
  obtain rfl := Except.ok.inj htext
  have htyped := hunambiguous.typed (str "x") (by decide +kernel)
  exact absurd htyped (by decide +kernel)

end MetricsRegistry

end IncidentEvidence
