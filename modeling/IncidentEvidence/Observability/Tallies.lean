import IncidentEvidence.Observability.Metrics
import Mathlib.Data.List.Dedup

/-! # What a histogram reports

    A histogram keeps a list of counts, a sum and a total for each label set. After any
    run of observations the three are the tallies of the values of that label set
    (`tallied_observeAll`), and a page of a histogram is those tallies written out
    (`rendered_is_tallied`). The counts are cumulative where they are stored, so a page
    must not add them up again. -/

namespace IncidentEvidence

open Py Observability

namespace Histogram

/-! ### Runs of observations -/

section runs
variable {α : Type}

/-- The values of the calls for a label set. -/
def valuesOf (calls : List (α × List Str)) (key : LabelKey) : List α :=
  (calls.filter (·.2 = key)).map Prod.fst

/-- The label sets of the calls, each once: a call needs a value for each label. -/
def observedKeys (labelnames : List Str) (calls : List (α × List Str)) : List LabelKey :=
  ((calls.map Prod.snd).filter (·.length = labelnames.length)).dedup

theorem mem_observedKeys {labelnames : List Str} {calls : List (α × List Str)} {key : LabelKey} :
    key ∈ observedKeys labelnames calls ↔
      valuesOf calls key ≠ [] ∧ key.length = labelnames.length := by
  have hvalues : valuesOf calls key ≠ [] ↔ key ∈ calls.map Prod.snd := by
    rw [Ne, valuesOf, List.map_eq_nil_iff, List.filter_eq_nil_iff]
    simp
  rw [hvalues, observedKeys, List.mem_dedup, List.mem_filter, decide_eq_true_iff]

theorem valuesOf_append_self (calls : List (α × List Str)) (value : α) (key : LabelKey) :
    valuesOf (calls ++ [(value, key)]) key = valuesOf calls key ++ [value] := by
  simp [valuesOf]

theorem valuesOf_append_ne (calls : List (α × List Str)) (value : α) {key key' : LabelKey}
    (h : key' ≠ key) : valuesOf (calls ++ [(value, key)]) key' = valuesOf calls key' := by
  simp [valuesOf, Ne.symm h]

theorem valuesOf_map {β : Type} (f : α → β) (calls : List (α × List Str)) (key : LabelKey) :
    valuesOf (calls.map fun call => (f call.1, call.2)) key = (valuesOf calls key).map f := by
  unfold valuesOf
  rw [List.filter_map, List.map_map, List.map_map]
  rfl

theorem observedKeys_map {β : Type} (f : α → β) (labelnames : List Str)
    (calls : List (α × List Str)) :
    observedKeys labelnames (calls.map fun call => (f call.1, call.2)) =
      observedKeys labelnames calls := by
  unfold observedKeys
  rw [List.map_map]
  rfl

end runs

variable {F : Type} [PyFloat F]

/-- A run of `observe` calls. A call that raises leaves the histogram as it was. -/
def observeAll (h : Histogram F) (calls : List (F × List Str)) : Histogram F :=
  calls.foldl (fun h call => (h.observe call.1 call.2).toOption.getD h) h

/-- How many values are at most `bound`. -/
def atMost (values : List F) (bound : F) : ℕ := values.countP (PyFloat.le · bound)

/-- `sum` of the values, in their order. -/
def sumOf (values : List F) : F := values.foldl PyFloat.add PyFloat.zero

/-- An entry of a table: there is none before the first value. -/
def entryOf {β : Type} (tally : List F → β) (values : List F) : Option β :=
  if values = [] then none else some (tally values)

omit [PyFloat F] in
theorem entryOf_append {β : Type} (tally : List F → β) (values : List F) (value : F) :
    entryOf tally (values ++ [value]) = some (tally (values ++ [value])) :=
  if_neg (by simp)

omit [PyFloat F] in
theorem entryOf_getD {β : Type} (tally : List F → β) (values : List F) {default : β}
    (h : tally [] = default) : (entryOf tally values).getD default = tally values := by
  unfold entryOf
  by_cases hvalues : values = []
  · rw [if_pos hvalues, hvalues, h]
    rfl
  · rw [if_neg hvalues]
    rfl

/-- The three tables hold the tallies of the calls. -/
structure Tallied (h : Histogram F) (calls : List (F × List Str)) : Prop where
  lengths : ∀ call ∈ calls, call.2.length = h.labelnames.length
  counts : ∀ key, h.counts.get? key =
    entryOf (fun values => h.bounds.map (atMost values)) (valuesOf calls key)
  sums : ∀ key, h.sums.get? key = entryOf sumOf (valuesOf calls key)
  totals : ∀ key, h.totals.get? key = entryOf List.length (valuesOf calls key)

theorem atMost_append (values : List F) (value bound : F) :
    atMost (values ++ [value]) bound =
      if PyFloat.le value bound = true then atMost values bound + 1 else atMost values bound := by
  unfold atMost
  rw [List.countP_append, List.countP_singleton]
  by_cases h : PyFloat.le value bound = true
  · rw [if_pos h, if_pos h]
  · rw [if_neg h, if_neg h, Nat.add_zero]

/-- The update of a row of counts. -/
theorem map_zip_atMost (bounds values : List F) (value : F) :
    ((bounds.zip (bounds.map (atMost values))).map fun (bound, count) =>
      if PyFloat.le value bound then count + 1 else count) =
      bounds.map (atMost (values ++ [value])) := by
  induction bounds with
  | nil => rfl
  | cons bound bounds ih =>
    rw [List.map_cons, List.zip_cons_cons, List.map_cons, ih, List.map_cons, atMost_append]

theorem Tallied.bucketCounts {h : Histogram F} {calls : List (F × List Str)}
    (ht : h.Tallied calls) (key : LabelKey) :
    h.bucketCounts key = h.bounds.map (atMost (valuesOf calls key)) := by
  have hempty : h.bounds.map (atMost []) = List.replicate h.bounds.length 0 :=
    List.map_const'
  unfold Histogram.bucketCounts
  rw [ht.counts key]
  exact entryOf_getD (fun values => h.bounds.map (atMost values)) _ hempty

/-- One observation keeps the tables the tallies of the calls. -/
theorem Tallied.add {h : Histogram F} {calls : List (F × List Str)} (ht : h.Tallied calls)
    (value : F) {key : LabelKey} (hkey : key.length = h.labelnames.length) :
    (h.add key value).Tallied (calls ++ [(value, key)]) := by
  -- the tables have no entry for a new key, and the defaults are the tallies of no call
  have hsum : (h.sums.get? key).getD PyFloat.zero = sumOf (valuesOf calls key) := by
    rw [ht.sums key]
    exact entryOf_getD sumOf _ rfl
  have htotal : (h.totals.get? key).getD 0 = (valuesOf calls key).length := by
    rw [ht.totals key]
    exact entryOf_getD List.length _ rfl
  constructor
  · intro call hcall
    rcases List.mem_append.mp hcall with hcall | hcall
    · exact ht.lengths call hcall
    · rw [List.mem_singleton.mp hcall]
      exact hkey
  · intro key'
    show (h.counts.set key _).get? key' = entryOf (fun values => h.bounds.map (atMost values)) _
    rw [Dict.get?_set, ht.bucketCounts, map_zip_atMost]
    by_cases heq : key' = key
    · rw [if_pos heq, heq, valuesOf_append_self, entryOf_append]
    · rw [if_neg heq, valuesOf_append_ne calls value heq]
      exact ht.counts key'
  · intro key'
    show (h.sums.set key _).get? key' = _
    rw [Dict.get?_set, hsum]
    by_cases heq : key' = key
    · rw [if_pos heq, heq, valuesOf_append_self, entryOf_append]
      simp [sumOf, List.foldl_append]
    · rw [if_neg heq, valuesOf_append_ne calls value heq]
      exact ht.sums key'
  · intro key'
    show (h.totals.set key _).get? key' = _
    rw [Dict.get?_set, htotal]
    by_cases heq : key' = key
    · rw [if_pos heq, heq, valuesOf_append_self, entryOf_append, List.length_append]
      rfl
    · rw [if_neg heq, valuesOf_append_ne calls value heq]
      exact ht.totals key'

/-- The calls that do not raise. -/
def accepted (labelnames : List Str) (calls : List (F × List Str)) : List (F × List Str) :=
  calls.filter (·.2.length = labelnames.length)

omit [PyFloat F] in
theorem valuesOf_accepted {labelnames : List Str} (calls : List (F × List Str)) {key : LabelKey}
    (h : key.length = labelnames.length) :
    valuesOf (accepted labelnames calls) key = valuesOf calls key := by
  unfold valuesOf accepted
  rw [List.filter_filter]
  congr 1
  apply List.filter_congr
  intro call _
  by_cases heq : call.2 = key
  · simp [heq, h]
  · simp [heq]

omit [PyFloat F] in
theorem observedKeys_accepted (labelnames : List Str) (calls : List (F × List Str)) :
    observedKeys labelnames (accepted labelnames calls) = observedKeys labelnames calls := by
  unfold observedKeys accepted
  rw [List.filter_map, List.filter_map, List.filter_filter]
  congr 2
  apply List.filter_congr
  intro call _
  by_cases h : call.2.length = labelnames.length
  · simp [h]
  · simp [h]

/-- **After a run the tables are the tallies** of the calls that were accepted. -/
theorem Tallied.observeAll {h : Histogram F} {before : List (F × List Str)}
    (ht : h.Tallied before) (calls : List (F × List Str)) :
    (h.observeAll calls).Tallied (before ++ accepted h.labelnames calls) ∧
      (h.observeAll calls).name = h.name ∧
      (h.observeAll calls).documentation = h.documentation ∧
      (h.observeAll calls).labelnames = h.labelnames ∧ (h.observeAll calls).bounds = h.bounds := by
  induction calls generalizing h before with
  | nil =>
    rw [accepted, List.filter_nil, List.append_nil]
    exact ⟨ht, rfl, rfl, rfl, rfl⟩
  | cons call calls ih =>
    obtain ⟨value, key⟩ := call
    by_cases hkey : key.length = h.labelnames.length
    · have hstep : (h.observe value key).toOption.getD h = h.add key value := by
        rw [Histogram.observe_eq hkey]
        rfl
      have hnext := ih (ht.add value hkey)
      rw [List.append_assoc] at hnext
      unfold Histogram.observeAll accepted at hnext ⊢
      rw [List.foldl_cons, hstep, List.filter_cons_of_pos (by simpa using hkey)]
      exact hnext
    · have hstep : (h.observe value key).toOption.getD h = h := by
        unfold Histogram.observe
        rw [checkLabels, if_pos hkey]
        rfl
      unfold Histogram.observeAll accepted at ih ⊢
      rw [List.foldl_cons, hstep, List.filter_cons_of_neg (by simpa using hkey)]
      exact ih ht

theorem tallied_new {name documentation : Str} {buckets : List F} {labelnames : List Str}
    {h : Histogram F} (hnew : Histogram.new name documentation buckets labelnames = .ok h) :
    h = ⟨name, documentation, labelnames, sortedBy PyFloat.lt buckets, .empty, .empty, .empty⟩ ∧
      h.Tallied [] := by
  obtain ⟨rfl, -⟩ := new_eq_ok hnew
  exact ⟨rfl, fun _ hcall => absurd hcall List.not_mem_nil, fun _ => rfl, fun _ => rfl, fun _ => rfl⟩

/-! ### Pages -/

section pages
variable [FloatFormat F]

/-- The lines of a label set, for the tallies of its values. -/
def talliedLines (h : Histogram F) (values : List F) (sum : F) (key : LabelKey) :
    Except PyException (List Str) := do
  let buckets ← h.bounds.mapM fun bound => do
    let le ← format bound
    let labels ← renderLabels h.labelnames key (some (str "le=\"" ++ le ++ str "\""))
    return h.name ++ str "_bucket" ++ labels ++ str " " ++ decimal (atMost values bound)
  let infLabels ← renderLabels h.labelnames key (some (str "le=\"+Inf\""))
  let base ← renderLabels h.labelnames key
  let sum ← format sum
  return buckets ++ [h.name ++ str "_bucket" ++ infLabels ++ str " " ++ decimal values.length,
    h.name ++ str "_sum" ++ base ++ str " " ++ sum,
    h.name ++ str "_count" ++ base ++ str " " ++ decimal values.length]

theorem zipStrict_map {α β : Type} (f : α → β) (l : List α) :
    zipStrict l (l.map f) = .ok (l.map fun a => (a, f a)) := by
  rw [zipStrict, if_pos (List.length_map f).symm]
  congr 1
  induction l with
  | nil => rfl
  | cons a l ih => rw [List.map_cons, List.zip_cons_cons, ih, List.map_cons]

/-- The lines of a label set are its tallies. -/
theorem Tallied.keyLines {h : Histogram F} {calls : List (F × List Str)} (ht : h.Tallied calls)
    {key : LabelKey} (hkey : valuesOf calls key ≠ []) :
    h.keyLines key = h.talliedLines (valuesOf calls key) (sumOf (valuesOf calls key)) key := by
  have hcounts := ht.counts key
  have hsums := ht.sums key
  have htotals := ht.totals key
  rw [entryOf, if_neg hkey] at hcounts hsums htotals
  have hok : ∀ {α β : Type} (a : α) (f : α → Except PyException β), (Except.ok a >>= f) = f a :=
    fun _ _ => rfl
  unfold Histogram.keyLines talliedLines
  rw [hcounts, hsums, htotals]
  simp only [orRaise, hok, zipStrict_map, List.mapM_map]
  rfl

omit [FloatFormat F] in
/-- The label sets a histogram has lines for. -/
theorem Tallied.keys {h : Histogram F} {calls : List (F × List Str)} (ht : h.Tallied calls) :
    sortedOn id (h.counts.entries.map Prod.fst) = sortedOn id (observedKeys h.labelnames calls) := by
  apply sortedOn_eq_of_perm
  · apply (List.perm_ext_iff_of_nodup h.counts.nodup (List.nodup_dedup _)).mpr
    intro key
    have hmem : key ∈ h.counts.entries.map Prod.fst ↔ ∃ counts, h.counts.get? key = some counts := by
      simp [Dict.get?_eq_some]
    have hlength : valuesOf calls key ≠ [] → key.length = h.labelnames.length := by
      intro hvalues
      obtain ⟨value, hvalue⟩ := List.exists_mem_of_ne_nil _ hvalues
      obtain ⟨call, hcall, -⟩ := List.mem_map.mp hvalue
      obtain ⟨hcall, hkey⟩ := List.mem_filter.mp hcall
      rw [← of_decide_eq_true hkey]
      exact ht.lengths call hcall
    rw [hmem, ht.counts key]
    show _ ↔ key ∈ observedKeys h.labelnames calls
    rw [mem_observedKeys, entryOf]
    by_cases hvalues : valuesOf calls key = []
    · simp [hvalues]
    · simp [hvalues, hlength hvalues]
  · rw [List.map_id]
    exact h.counts.nodup

/-- **The page of a histogram after a run**: the label sets that were observed, in order, and
    for each of them the tallies of its own values. -/
theorem Tallied.renderLines {h : Histogram F} {calls : List (F × List Str)} (ht : h.Tallied calls) :
    h.renderLines = (do
      let lines ← (sortedOn id (observedKeys h.labelnames calls)).mapM fun key =>
        h.talliedLines (valuesOf calls key) (sumOf (valuesOf calls key)) key
      return [str "# HELP " ++ h.name ++ str " " ++ h.documentation,
        str "# TYPE " ++ h.name ++ str " histogram"] ++ lines.flatten) := by
  have hturns : (sortedOn id (observedKeys h.labelnames calls)).mapM h.keyLines =
      (sortedOn id (observedKeys h.labelnames calls)).mapM fun key =>
        h.talliedLines (valuesOf calls key) (sumOf (valuesOf calls key)) key := by
    apply mapM_congr
    intro key hkey
    exact ht.keyLines (mem_observedKeys.mp (mem_sortedOn.mp hkey)).1
  unfold Histogram.renderLines
  rw [ht.keys]
  dsimp only
  rw [hturns]

end pages

/-! ### Exact arithmetic -/

/-- Calls with rational values. -/
def exactCalls (calls : List (ℚ × List Str)) : List (ExactFloat × List Str) :=
  calls.map fun call => (.fin call.1, call.2)

theorem atMost_fin (values : List ℚ) (bound : ℚ) :
    atMost (values.map ExactFloat.fin) (.fin bound) = values.countP (· ≤ bound) := by
  unfold atMost
  rw [List.countP_map]
  congr 1
  funext value
  exact ExactFloat.le_fin value bound

theorem sumOf_fin (values : List ℚ) : sumOf (values.map ExactFloat.fin) = .fin values.sum := by
  have hfold : ∀ (values : List ℚ) (start : ℚ),
      (values.map ExactFloat.fin).foldl PyFloat.add (.fin start) = .fin (start + values.sum) := by
    intro values
    induction values with
    | nil =>
      intro start
      rw [List.sum_nil, add_zero]
      rfl
    | cons value values ih =>
      intro start
      rw [List.map_cons, List.foldl_cons, ExactFloat.add_fin, ih, List.sum_cons, add_assoc]
  unfold sumOf
  rw [ExactFloat.zero_def, hfold, zero_add]

/-- A larger bound has at least the values of a smaller one. -/
theorem atMost_mono [LawfulPyFloat F] (values : List F) {a b : F} (h : PyFloat.le a b = true) :
    atMost values a ≤ atMost values b := by
  apply List.countP_mono_left
  intro value _ hvalue
  exact LawfulPyFloat.le_trans hvalue h

/-- The counts of a row do not decrease. -/
theorem pairwise_atMost [LawfulPyFloat F] {buckets : List F}
    (hfinite : ∀ b ∈ buckets, PyFloat.isFinite b = true) (values : List F) :
    ((sortedBy PyFloat.lt buckets).map (atMost values)).Pairwise (· ≤ ·) := by
  apply List.pairwise_map.mpr
  apply (pairwise_sortedBy (PyFloat.orderedOn_lt hfinite)).imp_of_mem
  intro a b ha hb hlt
  have ha := hfinite a (mem_sortedBy.mp ha)
  have hb := hfinite b (mem_sortedBy.mp hb)
  exact atMost_mono values (PyFloat.le_of_lt_false hb ha hlt)

/-- A run of finite observations keeps a histogram sound. -/
theorem Sound.observeAll {h : Histogram ExactFloat} (hsound : h.Sound)
    (calls : List (ℚ × List Str)) : (h.observeAll (exactCalls calls)).Sound := by
  induction calls generalizing h with
  | nil => exact hsound
  | cons call calls ih =>
    have hstep : ((h.observe (.fin call.1) call.2).toOption.getD h).Sound := by
      by_cases hkey : call.2.length = h.labelnames.length
      · rw [observe_eq hkey]
        apply hsound.add hkey
        intro s hs
        obtain ⟨q, rfl⟩ := ExactFloat.isFinite_iff.mp hs
        rfl
      · unfold Histogram.observe
        rw [checkLabels, if_pos hkey]
        exact hsound
    exact ih hstep

/-- **A page reports the observations**: for every list of bounds and every run of
    observations the page has, for each label set that was observed, how many of its values
    are at most each bound, their number and their exact sum; a row of counts does not
    decrease and ends at the number of values. -/
theorem rendered_is_tallied {name documentation : Str} {buckets : List ExactFloat}
    {labelnames : List Str} {h : Histogram ExactFloat}
    (hnew : Histogram.new name documentation buckets labelnames = .ok h)
    (calls : List (ℚ × List Str)) :
    ((h.observeAll (exactCalls calls)).renderLines = do
      let lines ← (sortedOn id (observedKeys labelnames calls)).mapM fun key =>
        h.talliedLines ((valuesOf calls key).map .fin) (.fin (valuesOf calls key).sum) key
      return [str "# HELP " ++ name ++ str " " ++ documentation,
        str "# TYPE " ++ name ++ str " histogram"] ++ lines.flatten) ∧
    h.name = name ∧ h.labelnames = labelnames ∧ h.bounds = sortedBy PyFloat.lt buckets ∧
    (∀ (values : List ℚ) (bound : ℚ),
      atMost (values.map ExactFloat.fin) (.fin bound) = values.countP (· ≤ bound)) ∧
    (∀ (values : List ExactFloat) (bound : ExactFloat), atMost values bound ≤ values.length) ∧
    ((∀ b ∈ buckets, PyFloat.isFinite b = true) →
      (∃ lines, (h.observeAll (exactCalls calls)).renderLines = .ok lines) ∧
      ∀ values, (h.bounds.map (atMost values)).Pairwise (· ≤ ·)) := by
  obtain ⟨hh, htallied⟩ := tallied_new hnew
  have hname : h.name = name := by rw [hh]
  have hdocumentation : h.documentation = documentation := by rw [hh]
  have hlabels : h.labelnames = labelnames := by rw [hh]
  have hbounds : h.bounds = sortedBy PyFloat.lt buckets := by rw [hh]
  refine ⟨?_, hname, hlabels, hbounds, atMost_fin, fun _ _ => List.countP_le_length, ?_⟩
  · obtain ⟨hafter, hname', hdocumentation', hlabels', hbounds'⟩ :=
      htallied.observeAll (exactCalls calls)
    rw [hafter.renderLines, hname', hdocumentation', hlabels', hname, hdocumentation]
    -- calls that raise leave nothing, so the keys are those of the calls with all labels
    have hkeys : observedKeys h.labelnames ([] ++ accepted h.labelnames (exactCalls calls)) =
        observedKeys labelnames calls := by
      rw [hlabels, List.nil_append]
      exact (observedKeys_accepted labelnames (exactCalls calls)).trans
        (observedKeys_map ExactFloat.fin labelnames calls)
    rw [hkeys]
    have hturns : ∀ key ∈ sortedOn id (observedKeys labelnames calls),
        (h.observeAll (exactCalls calls)).talliedLines
          (valuesOf ([] ++ accepted h.labelnames (exactCalls calls)) key)
          (sumOf (valuesOf ([] ++ accepted h.labelnames (exactCalls calls)) key)) key =
        h.talliedLines ((valuesOf calls key).map .fin) (.fin (valuesOf calls key).sum) key := by
      intro key hkey
      have hlength := (mem_observedKeys.mp (mem_sortedOn.mp hkey)).2
      have hvalues : valuesOf ([] ++ accepted h.labelnames (exactCalls calls)) key =
          (valuesOf calls key).map ExactFloat.fin := by
        rw [List.nil_append, hlabels, valuesOf_accepted _ hlength]
        exact valuesOf_map ExactFloat.fin calls key
      rw [hvalues, sumOf_fin]
      unfold talliedLines
      rw [hname', hlabels', hbounds']
    rw [mapM_congr hturns]
  · intro hfinite
    -- finite bounds: `_format` has nothing to refuse
    have hsound : h.Sound := by
      rw [hh]
      exact ⟨fun b hb => hfinite b (mem_sortedBy.mp hb), fun _ _ hv => (nomatch hv),
        fun _ _ hv => (nomatch hv)⟩
    refine ⟨(hsound.observeAll calls).exists_renderLines, ?_⟩
    intro values
    rw [hbounds]
    exact pairwise_atMost hfinite values

/-- Two label sets, bounds out of order and twice, and a call with a missing label. -/
theorem rendered_is_tallied_demo : ∃ h : Histogram ExactFloat,
    Histogram.new (str "h") (str "d") [.fin 5, .fin 1, .fin 1] [str "stage"] = .ok h ∧
    (∃ lines, (h.observeAll (exactCalls [(3, [str "a"]), (1, [str "a"]), (7, [str "b"]),
      (2, [])])).renderLines = .ok lines) ∧
    h.bounds.map (atMost (([3, 1] : List ℚ).map ExactFloat.fin)) = [1, 1, 2] := by
  have hname : validateName (str "h") = .ok (str "h") := by decide
  have hbounds : sortedBy PyFloat.lt [.fin 5, .fin 1, .fin 1] =
      ([.fin 1, .fin 1, .fin 5] : List ExactFloat) := by decide +kernel
  have hnew : Histogram.new (str "h") (str "d") [.fin 5, .fin 1, .fin 1] [str "stage"] =
      .ok (⟨str "h", str "d", [str "stage"], [.fin 1, .fin 1, .fin 5], .empty, .empty, .empty⟩ :
        Histogram ExactFloat) := by
    unfold Histogram.new
    rw [hname, hbounds]
    rfl
  have hpage := rendered_is_tallied hnew
    [(3, [str "a"]), (1, [str "a"]), (7, [str "b"]), (2, [])]
  exact ⟨_, hnew, (hpage.2.2.2.2.2.2 (by decide)).1, by decide +kernel⟩

end Histogram

end IncidentEvidence
