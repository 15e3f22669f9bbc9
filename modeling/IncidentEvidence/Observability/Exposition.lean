import IncidentEvidence.Observability.Samples

/-! # The metrics page

    A page lists the families of a registry in the order of their names: a HELP line, a
    TYPE line and the samples. What the code writes line by line is here a list of
    samples written out (`MetricsRegistry.Sound.render_eq`), so that facts about pages
    become facts about samples. -/

namespace IncidentEvidence

open Py Observability

namespace Observability

section numbers
variable {F : Type} [PyFloat F] [FloatFormat F]

/-- The text of a finite number. -/
def formatText (x : F) : Str :=
  match format x with
  | .ok text => text
  | .error _ => []

variable [LawfulFloatFormat F]

theorem format_eq {x : F} (h : PyFloat.isFinite x = true) : format x = .ok (formatText x) := by
  obtain ⟨text, htext⟩ := exists_format h
  rw [formatText, htext]

theorem formatText_number [PlainFloatFormat F] {x : F} (h : PyFloat.isFinite x = true) :
    ∀ c ∈ formatText x, isNumberChar c = true := by
  have hformat := format_eq h
  unfold format at hformat
  rw [bind_eq_ok] at hformat
  obtain ⟨i, -, hreturn⟩ := hformat
  rw [← Except.ok.inj hreturn]
  by_cases hi : FloatFormat.eqInt x i = true
  · rw [if_pos hi]
    exact isNumberChar_decimalInt i
  · rw [if_neg hi]
    exact PlainFloatFormat.plain x h

end numbers

/-! ### Label sets -/

/-- Label names that label sets can be told apart by. -/
structure ClearLabels (labelnames : List Str) : Prop where
  nodup : labelnames.Nodup
  names : ∀ name ∈ labelnames, isLabelName name = true

/-- Distinct names tell label values apart, also as a set of pairs. -/
theorem zip_toFinset_inj {names : List Str} (hnodup : names.Nodup) {k k' : LabelKey}
    (hk : k.length = names.length) (hk' : k'.length = names.length)
    (h : (names.zip k).toFinset = (names.zip k').toFinset) : k = k' := by
  induction names generalizing k k' with
  | nil => rw [List.length_eq_zero_iff.mp hk, List.length_eq_zero_iff.mp hk']
  | cons name names ih =>
    obtain ⟨value, k, rfl⟩ := List.exists_cons_of_length_eq_add_one hk
    obtain ⟨value', k', rfl⟩ := List.exists_cons_of_length_eq_add_one hk'
    obtain ⟨hfresh, hnodup⟩ := List.nodup_cons.mp hnodup
    have hmem : ∀ p, p ∈ (name, value) :: names.zip k ↔ p ∈ (name, value') :: names.zip k' := by
      intro p
      rw [← List.mem_toFinset, ← List.mem_toFinset]
      exact Finset.ext_iff.mp h p
    have hname : ∀ {p : Str × Str} {l : LabelKey}, p ∈ names.zip l → p.1 ≠ name := by
      intro p l hp heq
      exact hfresh (heq ▸ (List.of_mem_zip hp).1)
    have hvalue : value = value' := by
      rcases List.mem_cons.mp ((hmem (name, value)).mp List.mem_cons_self) with heq | hp
      · exact congrArg Prod.snd heq
      · exact absurd rfl (hname hp)
    subst hvalue
    have htail : (names.zip k).toFinset = (names.zip k').toFinset := by
      ext p
      rw [List.mem_toFinset, List.mem_toFinset]
      constructor
      · intro hp
        rcases List.mem_cons.mp ((hmem p).mp (List.mem_cons_of_mem _ hp)) with heq | hp'
        · exact absurd (congrArg Prod.fst heq) (hname hp)
        · exact hp'
      · intro hp
        rcases List.mem_cons.mp ((hmem p).mpr (List.mem_cons_of_mem _ hp)) with heq | hp'
        · exact absurd (congrArg Prod.fst heq) (hname hp)
        · exact hp'
    rw [ih hnodup (Nat.succ.inj hk) (Nat.succ.inj hk') htail]

/-- The names of a label set. -/
theorem image_zip_toFinset {names : List Str} {k : LabelKey} (hk : k.length = names.length) :
    (names.zip k).toFinset.image Prod.fst = names.toFinset := by
  have hfst : (names.zip k).map Prod.fst = names := List.map_fst_zip (by omega)
  ext name
  rw [Finset.mem_image, List.mem_toFinset]
  constructor
  · intro h
    obtain ⟨p, hp, rfl⟩ := h
    exact (List.of_mem_zip (List.mem_toFinset.mp hp)).1
  · intro h
    rw [← hfst] at h
    obtain ⟨p, hp, hname⟩ := List.mem_map.mp h
    exact ⟨p, List.mem_toFinset.mpr hp, hname⟩

/-- `_render_labels`. -/
theorem renderLabels_eq {labelnames : List Str} {k : LabelKey}
    (h : k.length = labelnames.length) :
    renderLabels labelnames k none = .ok (labelText (labelnames.zip k)) := by
  unfold renderLabels labelText zipStrict
  rw [if_pos h.symm]
  by_cases hpairs : labelnames.zip k = []
  · rw [hpairs]
    rfl
  · show Except.ok (if ((labelnames.zip k).map pairText) ++ [] = [] then _ else _) = _
    rw [List.append_nil, if_neg hpairs, if_neg (by simpa using hpairs)]
    show Except.ok (str "\x7b" ++ joinComma ((labelnames.zip k).map pairText ++ []) ++ str "\x7d") = _
    rw [List.append_nil]

theorem renderLabels_extra {labelnames : List Str} {k : LabelKey} {le : Str}
    (h : k.length = labelnames.length) (hle : escapeLabelValue le = le) :
    renderLabels labelnames k (some (str "le=\"" ++ le ++ str "\"")) =
      .ok (labelText (labelnames.zip k ++ [(str "le", le)])) := by
  have hpair : str "le=\"" ++ le ++ str "\"" = pairText (str "le", le) := by
    unfold pairText
    rw [hle]
    rfl
  unfold renderLabels labelText zipStrict
  rw [if_pos h.symm, hpair]
  show Except.ok (if ((labelnames.zip k).map pairText) ++ [_] = [] then _ else _) = _
  rw [if_neg (by simp), if_neg (by simp), List.map_append]
  rfl

/-! ### Families -/

/-- A metric on the page. -/
structure Family where
  name : Str
  documentation : Str
  kind : Str
  samples : List Sample

/-- The lines of a family. -/
def Family.lines (f : Family) : List Str :=
  [str "# HELP " ++ f.name ++ str " " ++ f.documentation,
    str "# TYPE " ++ f.name ++ str " " ++ f.kind] ++ f.samples.map Sample.line

end Observability

section families
variable {F : Type} [PyFloat F] [FloatFormat F]

/-- The samples of a counter. -/
def Counter.samples (c : Counter F) : List Sample :=
  c.items.map fun (key, value) => ⟨c.name, c.labelnames.zip key, formatText value⟩

def Counter.family (c : Counter F) : Family := ⟨c.name, c.documentation, str "counter", c.samples⟩

/-- The samples of a label set: a bucket for each bound and one for all, the sum and the
    number of observations. -/
def Histogram.keySamples (h : Histogram F) (key : LabelKey) : List Sample :=
  let labels := h.labelnames.zip key
  let total := (h.totals.get? key).getD 0
  ((h.bounds.zip ((h.counts.get? key).getD [])).map fun (bound, count) =>
    ⟨h.name ++ str "_bucket", labels ++ [(str "le", formatText bound)], decimal count⟩) ++
  [⟨h.name ++ str "_bucket", labels ++ [(str "le", str "+Inf")], decimal total⟩,
    ⟨h.name ++ str "_sum", labels, formatText ((h.sums.get? key).getD PyFloat.zero)⟩,
    ⟨h.name ++ str "_count", labels, decimal total⟩]

/-- The label sets of a histogram, in the order of the page. -/
def Histogram.keys (h : Histogram F) : List LabelKey := sortedOn id (h.counts.entries.map Prod.fst)

def Histogram.samples (h : Histogram F) : List Sample := h.keys.flatMap h.keySamples

def Histogram.family (h : Histogram F) : Family :=
  ⟨h.name, h.documentation, str "histogram", h.samples⟩

namespace MetricsRegistry

/-- The families in the order of the page. -/
def families (r : MetricsRegistry F) : List Family :=
  sortedOn Family.name
    (r.counters.values.map Counter.family ++ r.histograms.values.map Histogram.family)

/-- Every sample of a page. -/
def samples (r : MetricsRegistry F) : List Sample := r.families.flatMap Family.samples

/-- The names of the families. -/
def familyNames (r : MetricsRegistry F) : List Str := r.families.map Family.name

end MetricsRegistry

variable [LawfulFloatFormat F]

omit [FloatFormat F] [LawfulFloatFormat F] in
theorem Counter.items_sound [CountingPyFloat F] {c : Counter F} (h : c.Sound)
    {item : LabelKey × F} (hitem : item ∈ c.items) :
    item.1.length = c.labelnames.length ∧ PyFloat.isFinite item.2 = true := by
  unfold Counter.items at hitem
  dsimp only at hitem
  split at hitem
  · next hempty =>
    rw [List.mem_singleton.mp hitem, hempty.2]
    exact ⟨rfl, CountingPyFloat.finite_literal (by decide)⟩
  · exact h item.1 item.2 (Dict.get?_eq_some.mpr (mem_sortedOn.mp hitem))

theorem Counter.Sound.renderLines_eq [CountingPyFloat F] {c : Counter F} (h : c.Sound) :
    c.renderLines = .ok c.family.lines := by
  have hturns : ∀ item ∈ c.items, (do
      let labels ← renderLabels c.labelnames item.1
      let value ← format item.2
      return c.name ++ labels ++ str " " ++ value) =
      Except.ok (Sample.line ⟨c.name, c.labelnames.zip item.1, formatText item.2⟩) := by
    intro item hitem
    obtain ⟨hlength, hfinite⟩ := c.items_sound h hitem
    rw [renderLabels_eq hlength, format_eq hfinite]
    rfl
  unfold Counter.renderLines
  rw [mapM_eq_map hturns]
  show Except.ok _ = Except.ok _
  congr 1
  unfold Family.lines Counter.family Counter.samples
  rw [List.map_map]
  have htype : ∀ s : Str, s ++ str " counter" = s ++ str " " ++ str "counter" := by
    intro s
    rw [List.append_assoc]
    rfl
  rw [htype]
  rfl

omit [FloatFormat F] [LawfulFloatFormat F] in
/-- The entries of a label set in the three tables. -/
theorem Histogram.Sound.tables {h : Histogram F} (hsound : h.Sound) {key : LabelKey}
    (hkey : key ∈ h.keys) : ∃ counts sum total, h.counts.get? key = some counts ∧
      h.sums.get? key = some sum ∧ h.totals.get? key = some total ∧
      key.length = h.labelnames.length ∧ counts.length = h.bounds.length ∧
      PyFloat.isFinite sum = true := by
  obtain ⟨⟨key', counts⟩, hmem, rfl⟩ := List.mem_map.mp (mem_sortedOn.mp hkey)
  have hcounts := Dict.get?_eq_some.mpr hmem
  obtain ⟨hlength, hrow, ⟨sum, hsum⟩, total, htotal⟩ := hsound.counts _ _ hcounts
  exact ⟨counts, sum, total, hcounts, hsum, htotal, hlength, hrow, hsound.sums _ _ hsum⟩

theorem Histogram.Sound.keyLines_eq [PlainFloatFormat F] {h : Histogram F} (hsound : h.Sound)
    {key : LabelKey} (hkey : key ∈ h.keys) :
    h.keyLines key = .ok ((h.keySamples key).map Sample.line) := by
  obtain ⟨counts, sum, total, hcounts, hsum, htotal, hlength, hrow, hfinite⟩ := hsound.tables hkey
  have hbuckets : ∀ bucket ∈ h.bounds.zip counts, (do
      let le ← format bucket.1
      let labels ← renderLabels h.labelnames key (some (str "le=\"" ++ le ++ str "\""))
      return h.name ++ str "_bucket" ++ labels ++ str " " ++ decimal bucket.2) =
      Except.ok (Sample.line ⟨h.name ++ str "_bucket",
        h.labelnames.zip key ++ [(str "le", formatText bucket.1)], decimal bucket.2⟩) := by
    intro bucket hbucket
    have hbound := hsound.bounds bucket.1 (List.of_mem_zip hbucket).1
    rw [format_eq hbound]
    show (do
      let labels ← renderLabels h.labelnames key
        (some (str "le=\"" ++ formatText bucket.1 ++ str "\""))
      return h.name ++ str "_bucket" ++ labels ++ str " " ++ decimal bucket.2) = _
    rw [renderLabels_extra hlength (escapeLabelValue_number (formatText_number hbound))]
    rfl
  have hinf : renderLabels h.labelnames key (some (str "le=\"+Inf\"")) =
      .ok (labelText (h.labelnames.zip key ++ [(str "le", str "+Inf")])) :=
    renderLabels_extra hlength (by decide : escapeLabelValue (str "+Inf") = str "+Inf")
  have hok : ∀ {α β : Type} (a : α) (f : α → Except PyException β), (Except.ok a >>= f) = f a :=
    fun _ _ => rfl
  unfold Histogram.keyLines
  rw [hcounts, hsum, htotal]
  simp only [orRaise, hok]
  rw [zipStrict, if_pos hrow.symm, hok, mapM_eq_map hbuckets, hok, hinf, hok,
    renderLabels_eq hlength, hok, format_eq hfinite, hok]
  show Except.ok _ = Except.ok _
  congr 1
  unfold Histogram.keySamples
  rw [hcounts, hsum, htotal]
  simp only [Option.getD_some, List.map_append, List.map_map]
  rfl

theorem Histogram.Sound.renderLines_eq [PlainFloatFormat F] {h : Histogram F} (hsound : h.Sound) :
    h.renderLines = .ok h.family.lines := by
  have hturns : ∀ key ∈ h.keys, h.keyLines key = .ok ((h.keySamples key).map Sample.line) :=
    fun key hkey => hsound.keyLines_eq hkey
  unfold Histogram.renderLines
  show (do
    let lines ← h.keys.mapM h.keyLines
    _) = _
  rw [mapM_eq_map hturns]
  show Except.ok _ = Except.ok _
  congr 1
  unfold Family.lines Histogram.family Histogram.samples
  have htype : ∀ s : Str, s ++ str " histogram" = s ++ str " " ++ str "histogram" := by
    intro s
    rw [List.append_assoc]
    rfl
  rw [htype, List.map_flatMap]
  rfl

/-- **A sound registry is rendered family by family.** -/
theorem MetricsRegistry.Sound.render_eq [CountingPyFloat F] [PlainFloatFormat F]
    {r : MetricsRegistry F} (h : r.Sound) :
    r.render = .ok ((r.families.flatMap Family.lines).flatMap fun line => line ++ str "\n") := by
  have hmetrics : r.metrics =
      (r.counters.values.map Counter.family ++ r.histograms.values.map Histogram.family).map
        fun f => (f.name, Except.ok f.lines) := by
    unfold MetricsRegistry.metrics
    rw [List.map_append, List.map_map, List.map_map]
    congr 1
    · apply List.map_congr_left
      intro c hc
      obtain ⟨name, hname⟩ := Dict.mem_values.mp hc
      rw [(h.counters name c hname).renderLines_eq]
      rfl
    · apply List.map_congr_left
      intro x hx
      obtain ⟨name, hname⟩ := Dict.mem_values.mp hx
      rw [(h.histograms name x hname).renderLines_eq]
      rfl
  let entry : Family → Str × Except PyException (List Str) := fun f => (f.name, .ok f.lines)
  have hsorted : sortedOn Prod.fst r.metrics = r.families.map entry := by
    rw [hmetrics]
    exact (map_sortedBy entry _ fun _ _ _ _ => rfl).symm
  have hlines : r.families.mapM (Prod.snd ∘ entry) = .ok (r.families.map Family.lines) :=
    mapM_eq_map fun f _ => rfl
  unfold MetricsRegistry.render
  rw [hsorted, List.mapM_map, hlines]
  rfl

end families

end IncidentEvidence
