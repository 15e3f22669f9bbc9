import IncidentEvidence.Observability.Exposition

/-! # Unambiguous pages

    Counters and histograms live in two tables, and a histogram derives sample names and
    a label of its own, so that two metrics can collide. `MetricsRegistry.Clear` says when
    they do not: then a page is unambiguous (`Clear.unambiguous`). Fair calls keep a
    registry clear, whatever the label values are (`run_unambiguous`). -/

namespace IncidentEvidence

open Py Observability

namespace Observability

/-- The start of a TYPE line of the family. -/
def isTypeLine (name line : Str) : Bool := (str "# TYPE " ++ name ++ str " ").isPrefixOf line

def isSampleLine (line : Str) : Bool := !(str "#").isPrefixOf line

/-- What tells a sample from another. -/
def Sample.identity (s : Sample) : Str × Finset (Str × Str) := (s.name, s.labelSet)

/-- A page of these families and samples is read in one way. -/
structure Unambiguous (text : Str) (names : List Str) (samples : List Sample) : Prop where
  /-- Every family has one TYPE line. -/
  typed : ∀ name ∈ names, ((textLines text).filter (isTypeLine name)).length = 1
  /-- Every sample has its line. -/
  lines : (textLines text).filter isSampleLine = samples.map Sample.line
  /-- No two samples have the same name and labels. -/
  distinct : (samples.map Sample.identity).Nodup
  /-- A line is a line of no other sample. -/
  readable : ∀ s ∈ samples, ∀ t : Sample, t.Readable → t.line = s.line →
    t.name = s.name ∧ t.labels = s.labels

end Observability

/-! ### Metrics that do not collide -/

section clear
variable {F : Type} [PyFloat F] [FloatFormat F]

structure Counter.Clear (c : Counter F) : Prop where
  name : ∀ ch ∈ c.name, isNameChar ch = true
  documentation : .scalar '\n' ∉ c.documentation
  labels : ClearLabels c.labelnames
  sound : c.Sound

structure Histogram.Clear (h : Histogram F) : Prop where
  name : ∀ ch ∈ h.name, isNameChar ch = true
  documentation : .scalar '\n' ∉ h.documentation
  labels : ClearLabels h.labelnames
  /-- The label of the buckets is none of the others. -/
  le : str "le" ∉ h.labelnames
  /-- The bounds can be told apart on the page. -/
  bounds : (h.bounds.map formatText).Nodup
  sound : h.Sound

/-- A counter is not written like a sample that a histogram derives. -/
structure Apart (counter : Str) (counterLabels : List Str) (histogram : Str)
    (histogramLabels : List Str) : Prop where
  name : counter ≠ histogram
  sum : counter = histogram ++ str "_sum" → counterLabels.toFinset ≠ histogramLabels.toFinset
  count : counter = histogram ++ str "_count" → counterLabels.toFinset ≠ histogramLabels.toFinset
  bucket : counter = histogram ++ str "_bucket" →
    counterLabels.toFinset ≠ insert (str "le") histogramLabels.toFinset

structure MetricsRegistry.Clear (r : MetricsRegistry F) : Prop where
  counters : ∀ name c, r.counters.get? name = some c → c.name = name ∧ c.Clear
  histograms : ∀ name h, r.histograms.get? name = some h → h.name = name ∧ h.Clear
  apart : ∀ name c name' h, r.counters.get? name = some c → r.histograms.get? name' = some h →
    Apart c.name c.labelnames h.name h.labelnames

end clear

/-! ### Lines of families -/

namespace Observability

theorem newline_not_name {s : Str} (h : ∀ c ∈ s, isNameChar c = true) : .scalar '\n' ∉ s := by
  intro hmem
  exact absurd (h _ hmem) (by decide)

theorem newline_not_number {s : Str} (h : ∀ c ∈ s, isNumberChar c = true) : .scalar '\n' ∉ s := by
  intro hmem
  exact absurd (h _ hmem) (by decide)

theorem newline_not_labelText {labels : List (Str × Str)}
    (h : ∀ pair ∈ labels, isLabelName pair.1 = true) : .scalar '\n' ∉ labelText labels := by
  have hpair : ∀ pair ∈ labels, .scalar '\n' ∉ pairText pair := by
    intro pair hmem hnewline
    simp only [pairText, List.mem_append] at hnewline
    rcases hnewline with ((hname | hsign) | hvalue) | hquote
    · exact newline_not_name (isNameChar_of_isLabelName (h pair hmem)) hname
    · exact absurd hsign (by decide)
    · exact newline_not_mem_escapeLabelValue pair.2 hvalue
    · exact absurd hquote (by decide)
  unfold labelText
  by_cases hlabels : labels = []
  · rw [if_pos hlabels]
    exact List.not_mem_nil
  · rw [if_neg hlabels]
    intro hnewline
    rcases List.mem_append.mp hnewline with hnewline | hbrace
    · rcases List.mem_append.mp hnewline with hbrace | hnewline
      · exact absurd hbrace (by decide)
      · cases labels with
        | nil => exact hlabels rfl
        | cons pair labels =>
          obtain ⟨hhead, hrest⟩ := List.forall_mem_cons.mp hpair
          rw [List.map_cons, joinComma, List.mem_append, List.mem_flatMap] at hnewline
          rcases hnewline with hnewline | ⟨text, htext, hnewline⟩
          · exact hhead hnewline
          · obtain ⟨pair', hpair', rfl⟩ := List.mem_map.mp htext
            rcases List.mem_cons.mp hnewline with hcomma | hnewline
            · exact absurd hcomma (by decide)
            · exact hrest pair' hpair' hnewline
    · exact absurd hbrace (by decide)

/-- A sample with readable names and a number without a line end. -/
structure Sample.Plain (s : Sample) : Prop extends s.Readable where
  value : .scalar '\n' ∉ s.value

theorem Sample.Plain.newline_not_line {s : Sample} (h : s.Plain) : .scalar '\n' ∉ s.line := by
  intro hmem
  simp only [Sample.line, List.mem_append] at hmem
  rcases hmem with ((hname | hlabels) | hspace) | hvalue
  · exact newline_not_name h.name hname
  · exact newline_not_labelText h.labels hlabels
  · exact absurd hspace (by decide)
  · exact h.value hvalue

/-- The first character of a line is of the name, a brace or the space, and no `#`. -/
theorem Sample.Readable.isSampleLine {s : Sample} (h : s.Readable) :
    isSampleLine s.line = true := by
  have hhead : ∀ c rest, s.line = c :: rest → c ≠ .scalar '#' := by
    intro c rest hline
    unfold Sample.line at hline
    cases hname : s.name with
    | cons d name =>
      rw [hname] at hline
      obtain ⟨rfl, -⟩ := List.cons.inj hline
      have hd := h.name d (by rw [hname]; exact List.mem_cons_self)
      rintro rfl
      exact absurd hd (by decide)
    | nil =>
      rw [hname, labelText] at hline
      by_cases hlabels : s.labels = []
      · rw [if_pos hlabels] at hline
        rw [← (List.cons.inj hline).1]
        decide
      · rw [if_neg hlabels] at hline
        rw [← (List.cons.inj hline).1]
        decide
  unfold Observability.isSampleLine
  cases hline : s.line with
  | nil => rfl
  | cons c rest =>
    have hne := hhead c rest hline
    have hstarts : (str "#").isPrefixOf (c :: rest) = false := by
      show ((CodePoint.scalar '#' == c) && List.isPrefixOf [] rest) = false
      rw [beq_eq_false_iff_ne.mpr (Ne.symm hne)]
      rfl
    rw [hstarts]
    rfl

/-- A TYPE line names one family. -/
theorem isTypeLine_typeLine {name name' kind : Str} (hname : ∀ c ∈ name, isNameChar c = true)
    (hname' : ∀ c ∈ name', isNameChar c = true) :
    isTypeLine name (str "# TYPE " ++ name' ++ str " " ++ kind) = decide (name' = name) := by
  have hspace : ∀ (t : Str) (c : CodePoint), (str " " ++ t).head? = some c →
      isNameChar c = false := by
    intro t c hc
    rw [← Option.some.inj hc]
    decide
  unfold isTypeLine
  by_cases heq : name' = name
  · rw [heq, decide_eq_true rfl, List.isPrefixOf_iff_prefix]
    exact List.prefix_append _ _
  · rw [decide_eq_false heq]
    by_contra hstarts
    rw [Bool.not_eq_false, List.isPrefixOf_iff_prefix] at hstarts
    obtain ⟨rest, hrest⟩ := hstarts
    simp only [List.append_assoc] at hrest
    exact heq (run_append_inj hname hname' (hspace rest) (hspace kind)
      (List.append_cancel_left hrest)).1.symm

/-- What the lines of a page need of a family. -/
structure Family.Clear (f : Family) : Prop where
  name : ∀ c ∈ f.name, isNameChar c = true
  documentation : .scalar '\n' ∉ f.documentation
  kind : .scalar '\n' ∉ f.kind
  samples : ∀ s ∈ f.samples, s.Plain

theorem Family.Clear.newline_not_line {f : Family} (h : f.Clear) :
    ∀ line ∈ f.lines, .scalar '\n' ∉ line := by
  intro line hline
  rcases List.mem_append.mp hline with hline | hline
  · simp only [List.mem_cons, List.not_mem_nil, or_false] at hline
    rcases hline with rfl | rfl
    · simp only [List.mem_append, not_or]
      exact ⟨⟨⟨by decide, newline_not_name h.name⟩, by decide⟩, h.documentation⟩
    · simp only [List.mem_append, not_or]
      exact ⟨⟨⟨by decide, newline_not_name h.name⟩, by decide⟩, h.kind⟩
  · obtain ⟨s, hs, rfl⟩ := List.mem_map.mp hline
    exact (h.samples s hs).newline_not_line

/-- The sample lines of a family are those of its samples. -/
theorem Family.Clear.sampleLines {f : Family} (h : f.Clear) :
    f.lines.filter isSampleLine = f.samples.map Sample.line := by
  have hsamples : (f.samples.map Sample.line).filter isSampleLine = f.samples.map Sample.line := by
    rw [List.filter_eq_self]
    intro line hline
    obtain ⟨s, hs, rfl⟩ := List.mem_map.mp hline
    exact (h.samples s hs).toReadable.isSampleLine
  unfold Family.lines
  rw [List.filter_append, hsamples]
  rfl

/-- A family has a TYPE line for its own name and for no other. -/
theorem Family.Clear.typeLines {f : Family} (h : f.Clear) {name : Str}
    (hname : ∀ c ∈ name, isNameChar c = true) :
    (f.lines.filter (isTypeLine name)).length = if f.name = name then 1 else 0 := by
  have hsamples : (f.samples.map Sample.line).filter (isTypeLine name) = [] := by
    rw [List.filter_eq_nil_iff]
    intro line hline htype
    obtain ⟨s, hs, rfl⟩ := List.mem_map.mp hline
    have hsample := (h.samples s hs).toReadable.isSampleLine
    unfold isTypeLine at htype
    rw [List.isPrefixOf_iff_prefix] at htype
    obtain ⟨rest, hrest⟩ := htype
    rw [← hrest] at hsample
    exact absurd hsample (by simp [isSampleLine, str])
  have hhelp : isTypeLine name (str "# HELP " ++ f.name ++ str " " ++ f.documentation) = false := by
    unfold isTypeLine
    simp only [List.append_assoc]
    rfl
  unfold Family.lines
  rw [List.filter_append, hsamples, List.append_nil,
    List.filter_cons_of_neg (by rw [hhelp]; decide)]
  by_cases heq : f.name = name
  · rw [List.filter_cons_of_pos (by rw [isTypeLine_typeLine hname h.name]; simpa using heq),
      if_pos heq]
    rfl
  · rw [List.filter_cons_of_neg (by rw [isTypeLine_typeLine hname h.name]; simpa using heq),
      if_neg heq]
    rfl

section pages
variable {families : List Family} (hclear : ∀ f ∈ families, f.Clear)
include hclear

/-- The TYPE lines of a name are as many as the families of that name. -/
theorem length_typeLines {name : Str} (hname : ∀ c ∈ name, isNameChar c = true) :
    ((families.flatMap Family.lines).filter (isTypeLine name)).length =
      (families.map Family.name).count name := by
  induction families with
  | nil => rfl
  | cons f families ih =>
    obtain ⟨hf, hfamilies⟩ := List.forall_mem_cons.mp hclear
    rw [List.flatMap_cons, List.filter_append, List.length_append, hf.typeLines hname,
      ih hfamilies, List.map_cons, List.count_cons]
    by_cases heq : f.name = name
    · simp [heq, Nat.add_comm]
    · simp [heq]

theorem sampleLines_eq : (families.flatMap Family.lines).filter isSampleLine =
    (families.flatMap Family.samples).map Sample.line := by
  rw [List.filter_flatMap, List.map_flatMap]
  have hlines : ∀ f ∈ families, (f.lines.filter isSampleLine) = f.samples.map Sample.line :=
    fun f hf => (hclear f hf).sampleLines
  exact List.flatMap_congr hlines

/-- **A page of clear families is unambiguous** when their names and their samples differ. -/
theorem unambiguous_of_families (hnames : (families.map Family.name).Nodup)
    (hdistinct : ((families.flatMap Family.samples).map Sample.identity).Nodup) :
    Unambiguous ((families.flatMap Family.lines).flatMap fun line => line ++ str "\n")
      (families.map Family.name) (families.flatMap Family.samples) := by
  have hlines : textLines ((families.flatMap Family.lines).flatMap fun line => line ++ str "\n") =
      families.flatMap Family.lines := by
    apply textLines_flatMap
    intro line hline
    obtain ⟨f, hf, hline⟩ := List.mem_flatMap.mp hline
    exact (hclear f hf).newline_not_line line hline
  constructor
  · intro name hmem
    have hname : ∀ c ∈ name, isNameChar c = true := by
      obtain ⟨f, hf, rfl⟩ := List.mem_map.mp hmem
      exact (hclear f hf).name
    rw [hlines, length_typeLines hclear hname]
    exact List.count_eq_one_of_mem hnames hmem
  · rw [hlines]
    exact sampleLines_eq hclear
  · exact hdistinct
  · intro s hs t ht hline
    obtain ⟨f, hf, hs⟩ := List.mem_flatMap.mp hs
    exact Sample.line_inj ht ((hclear f hf).samples s hs).toReadable hline

end pages

end Observability

/-! ### Samples of clear metrics -/

section samples
variable {F : Type} [PyFloat F] [FloatFormat F] [LawfulFloatFormat F] [PlainFloatFormat F]

theorem newline_not_formatText {x : F} (h : PyFloat.isFinite x = true) :
    .scalar '\n' ∉ formatText x :=
  newline_not_number (formatText_number h)

theorem newline_not_decimal (n : ℕ) : .scalar '\n' ∉ decimal n :=
  newline_not_number (isNumberChar_of_digits fun _ hc => isDigit_of_mem_decimal hc)

namespace Counter

variable [CountingPyFloat F]

omit [PlainFloatFormat F] [LawfulFloatFormat F] in
theorem samples_spec {c : Counter F} (hc : c.Sound) {s : Sample} (hs : s ∈ c.samples) :
    ∃ (key : LabelKey) (x : F), key.length = c.labelnames.length ∧ PyFloat.isFinite x = true ∧
      s = ⟨c.name, c.labelnames.zip key, formatText x⟩ := by
  obtain ⟨item, hitem, rfl⟩ := List.mem_map.mp hs
  obtain ⟨hlength, hfinite⟩ := c.items_sound hc hitem
  exact ⟨item.1, item.2, hlength, hfinite, rfl⟩

theorem Clear.family {c : Counter F} (h : c.Clear) : c.family.Clear := by
  have hkind : CodePoint.scalar '\n' ∉ str "counter" := by decide
  refine ⟨h.name, h.documentation, hkind, ?_⟩
  intro s hs
  obtain ⟨key, x, -, hfinite, rfl⟩ := samples_spec h.sound hs
  refine ⟨⟨h.name, ?_⟩, newline_not_formatText hfinite⟩
  intro pair hpair
  exact h.labels.names pair.1 (List.of_mem_zip hpair).1

omit [PlainFloatFormat F] [LawfulFloatFormat F] in
/-- The samples of a counter differ in their label values. -/
theorem Clear.distinct {c : Counter F} (h : c.Clear) : (c.samples.map Sample.identity).Nodup := by
  have hkeys : (c.items.map Prod.fst).Nodup := by
    unfold items
    dsimp only
    split
    · exact List.nodup_singleton _
    · exact (((perm_sortedOn Prod.fst c.values.entries).map Prod.fst).nodup_iff).mpr c.values.nodup
  have hidentity : c.samples.map Sample.identity =
      (c.items.map Prod.fst).map fun key => (c.name, (c.labelnames.zip key).toFinset) := by
    unfold samples
    rw [List.map_map, List.map_map]
    rfl
  rw [hidentity]
  apply List.Nodup.map_on _ hkeys
  intro key hkey key' hkey' heq
  obtain ⟨item, hitem, rfl⟩ := List.mem_map.mp hkey
  obtain ⟨item', hitem', rfl⟩ := List.mem_map.mp hkey'
  exact zip_toFinset_inj h.labels.nodup (c.items_sound h.sound hitem).1
    (c.items_sound h.sound hitem').1 (congrArg Prod.snd heq)

end Counter

namespace Histogram

/-- The samples of a label set: the last part of the name, the labels, and a plain number. -/
theorem keySamples_spec {h : Histogram F} (hh : h.Clear) {key : LabelKey} (hkey : key ∈ h.keys)
    {s : Sample} (hs : s ∈ h.keySamples key) :
    .scalar '\n' ∉ s.value ∧
    ((∃ le, s.name = h.name ++ str "_bucket" ∧ s.labels = h.labelnames.zip key ++ [(str "le", le)]) ∨
      (s.name = h.name ++ str "_sum" ∧ s.labels = h.labelnames.zip key) ∨
      (s.name = h.name ++ str "_count" ∧ s.labels = h.labelnames.zip key)) := by
  obtain ⟨counts, sum, total, hcounts, hsum, htotal, -, -, hfinite⟩ := hh.sound.tables hkey
  unfold keySamples at hs
  rw [hcounts, hsum, htotal] at hs
  rcases List.mem_append.mp hs with hs | hs
  · obtain ⟨bucket, hbucket, rfl⟩ := List.mem_map.mp hs
    exact ⟨newline_not_decimal _, .inl ⟨_, rfl, rfl⟩⟩
  · simp only [List.mem_cons, List.not_mem_nil, or_false] at hs
    rcases hs with rfl | rfl | rfl
    · exact ⟨newline_not_decimal _, .inl ⟨_, rfl, rfl⟩⟩
    · exact ⟨newline_not_formatText hfinite, .inr (.inl ⟨rfl, rfl⟩)⟩
    · exact ⟨newline_not_decimal _, .inr (.inr ⟨rfl, rfl⟩)⟩

/-- The last parts of the names of a histogram's samples. -/
def suffixes : List Str := [str "_bucket", str "_sum", str "_count"]

theorem isNameChar_suffix {suffix : Str} (h : suffix ∈ suffixes) :
    ∀ c ∈ suffix, isNameChar c = true := by
  revert suffix
  decide

theorem Clear.family {h : Histogram F} (hh : h.Clear) : h.family.Clear := by
  have hkind : CodePoint.scalar '\n' ∉ str "histogram" := by decide
  refine ⟨hh.name, hh.documentation, hkind, ?_⟩
  intro s hs
  obtain ⟨key, hkey, hs⟩ := List.mem_flatMap.mp hs
  obtain ⟨hvalue, hcases⟩ := keySamples_spec hh hkey hs
  have hzip : ∀ pair ∈ h.labelnames.zip key, isLabelName pair.1 = true :=
    fun pair hpair => hh.labels.names pair.1 (List.of_mem_zip hpair).1
  have hname : ∀ suffix ∈ suffixes, ∀ c ∈ h.name ++ suffix, isNameChar c = true := by
    intro suffix hsuffix c hc
    rcases List.mem_append.mp hc with hc | hc
    · exact hh.name c hc
    · exact isNameChar_suffix hsuffix c hc
  rcases hcases with ⟨le, hbucket, hlabels⟩ | ⟨hsum, hlabels⟩ | ⟨hcount, hlabels⟩
  · refine ⟨⟨by rw [hbucket]; exact hname _ (by decide), ?_⟩, hvalue⟩
    intro pair hpair
    rw [hlabels] at hpair
    rcases List.mem_append.mp hpair with hpair | hpair
    · exact hzip pair hpair
    · rw [List.mem_singleton.mp hpair]
      show isLabelName (str "le") = true
      decide
  · exact ⟨⟨by rw [hsum]; exact hname _ (by decide), by rw [hlabels]; exact hzip⟩, hvalue⟩
  · exact ⟨⟨by rw [hcount]; exact hname _ (by decide), by rw [hlabels]; exact hzip⟩, hvalue⟩

omit [LawfulFloatFormat F] [PlainFloatFormat F] in
/-- The labels of a bucket: the label values and the bound can be told from the set. -/
theorem Clear.bucket_inj {h : Histogram F} (hh : h.Clear) {key key' : LabelKey} {le le' : Str}
    (hkey : key.length = h.labelnames.length) (hkey' : key'.length = h.labelnames.length)
    (heq : (h.labelnames.zip key ++ [(str "le", le)]).toFinset =
      (h.labelnames.zip key' ++ [(str "le", le')]).toFinset) : key = key' ∧ le = le' := by
  have hzip : ∀ {k : LabelKey} (t : Str), k.length = h.labelnames.length →
      h.labelnames.zip k ++ [(str "le", t)] = (h.labelnames ++ [str "le"]).zip (k ++ [t]) := by
    intro k t hk
    rw [List.zip_append hk.symm]
    rfl
  have hnodup : (h.labelnames ++ [str "le"]).Nodup := by
    rw [List.nodup_append]
    refine ⟨hh.labels.nodup, List.nodup_singleton _, ?_⟩
    intro name hname name' hname' hne
    rw [List.mem_singleton.mp hname'] at hne
    exact hh.le (hne ▸ hname)
  rw [hzip le hkey, hzip le' hkey'] at heq
  have happend := zip_toFinset_inj hnodup (by simp [hkey]) (by simp [hkey']) heq
  obtain ⟨hkeys, hle⟩ := List.append_inj happend (hkey.trans hkey'.symm)
  exact ⟨hkeys, (List.cons.inj hle).1⟩

/-- Two samples with the same identity are samples of one label set. -/
theorem Clear.key_inj {h : Histogram F} (hh : h.Clear) {key key' : LabelKey} (hkey : key ∈ h.keys)
    (hkey' : key' ∈ h.keys) {s t : Sample} (hs : s ∈ h.keySamples key)
    (ht : t ∈ h.keySamples key') (heq : s.identity = t.identity) : key = key' := by
  obtain ⟨-, -, -, -, -, -, hlength, -⟩ := hh.sound.tables hkey
  obtain ⟨-, -, -, -, -, -, hlength', -⟩ := hh.sound.tables hkey'
  have hname : s.name = t.name := congrArg Prod.fst heq
  have hset : s.labels.toFinset = t.labels.toFinset := congrArg Prod.snd heq
  -- equal names have equal last parts
  have hsuffix : ∀ {a b : Str}, s.name = h.name ++ a → t.name = h.name ++ b → a = b := by
    intro a b ha hb
    rw [ha, hb] at hname
    exact List.append_cancel_left hname
  rcases (keySamples_spec hh hkey hs).2 with ⟨le, hs, hl⟩ | ⟨hs, hl⟩ | ⟨hs, hl⟩
  · rcases (keySamples_spec hh hkey' ht).2 with ⟨le', ht, hl'⟩ | ⟨ht, hl'⟩ | ⟨ht, hl'⟩
    · rw [hl, hl'] at hset
      exact (hh.bucket_inj hlength hlength' hset).1
    · exact absurd (hsuffix hs ht) (by decide)
    · exact absurd (hsuffix hs ht) (by decide)
  · rcases (keySamples_spec hh hkey' ht).2 with ⟨le', ht, hl'⟩ | ⟨ht, hl'⟩ | ⟨ht, hl'⟩
    · exact absurd (hsuffix hs ht) (by decide)
    · rw [hl, hl'] at hset
      exact zip_toFinset_inj hh.labels.nodup hlength hlength' hset
    · exact absurd (hsuffix hs ht) (by decide)
  · rcases (keySamples_spec hh hkey' ht).2 with ⟨le', ht, hl'⟩ | ⟨ht, hl'⟩ | ⟨ht, hl'⟩
    · exact absurd (hsuffix hs ht) (by decide)
    · exact absurd (hsuffix hs ht) (by decide)
    · rw [hl, hl'] at hset
      exact zip_toFinset_inj hh.labels.nodup hlength hlength' hset

/-- The samples of one label set differ: the bounds in their texts, the others in their names. -/
theorem Clear.distinct_key {h : Histogram F} (hh : h.Clear) {key : LabelKey} (hkey : key ∈ h.keys) :
    ((h.keySamples key).map Sample.identity).Nodup := by
  obtain ⟨counts, sum, total, hcounts, hsum, htotal, hlength, hrow, -⟩ := hh.sound.tables hkey
  -- the text of a finite bound is a number, which `+Inf` is not
  have htexts : (h.bounds.map formatText ++ [str "+Inf"]).Nodup := by
    rw [List.nodup_append]
    refine ⟨hh.bounds, List.nodup_singleton _, ?_⟩
    intro text htext inf hinf hne
    obtain ⟨b, hb, rfl⟩ := List.mem_map.mp htext
    have hnumber := formatText_number (hh.sound.bounds b hb)
    rw [hne, List.mem_singleton.mp hinf] at hnumber
    exact absurd (hnumber (.scalar 'I') (by decide)) (by decide)
  -- the bucket samples differ in `le`, the other two in their names
  have hidentity : (h.keySamples key).map Sample.identity =
      ((h.bounds.map formatText ++ [str "+Inf"]).map fun le =>
        (h.name ++ str "_bucket", (h.labelnames.zip key ++ [(str "le", le)]).toFinset)) ++
      [(h.name ++ str "_sum", (h.labelnames.zip key).toFinset),
        (h.name ++ str "_count", (h.labelnames.zip key).toFinset)] := by
    have hfst : (h.bounds.zip counts).map Prod.fst = h.bounds := List.map_fst_zip (by omega)
    unfold keySamples
    rw [hcounts, hsum, htotal]
    simp only [Option.getD_some, List.map_append, List.map_map]
    rw [← hfst, List.map_map, hfst, List.append_assoc]
    rfl
  have hname : ∀ {a b : Str}, h.name ++ a = h.name ++ b → a = b :=
    fun heq => List.append_cancel_left heq
  rw [hidentity, List.nodup_append]
  refine ⟨List.Nodup.map_on ?_ htexts, ?_, ?_⟩
  · intro le _ le' _ heq
    exact (hh.bucket_inj hlength hlength (congrArg Prod.snd heq)).2
  · rw [List.nodup_cons]
    refine ⟨?_, List.nodup_singleton _⟩
    intro hmem
    exact absurd (hname (congrArg Prod.fst (List.mem_singleton.mp hmem))) (by decide)
  · intro bucket hbucket other hother heq
    obtain ⟨le, -, rfl⟩ := List.mem_map.mp hbucket
    simp only [List.mem_cons, List.not_mem_nil, or_false] at hother
    rcases hother with rfl | rfl
    · exact absurd (hname (congrArg Prod.fst heq)) (by decide)
    · exact absurd (hname (congrArg Prod.fst heq)) (by decide)

theorem Clear.distinct {h : Histogram F} (hh : h.Clear) :
    (h.samples.map Sample.identity).Nodup := by
  have hkeys : h.keys.Nodup := by
    have hperm := perm_sortedOn id (h.counts.entries.map Prod.fst)
    exact hperm.nodup_iff.mpr h.counts.nodup
  unfold samples
  rw [List.map_flatMap, List.nodup_flatMap]
  refine ⟨fun key hkey => hh.distinct_key hkey, ?_⟩
  apply hkeys.imp_of_mem
  intro key key' hkey hkey' hne
  rw [Function.onFun, List.disjoint_left]
  intro identity hidentity hidentity'
  obtain ⟨s, hs, rfl⟩ := List.mem_map.mp hidentity
  obtain ⟨t, ht, heq⟩ := List.mem_map.mp hidentity'
  exact hne (hh.key_inj hkey hkey' hs ht heq.symm)

end Histogram

/-! ### Samples of clear registries -/

/-- The names of the labels of a sample. -/
def labelNames (s : Sample) : Finset Str := s.labelSet.image Prod.fst

theorem labelNames_eq {s t : Sample} (h : s.identity = t.identity) : labelNames s = labelNames t :=
  congrArg (Finset.image Prod.fst) (congrArg Prod.snd h)

omit [PlainFloatFormat F] [LawfulFloatFormat F] in
theorem Counter.Clear.names [CountingPyFloat F] {c : Counter F} (hc : c.Clear) {s : Sample}
    (hs : s ∈ c.samples) : s.name = c.name ∧ labelNames s = c.labelnames.toFinset := by
  obtain ⟨key, x, hlength, -, rfl⟩ := Counter.samples_spec hc.sound hs
  exact ⟨rfl, image_zip_toFinset hlength⟩

theorem Histogram.Clear.names {h : Histogram F} (hh : h.Clear) {s : Sample} (hs : s ∈ h.samples) :
    (s.name = h.name ++ str "_bucket" ∧
      labelNames s = insert (str "le") h.labelnames.toFinset) ∨
    (s.name = h.name ++ str "_sum" ∧ labelNames s = h.labelnames.toFinset) ∨
    (s.name = h.name ++ str "_count" ∧ labelNames s = h.labelnames.toFinset) := by
  obtain ⟨key, hkey, hs⟩ := List.mem_flatMap.mp hs
  obtain ⟨-, -, -, -, -, -, hlength, -⟩ := hh.sound.tables hkey
  have hzip := image_zip_toFinset hlength
  rcases (keySamples_spec hh hkey hs).2 with ⟨le, hname, hlabels⟩ | ⟨hname, hlabels⟩ |
    ⟨hname, hlabels⟩
  · refine .inl ⟨hname, ?_⟩
    unfold labelNames Sample.labelSet
    rw [hlabels, List.toFinset_append, Finset.image_union, hzip, Finset.union_comm]
    rfl
  · exact .inr (.inl ⟨hname, by unfold labelNames Sample.labelSet; rw [hlabels, hzip]⟩)
  · exact .inr (.inr ⟨hname, by unfold labelNames Sample.labelSet; rw [hlabels, hzip]⟩)

/-- A derived name tells the histogram: the last two characters tell which part it ends in. -/
theorem Histogram.suffix_inj {n n' a b : Str} (ha : a ∈ suffixes) (hb : b ∈ suffixes)
    (h : n ++ a = n' ++ b) : n = n' := by
  have hlong : ∀ a ∈ suffixes, 2 ≤ a.reverse.length := by decide
  have hlast : ∀ a ∈ suffixes, ∀ b ∈ suffixes, a.reverse.take 2 = b.reverse.take 2 → a = b := by
    decide
  have htake : ∀ {n a : Str}, a ∈ suffixes → (n ++ a).reverse.take 2 = a.reverse.take 2 := by
    intro n a ha
    rw [List.reverse_append, List.take_append_of_le_length (hlong a ha)]
  have hab : a = b := by
    apply hlast a ha b hb
    rw [← htake (n := n) ha, ← htake (n := n') hb, h]
  rw [hab] at h
  exact List.append_cancel_right h

namespace MetricsRegistry

variable [CountingPyFloat F] {r : MetricsRegistry F}

omit [PlainFloatFormat F] [LawfulFloatFormat F] [CountingPyFloat F] in
theorem Clear.sound (h : r.Clear) : r.Sound :=
  ⟨fun name c hc => (h.counters name c hc).2.sound, fun name x hx => (h.histograms name x hx).2.sound⟩

omit [PlainFloatFormat F] [LawfulFloatFormat F] [CountingPyFloat F] in
/-- A family is that of a counter or of a histogram. -/
theorem Clear.of_family (h : r.Clear) {f : Family} (hf : f ∈ r.families) :
    (∃ c, r.counters.get? c.name = some c ∧ c.Clear ∧ f = c.family) ∨
    ∃ x, r.histograms.get? x.name = some x ∧ x.Clear ∧ f = x.family := by
  rcases List.mem_append.mp (mem_sortedOn.mp hf) with hf | hf
  · obtain ⟨c, hc, rfl⟩ := List.mem_map.mp hf
    obtain ⟨name, hname⟩ := Dict.mem_values.mp hc
    obtain ⟨rfl, hclear⟩ := h.counters name c hname
    exact .inl ⟨c, hname, hclear, rfl⟩
  · obtain ⟨x, hx, rfl⟩ := List.mem_map.mp hf
    obtain ⟨name, hname⟩ := Dict.mem_values.mp hx
    obtain ⟨rfl, hclear⟩ := h.histograms name x hname
    exact .inr ⟨x, hname, hclear, rfl⟩

theorem Clear.families_clear (h : r.Clear) : ∀ f ∈ r.families, f.Clear := by
  intro f hf
  rcases h.of_family hf with ⟨c, -, hc, rfl⟩ | ⟨x, -, hx, rfl⟩
  · exact hc.family
  · exact hx.family

omit [PlainFloatFormat F] [LawfulFloatFormat F] [CountingPyFloat F] in
theorem Clear.nodup_names (h : r.Clear) : (r.families.map Family.name).Nodup := by
  have hcounters : r.counters.Keyed Counter.name := fun name c hc => (h.counters name c hc).1.symm
  have hhistograms : r.histograms.Keyed Histogram.name :=
    fun name x hx => (h.histograms name x hx).1.symm
  have hperm := (perm_sortedOn Family.name
    (r.counters.values.map Counter.family ++ r.histograms.values.map Histogram.family)).map
      Family.name
  refine hperm.nodup_iff.mpr ?_
  rw [List.map_append, List.map_map, List.map_map, List.nodup_append]
  refine ⟨hcounters.nodup_keys, hhistograms.nodup_keys, ?_⟩
  intro name hname name' hname' heq
  obtain ⟨c, hc, rfl⟩ := List.mem_map.mp hname
  obtain ⟨x, hx, rfl⟩ := List.mem_map.mp hname'
  exact (h.apart _ c _ x (hcounters.get?_of_mem hc) (hhistograms.get?_of_mem hx)).name heq

/-- A counter and a histogram have no sample in common. -/
theorem Clear.apart_samples (h : r.Clear) {c : Counter F} {x : Histogram F}
    (hc : r.counters.get? c.name = some c) (hx : r.histograms.get? x.name = some x) {s t : Sample}
    (hs : s ∈ c.samples) (ht : t ∈ x.samples) : s.identity ≠ t.identity := by
  intro heq
  obtain ⟨-, hcclear⟩ := h.counters _ c hc
  obtain ⟨-, hxclear⟩ := h.histograms _ x hx
  have hapart := h.apart _ c _ x hc hx
  obtain ⟨hsname, hslabels⟩ := hcclear.names hs
  have hname : s.name = t.name := congrArg Prod.fst heq
  have hlabels := labelNames_eq heq
  rw [hslabels] at hlabels
  rw [hsname] at hname
  rcases hxclear.names ht with ⟨htname, htlabels⟩ | ⟨htname, htlabels⟩ | ⟨htname, htlabels⟩
  · exact hapart.bucket (hname.trans htname) (hlabels.trans htlabels)
  · exact hapart.sum (hname.trans htname) (hlabels.trans htlabels)
  · exact hapart.count (hname.trans htname) (hlabels.trans htlabels)

/-- Families of different names have no sample in common. -/
theorem Clear.disjoint_families (h : r.Clear) {f g : Family} (hf : f ∈ r.families)
    (hg : g ∈ r.families) (hne : f.name ≠ g.name) {s t : Sample} (hs : s ∈ f.samples)
    (ht : t ∈ g.samples) : s.identity ≠ t.identity := by
  intro heq
  have hname : s.name = t.name := congrArg Prod.fst heq
  rcases h.of_family hf with ⟨c, hc, hclear, rfl⟩ | ⟨x, hx, hclear, rfl⟩
  · rcases h.of_family hg with ⟨c', hc', hclear', rfl⟩ | ⟨x', hx', hclear', rfl⟩
    · rw [(hclear.names hs).1, (hclear'.names ht).1] at hname
      exact hne hname
    · exact h.apart_samples hc hx' hs ht heq
  · rcases h.of_family hg with ⟨c', hc', hclear', rfl⟩ | ⟨x', hx', hclear', rfl⟩
    · exact h.apart_samples hc' hx ht hs heq.symm
    · have hpart : ∀ {y : Histogram F}, y.Clear → ∀ {u : Sample}, u ∈ y.samples →
          ∃ suffix ∈ Histogram.suffixes, u.name = y.name ++ suffix := by
        intro y hy u hu
        rcases hy.names hu with ⟨hu, -⟩ | ⟨hu, -⟩ | ⟨hu, -⟩
        · exact ⟨_, by decide, hu⟩
        · exact ⟨_, by decide, hu⟩
        · exact ⟨_, by decide, hu⟩
      obtain ⟨a, ha, hsname⟩ := hpart hclear hs
      obtain ⟨b, hb, htname⟩ := hpart hclear' ht
      rw [hsname, htname] at hname
      exact hne (Histogram.suffix_inj ha hb hname)

theorem Clear.distinct (h : r.Clear) : (r.samples.map Sample.identity).Nodup := by
  have hpairwise : r.families.Pairwise fun f g => f.name ≠ g.name :=
    List.pairwise_map.mp h.nodup_names
  unfold samples
  rw [List.map_flatMap, List.nodup_flatMap]
  constructor
  · intro f hf
    rcases h.of_family hf with ⟨c, -, hc, rfl⟩ | ⟨x, -, hx, rfl⟩
    · exact hc.distinct
    · exact hx.distinct
  · apply hpairwise.imp_of_mem
    intro f g hf hg hne
    rw [Function.onFun, List.disjoint_left]
    intro identity hidentity hidentity'
    obtain ⟨s, hs, rfl⟩ := List.mem_map.mp hidentity
    obtain ⟨t, ht, heq⟩ := List.mem_map.mp hidentity'
    exact h.disjoint_families hf hg hne hs ht heq.symm

/-- **The page of a clear registry is unambiguous.** -/
theorem Clear.unambiguous (h : r.Clear) :
    ∃ text, r.render = .ok text ∧ Unambiguous text r.familyNames r.samples :=
  ⟨_, h.sound.render_eq, unambiguous_of_families h.families_clear h.nodup_names h.distinct⟩

end MetricsRegistry

end samples

end IncidentEvidence
