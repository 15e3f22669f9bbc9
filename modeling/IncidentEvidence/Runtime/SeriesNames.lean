import IncidentEvidence.Runtime.SeriesMapping

/-! # Names of series

    `_series_name` writes `name{label="value",...}` without escaping the values, as
    `_escape_label_value` of the metrics registry does. A value that contains a
    quote can take in the name of the next label, and two label sets get one name.

    `Recut` says exactly when: the labels of one are those of the other with the
    text cut at other quotes. It needs a value with `",`, a label name and `=`.
-/

namespace IncidentEvidence

open Py

/-! ### Metric objects -/

/-- A letter or an underscore. -/
def isNameStart : CodePoint → Bool
  | .scalar c => c.isAlpha || c == '_'
  | .surrogate _ => false

/-- A letter, a digit or an underscore. -/
def isNameChar : CodePoint → Bool
  | .scalar c => c.isAlphanum || c == '_'
  | .surrogate _ => false

/-- The name of a label: `[a-zA-Z_][a-zA-Z0-9_]*`. -/
def IsLabelName : Str → Prop
  | [] => False
  | c :: s => isNameStart c = true ∧ ∀ d ∈ s, isNameChar d = true

/-- The name of a metric: `[a-zA-Z_:][a-zA-Z0-9_:]*`. -/
def IsMetricName : Str → Prop
  | [] => False
  | c :: s => (isNameStart c = true ∨ c = .scalar ':') ∧
    ∀ d ∈ s, isNameChar d = true ∨ d = .scalar ':'

/-- `__name__`. -/
def nameLabel : Str := str "__name__"

/-- The `metric` of a series: label names with text values, and perhaps a metric name. -/
structure MetricObject where
  fields : List (Str × Str)
  nodup : (fields.map Prod.fst).Nodup
  labelNames : ∀ kv ∈ fields, kv.1 ≠ nameLabel → IsLabelName kv.1
  metricName : ∀ kv ∈ fields, kv.1 = nameLabel → IsMetricName kv.2

namespace MetricObject

/-- The decoded JSON object. -/
def toJson (m : MetricObject) : Json := .obj (m.fields.map fun kv => (kv.1, .str kv.2))

/-- Equal as mappings. -/
def Same (m m' : MetricObject) : Prop := m.fields.Perm m'.fields

/-- The metric name, or nothing. -/
def base (m : MetricObject) : Str :=
  ((m.fields.find? fun kv => kv.1 = nameLabel).map (·.2)).getD []

/-- The labels in the order of their names. -/
def labels (m : MetricObject) : List (Str × Str) :=
  sortedOn Prod.fst (m.fields.filter fun kv => kv.1 ≠ nameLabel)

end MetricObject

/-! ### The text of a name -/

/-- `key="value"`. -/
def labelText (kv : Str × Str) : Str := kv.1 ++ str "=\"" ++ kv.2 ++ str "\""

/-- The labels between braces, or nothing when there are none. -/
def bracedLabels : List (Str × Str) → Str
  | [] => []
  | labels => .scalar '\x7b' :: (joinComma (labels.map labelText) ++ [.scalar '\x7d'])

theorem bracedLabels_of_ne_nil {labels : List (Str × Str)} (h : labels ≠ []) :
    bracedLabels labels =
      .scalar '\x7b' :: (joinComma (labels.map labelText) ++ [.scalar '\x7d']) := by
  cases labels with
  | nil => exact absurd rfl h
  | cons kv labels => rfl

theorem base_toJson {F : Type} (D : Decoder F) (m : MetricObject) :
    (match m.toJson.get "__name__" with
      | some v => textOf D v
      | none => []) = m.base := by
  have hget : m.toJson.get "__name__" =
      (m.fields.find? fun kv => kv.1 = nameLabel).map fun kv => .str kv.2 := by
    show ((m.fields.map fun kv => (kv.1, Json.str kv.2)).find? _).map _ = _
    rw [List.find?_map, Option.map_map]
    rfl
  rw [hget, MetricObject.base]
  cases m.fields.find? fun kv => kv.1 = nameLabel <;> rfl

theorem seriesName_toJson {F : Type} (D : Decoder F) (m : MetricObject) :
    seriesName D m.toJson = m.base ++ bracedLabels m.labels := by
  have hlabels : sortedOn Prod.fst ((m.toJson.fields.filter fun kv => kv.1 ≠ str "__name__").map
      fun kv => (kv.1, textOf D kv.2)) = m.labels := by
    show sortedOn Prod.fst (((m.fields.map fun kv => (kv.1, Json.str kv.2)).filter _).map _) = _
    rw [List.filter_map, List.map_map, MetricObject.labels]
    congr 1
    exact List.map_id _
  unfold seriesName
  simp only [hlabels]
  by_cases hnil : m.labels = []
  · rw [if_pos hnil, hnil]
    exact (base_toJson D m).trans (List.append_nil _).symm
  · rw [if_neg hnil, bracedLabels_of_ne_nil hnil]
    exact congrArg (· ++ _) (base_toJson D m)

/-! ### What a metric object is, name and labels -/

namespace MetricObject

theorem mem_labels {m : MetricObject} {kv : Str × Str} :
    kv ∈ m.labels ↔ kv ∈ m.fields ∧ kv.1 ≠ nameLabel := by
  simp [labels]

theorem isLabelName_of_mem_labels {m : MetricObject} {kv : Str × Str} (h : kv ∈ m.labels) :
    IsLabelName kv.1 :=
  m.labelNames kv (mem_labels.mp h).1 (mem_labels.mp h).2

theorem ne_nil_of_isMetricName {s : Str} (h : IsMetricName s) : s ≠ [] := by
  intro hnil
  rw [hnil] at h
  exact h

/-- The base is the metric name of the object, when there is one. -/
theorem mem_name {m : MetricObject} {v : Str} :
    (nameLabel, v) ∈ m.fields ↔ m.base = v ∧ v ≠ [] := by
  unfold base
  cases hfind : m.fields.find? fun kv => kv.1 = nameLabel with
  | none =>
    rw [List.find?_eq_none] at hfind
    constructor
    · intro h
      exact absurd (decide_eq_true rfl) (hfind _ h)
    · intro h
      exact absurd h.1.symm h.2
  | some kv =>
    have hmem := List.mem_of_find?_eq_some hfind
    have hname : kv.1 = nameLabel := by simpa using List.find?_some hfind
    constructor
    · intro h
      have heq : kv = (nameLabel, v) := List.inj_on_of_nodup_map m.nodup hmem h hname
      rw [heq]
      exact ⟨rfl, ne_nil_of_isMetricName (m.metricName _ h rfl)⟩
    · intro h
      have heq : kv = (nameLabel, v) := Prod.ext hname h.1
      rw [← heq]
      exact hmem

/-- **Equal as mappings** are objects with one name and the same labels. -/
theorem same_iff {m m' : MetricObject} : m.Same m' ↔ m.base = m'.base ∧ m.labels = m'.labels := by
  constructor
  · intro h
    constructor
    · by_cases hbase : m.base = []
      · by_contra hne
        have hmem := mem_name.mpr ⟨rfl, fun hnil => hne (hbase.trans hnil.symm)⟩
        exact (mem_name.mp (h.mem_iff.mpr hmem)).2 ((mem_name.mp (h.mem_iff.mpr hmem)).1 ▸ hbase)
      · have hmem := mem_name.mpr ⟨rfl, hbase⟩
        exact (mem_name.mp (h.mem_iff.mp hmem)).1.symm
    · apply sortedOn_eq_of_perm (h.filter _)
      exact m.nodup.sublist (List.filter_sublist.map _)
  · intro h
    obtain ⟨hbase, hlabels⟩ := h
    have hnodup : ∀ m : MetricObject, m.fields.Nodup := fun m => m.nodup.of_map
    apply (List.perm_ext_iff_of_nodup (hnodup m) (hnodup m')).mpr
    intro kv
    by_cases hname : kv.1 = nameLabel
    · have heq : kv = (nameLabel, kv.2) := Prod.ext hname rfl
      rw [heq, mem_name, mem_name, hbase]
    · have hmem : ∀ m : MetricObject, kv ∈ m.fields ↔ kv ∈ m.labels := by
        intro m
        rw [mem_labels]
        exact ⟨fun h => ⟨h, hname⟩, fun h => h.1⟩
      rw [hmem, hmem, hlabels]

end MetricObject

/-! ### Cutting the text at other quotes -/

/-- `"`. -/
def quoteChar : CodePoint := .scalar '"'

/-- `,key=`. -/
def opening (key : Str) : Str := .scalar ',' :: (key ++ [.scalar '='])

/-- The labels after the first value, up to the closing quote. -/
def tailText (labels : List (Str × Str)) : Str :=
  labels.flatMap fun kv => quoteChar :: (opening kv.1 ++ quoteChar :: kv.2)

/-- A first value with the labels behind it, and another one, over one text: where one
    value ends the other may go on, through the quote and the name of the next label. -/
inductive Recut : Str → List (Str × Str) → Str → List (Str × Str) → Prop where
  | same (v : Str) : Recut v [] v []
  | next {x y : Str} {R S : List (Str × Str)} (v key : Str) :
      Recut x R y S → Recut v ((key, x) :: R) v ((key, y) :: S)
  | swallow {x u : Str} {R S : List (Str × Str)} (v key : Str) :
      Recut (quoteChar :: x) R u S →
      Recut v ((key, x) :: R) (v ++ quoteChar :: (opening key ++ u)) S
  | symm {v w : Str} {R S : List (Str × Str)} : Recut v R w S → Recut w S v R

theorem tailText_cons (key x : Str) (R : List (Str × Str)) :
    tailText ((key, x) :: R) = quoteChar :: (opening key ++ quoteChar :: (x ++ tailText R)) := by
  simp [tailText]

theorem Recut.text_eq {v w : Str} {R S : List (Str × Str)} (h : Recut v R w S) :
    v ++ tailText R = w ++ tailText S := by
  induction h with
  | same v => rfl
  | next v key _ ih => rw [tailText_cons, tailText_cons, ih]
  | swallow v key _ ih =>
    rw [tailText_cons, List.append_assoc, List.cons_append, List.append_assoc, ← ih]
    rfl
  | symm _ ih => exact ih.symm

/-- A label name holds neither a quote nor an equals sign. -/
theorem not_mem_of_isLabelName {key : Str} (h : IsLabelName key) :
    quoteChar ∉ key ∧ CodePoint.scalar '=' ∉ key := by
  cases key with
  | nil => exact absurd h id
  | cons c key =>
    obtain ⟨hstart, hrest⟩ := h
    have hno : ∀ d : CodePoint, isNameStart d = false → isNameChar d = false → d ∉ c :: key := by
      intro d hd hd' hmem
      rcases List.mem_cons.mp hmem with rfl | hmem
      · rw [hstart] at hd
        exact absurd hd (by decide)
      · rw [hrest d hmem] at hd'
        exact absurd hd' (by decide)
    exact ⟨hno _ (by decide) (by decide), hno _ (by decide) (by decide)⟩

theorem quoteChar_not_mem_opening {key : Str} (h : IsLabelName key) : quoteChar ∉ opening key := by
  have hquote := (not_mem_of_isLabelName h).1
  intro hmem
  rcases List.mem_cons.mp hmem with heq | hmem
  · exact absurd heq (by decide)
  · rcases List.mem_append.mp hmem with hmem | hmem
    · exact hquote hmem
    · exact absurd (List.mem_singleton.mp hmem) (by decide)

/-- A text up to a character it does not hold is read off what follows. -/
theorem append_cons_inj {c : CodePoint} {a b r s : Str} (ha : c ∉ a) (hb : c ∉ b)
    (h : a ++ c :: r = b ++ c :: s) : a = b ∧ r = s := by
  induction a generalizing b with
  | nil =>
    cases b with
    | nil => exact ⟨rfl, (List.cons.inj h).2⟩
    | cons d b =>
      obtain ⟨rfl, -⟩ := List.cons.inj h
      exact absurd List.mem_cons_self hb
  | cons d a ih =>
    cases b with
    | nil =>
      obtain ⟨rfl, -⟩ := List.cons.inj h
      exact absurd List.mem_cons_self ha
    | cons d' b =>
      obtain ⟨rfl, hrest⟩ := List.cons.inj h
      obtain ⟨rfl, hrs⟩ := ih (fun hc => ha (List.mem_cons_of_mem _ hc))
        (fun hc => hb (List.mem_cons_of_mem _ hc)) hrest
      exact ⟨rfl, hrs⟩

theorem opening_append_inj {key key' r s : Str} (h : IsLabelName key) (h' : IsLabelName key')
    (heq : opening key ++ r = opening key' ++ s) : key = key' ∧ r = s := by
  have htext : key ++ .scalar '=' :: r = key' ++ .scalar '=' :: s := by
    simpa [opening] using heq
  exact append_cons_inj (not_mem_of_isLabelName h).2 (not_mem_of_isLabelName h').2 htext

/-- Where the second value ends at or after the first, it ends there or goes on through
    the next label. -/
theorem recut_of_longer {v s : Str} {R S : List (Str × Str)}
    (hR : ∀ kv ∈ R, IsLabelName kv.1) (hS : ∀ kv ∈ S, IsLabelName kv.1)
    (hrec : ∀ {v w : Str} {R' S' : List (Str × Str)}, R'.length + S'.length < R.length + S.length →
      (∀ kv ∈ R', IsLabelName kv.1) → (∀ kv ∈ S', IsLabelName kv.1) →
      v ++ tailText R' = w ++ tailText S' → Recut v R' w S')
    (h : tailText R = s ++ tailText S) : Recut v R (v ++ s) S := by
  cases R with
  | nil =>
    -- no text is left: the second value ends too
    have hnil : s ++ tailText S = [] := h.symm
    obtain ⟨rfl, htail⟩ := List.append_eq_nil_iff.mp hnil
    cases S with
    | nil =>
      rw [List.append_nil]
      exact .same v
    | cons kv S =>
      rw [tailText_cons] at htail
      exact absurd htail (by simp)
  | cons kv R =>
    obtain ⟨key, x⟩ := kv
    have hkey : IsLabelName key := hR _ List.mem_cons_self
    have hR' : ∀ kv ∈ R, IsLabelName kv.1 := fun kv hkv => hR kv (List.mem_cons_of_mem _ hkv)
    rw [tailText_cons] at h
    cases s with
    | nil =>
      -- both values end here
      cases S with
      | nil => exact absurd h (by simp [tailText])
      | cons kv' S =>
        obtain ⟨key', y⟩ := kv'
        have hkey' : IsLabelName key' := hS _ List.mem_cons_self
        rw [List.nil_append, tailText_cons] at h
        obtain ⟨rfl, htext⟩ := opening_append_inj hkey hkey' (List.cons.inj h).2
        rw [List.append_nil]
        apply Recut.next
        apply hrec _ hR' (fun kv hkv => hS kv (List.mem_cons_of_mem _ hkv)) (List.cons.inj htext).2
        simp only [List.length_cons]
        omega
    | cons c s =>
      rw [List.cons_append] at h
      obtain ⟨rfl, htext⟩ := List.cons.inj h
      -- the second value goes on: no quote comes before the name of the next label is over
      rcases List.append_eq_append_iff.mp htext with ⟨u, rfl, hu⟩ | ⟨u, hopening, hu⟩
      · apply Recut.swallow
        apply hrec _ hR' hS hu
        simp only [List.length_cons]
        omega
      · cases u with
        | nil =>
          rw [List.append_nil] at hopening
          rw [← hopening]
          have hswallow := Recut.swallow (x := x) (u := []) (R := R) (S := S) v key
          rw [List.append_nil] at hswallow
          apply hswallow
          apply hrec _ hR' hS
          · exact hu.symm
          · simp only [List.length_cons]
            omega
        | cons d u =>
          exfalso
          cases S with
          | nil => exact absurd hu (by simp [tailText])
          | cons kv' S =>
            obtain ⟨key', y⟩ := kv'
            rw [tailText_cons] at hu
            obtain ⟨rfl, -⟩ := List.cons.inj hu
            apply quoteChar_not_mem_opening hkey
            rw [hopening]
            simp

/-- **One text has only recut readings.** -/
theorem recut_of_text_eq (n : Nat) : ∀ {v w : Str} {R S : List (Str × Str)},
    R.length + S.length < n → (∀ kv ∈ R, IsLabelName kv.1) → (∀ kv ∈ S, IsLabelName kv.1) →
    v ++ tailText R = w ++ tailText S → Recut v R w S := by
  induction n with
  | zero =>
    intro v w R S hlength
    omega
  | succ n ih =>
    intro v w R S hlength hR hS h
    rcases List.append_eq_append_iff.mp h with ⟨s, rfl, hs⟩ | ⟨s, rfl, hs⟩
    · apply recut_of_longer hR hS _ hs
      intro v w R' S' hlt
      exact ih (by omega)
    · apply Recut.symm
      apply recut_of_longer hS hR _ hs
      intro v w R' S' hlt
      exact ih (by omega)

/-- Two readings of one text are recut, and the other way round. -/
theorem recut_iff {v w : Str} {R S : List (Str × Str)} (hR : ∀ kv ∈ R, IsLabelName kv.1)
    (hS : ∀ kv ∈ S, IsLabelName kv.1) :
    Recut v R w S ↔ v ++ tailText R = w ++ tailText S :=
  ⟨Recut.text_eq, recut_of_text_eq _ (Nat.lt_succ_self _) hR hS⟩

/-- **Without a quote in a value** there is one way to cut. -/
theorem Recut.eq_of_no_quote {v w : Str} {R S : List (Str × Str)} (h : Recut v R w S)
    (hv : quoteChar ∉ v) (hw : quoteChar ∉ w) (hR : ∀ kv ∈ R, quoteChar ∉ kv.2)
    (hS : ∀ kv ∈ S, quoteChar ∉ kv.2) : v = w ∧ R = S := by
  induction h with
  | same v => exact ⟨rfl, rfl⟩
  | next v key _ ih =>
    obtain ⟨hx, hR⟩ := List.forall_mem_cons.mp hR
    obtain ⟨hy, hS⟩ := List.forall_mem_cons.mp hS
    obtain ⟨rfl, rfl⟩ := ih hx hy hR hS
    exact ⟨rfl, rfl⟩
  | swallow v key _ _ => exact absurd (by simp) hw
  | symm _ ih =>
    obtain ⟨rfl, rfl⟩ := ih hw hv hS hR
    exact ⟨rfl, rfl⟩

/-! ### Equal names -/

/-- Two objects with one metric name whose labels are cut from one text. -/
def MetricObject.Recut (m m' : MetricObject) : Prop :=
  m.base = m'.base ∧ ∃ key v w R S, m.labels = (key, v) :: R ∧ m'.labels = (key, w) :: S ∧
    IncidentEvidence.Recut v R w S

/-- The labels between the braces, seen from the first value. -/
theorem joinComma_labelText (key v : Str) (R : List (Str × Str)) :
    joinComma (((key, v) :: R).map labelText) =
      key ++ .scalar '=' :: quoteChar :: (v ++ tailText R ++ [quoteChar]) := by
  have htail : ∀ R : List (Str × Str),
      quoteChar :: ((R.map labelText).flatMap fun y => .scalar ',' :: y) =
        tailText R ++ [quoteChar] := by
    intro R
    induction R with
    | nil => rfl
    | cons kv R ih =>
      obtain ⟨k, x⟩ := kv
      have htext : labelText (k, x) = k ++ .scalar '=' :: quoteChar :: (x ++ [quoteChar]) := by
        simp [labelText, str, quoteChar]
      rw [tailText_cons, List.map_cons, List.flatMap_cons, htext]
      simp only [opening, List.cons_append, List.append_assoc, List.nil_append, ← ih]
  have htext : labelText (key, v) = key ++ .scalar '=' :: quoteChar :: (v ++ [quoteChar]) := by
    simp [labelText, str, quoteChar]
  rw [List.map_cons, joinComma, htext]
  simp only [List.cons_append, List.append_assoc, List.nil_append, htail]

/-- A metric name holds no brace. -/
theorem brace_not_mem_base (m : MetricObject) : CodePoint.scalar '\x7b' ∉ m.base := by
  by_cases hbase : m.base = []
  · rw [hbase]
    simp
  · have hname := m.metricName _ (MetricObject.mem_name.mpr ⟨rfl, hbase⟩) rfl
    have hname : IsMetricName m.base := hname
    cases hb : m.base with
    | nil => simp
    | cons c s =>
      rw [hb] at hname
      obtain ⟨hstart, hrest⟩ := hname
      intro hmem
      rcases List.mem_cons.mp hmem with heq | hmem
      · rw [← heq] at hstart
        exact absurd hstart (by decide)
      · exact absurd (hrest _ hmem) (by decide)

/-- The name and the labels are read off the text. -/
theorem base_bracedLabels_inj {m m' : MetricObject}
    (h : m.base ++ bracedLabels m.labels = m'.base ++ bracedLabels m'.labels) :
    m.base = m'.base ∧ bracedLabels m.labels = bracedLabels m'.labels := by
  have hread : ∀ {a a' : MetricObject} {s : Str}, a'.base = a.base ++ s →
      bracedLabels a.labels = s ++ bracedLabels a'.labels → s = [] := by
    intro a a' s hbase htext
    cases s with
    | nil => rfl
    | cons c s =>
      exfalso
      cases hlabels : a.labels with
      | nil =>
        rw [hlabels] at htext
        exact absurd htext (by simp [bracedLabels])
      | cons kv labels =>
        rw [hlabels, bracedLabels_of_ne_nil (by simp), List.cons_append] at htext
        obtain ⟨rfl, -⟩ := List.cons.inj htext
        apply brace_not_mem_base a'
        rw [hbase]
        simp
  rcases List.append_eq_append_iff.mp h with ⟨s, hbase, htext⟩ | ⟨s, hbase, htext⟩
  · obtain rfl := hread hbase htext
    exact ⟨by rw [hbase, List.append_nil], htext⟩
  · obtain rfl := hread hbase htext
    exact ⟨by rw [hbase, List.append_nil], htext.symm⟩

/-- **Two objects get one name** exactly when they are the same mapping or recut from one
    text. -/
theorem seriesName_eq_iff {F : Type} (D : Decoder F) {m m' : MetricObject} :
    seriesName D m.toJson = seriesName D m'.toJson ↔ m.Same m' ∨ m.Recut m' := by
  rw [seriesName_toJson, seriesName_toJson]
  constructor
  · intro h
    obtain ⟨hbase, htext⟩ := base_bracedLabels_inj h
    -- braces stand in the name exactly when there are labels
    cases hlabels : m.labels with
    | nil =>
      left
      rw [MetricObject.same_iff]
      refine ⟨hbase, ?_⟩
      cases hlabels' : m'.labels with
      | nil => exact hlabels
      | cons kv labels =>
        rw [hlabels, hlabels', bracedLabels_of_ne_nil (List.cons_ne_nil kv labels)] at htext
        exact absurd htext (by simp [bracedLabels])
    | cons kv R =>
      cases hlabels' : m'.labels with
      | nil =>
        rw [hlabels, hlabels', bracedLabels_of_ne_nil (by simp)] at htext
        exact absurd htext (by simp [bracedLabels])
      | cons kv' S =>
        right
        obtain ⟨key, v⟩ := kv
        obtain ⟨key', w⟩ := kv'
        have hnames : ∀ kv ∈ m.labels, IsLabelName kv.1 :=
          fun kv => MetricObject.isLabelName_of_mem_labels
        have hnames' : ∀ kv ∈ m'.labels, IsLabelName kv.1 :=
          fun kv => MetricObject.isLabelName_of_mem_labels
        rw [hlabels] at hnames
        rw [hlabels'] at hnames'
        obtain ⟨hkey, hR⟩ := List.forall_mem_cons.mp hnames
        obtain ⟨hkey', hS⟩ := List.forall_mem_cons.mp hnames'
        rw [hlabels, hlabels', bracedLabels_of_ne_nil (by simp),
          bracedLabels_of_ne_nil (by simp), joinComma_labelText, joinComma_labelText] at htext
        have hinner := List.append_cancel_right (List.cons.inj htext).2
        -- no label name has an equals sign, so the first one ends the first name
        obtain ⟨rfl, hvalues⟩ := append_cons_inj (not_mem_of_isLabelName hkey).2
          (not_mem_of_isLabelName hkey').2 hinner
        have hvalues := List.append_cancel_right (List.cons.inj hvalues).2
        exact ⟨hbase, key, v, w, R, S, hlabels, hlabels', (recut_iff hR hS).mpr hvalues⟩
  · intro h
    rcases h with h | ⟨hbase, key, v, w, R, S, hlabels, hlabels', hrecut⟩
    · obtain ⟨hbase, hlabels⟩ := MetricObject.same_iff.mp h
      rw [hbase, hlabels]
    · rw [hbase, hlabels, hlabels', bracedLabels_of_ne_nil (by simp),
        bracedLabels_of_ne_nil (by simp), joinComma_labelText, joinComma_labelText,
        hrecut.text_eq]

/-! ### Responses -/

section response
variable {F : Type} [PyFloat F] (D : Decoder F)

/-- The series of a response, given the metric objects and the samples. -/
def toSeries (response : List (MetricObject × List (PrometheusPoint F))) :
    List (PrometheusSeries F) :=
  response.map fun item => ⟨seriesName D item.1.toJson, item.2⟩

/-- A response with distinct label sets, names that are not blank, and finite samples in
    increasing order of time. -/
structure WellFormedResponse (response : List (MetricObject × List (PrometheusPoint F))) :
    Prop where
  distinct : response.Pairwise fun a b => ¬ a.1.Same b.1
  named : ∀ item ∈ response, isBlank (seriesName D item.1.toJson) = false
  increasing : ∀ item ∈ response,
    (item.2.filter fun sample => PyFloat.isFinite sample.value).Pairwise fun p q => p.at < q.at

/-- The items with a finite sample. -/
def keptItems (response : List (MetricObject × List (PrometheusPoint F))) :
    List (MetricObject × List (PrometheusPoint F)) :=
  response.filter fun item => decide
    ((item.2.filter fun sample => PyFloat.isFinite sample.value) ≠ [])

theorem keptSeries_toSeries (response : List (MetricObject × List (PrometheusPoint F))) :
    keptSeries (toSeries D response) = toSeries D (keptItems response) := by
  simp only [keptSeries, toSeries, keptItems, List.filter_map]
  rfl

/-- **A well-formed response is accepted** exactly when no two of its series with finite
    samples are recut from one text. -/
theorem accepts_iff {response : List (MetricObject × List (PrometheusPoint F))}
    (h : WellFormedResponse D response) :
    (∃ signals, seriesToSignals [] (toSeries D response) = .ok signals) ↔
      (keptItems response).Pairwise fun a b => ¬ a.1.Recut b.1 := by
  have hkept : (keptItems response).Sublist response := List.filter_sublist
  have hnames : ((keptSeries (toSeries D response)).map (·.name)).Nodup ↔
      (keptItems response).Pairwise fun a b => ¬ a.1.Recut b.1 := by
    rw [keptSeries_toSeries, toSeries, List.map_map, List.Nodup, List.pairwise_map]
    have hdistinct := h.distinct.sublist hkept
    constructor
    · intro hpairs
      apply hpairs.imp
      intro a b hne hrecut
      exact hne ((seriesName_eq_iff D).mpr (Or.inr hrecut))
    · intro hpairs
      apply (hdistinct.and hpairs).imp
      intro a b hab heq
      exact ((seriesName_eq_iff D).mp heq).elim hab.1 hab.2
  have heach : ∀ one ∈ keptSeries (toSeries D response), CanBeSignal one := by
    rw [keptSeries_toSeries]
    intro one hone
    obtain ⟨item, hitem, rfl⟩ := List.mem_map.mp hone
    exact ⟨h.named item (hkept.mem hitem), h.increasing item (hkept.mem hitem)⟩
  rw [← hnames]
  constructor
  · intro haccepts
    obtain ⟨signals, hsignals⟩ := haccepts
    exact (seriesToSignals_eq_ok.mp hsignals).2.2.1
  · intro hnodup
    obtain ⟨signals, hsignals⟩ := exists_signals ⟨heach, hnodup⟩
    exact ⟨signals, seriesToSignals_eq_ok.mpr ⟨heach, by simp, hnodup, hsignals⟩⟩

/-- No label value of the object holds a quote. -/
def MetricObject.NoQuotes (m : MetricObject) : Prop := ∀ kv ∈ m.labels, quoteChar ∉ kv.2

theorem MetricObject.same_of_recut {m m' : MetricObject} (hm : m.NoQuotes) (hm' : m'.NoQuotes)
    (h : m.Recut m') : m.Same m' := by
  obtain ⟨hbase, key, v, w, R, S, hlabels, hlabels', hrecut⟩ := h
  unfold NoQuotes at hm hm'
  rw [hlabels, List.forall_mem_cons] at hm
  rw [hlabels', List.forall_mem_cons] at hm'
  obtain ⟨rfl, rfl⟩ := hrecut.eq_of_no_quote hm.1 hm'.1 hm.2 hm'.2
  exact same_iff.mpr ⟨hbase, hlabels.trans hlabels'.symm⟩

/-- **When label sets have names of their own.** Two metric objects that differ get
    different names exactly when they are not recut from one text, and a well-formed
    response is accepted exactly when no two of its series are. Objects whose values
    hold no quote are never recut. -/
theorem series_names_distinct_iff :
    (∀ m m' : MetricObject, (¬ m.Same m' → seriesName D m.toJson ≠ seriesName D m'.toJson) ↔
      (¬ m.Same m' → ¬ m.Recut m')) ∧
    (∀ response, WellFormedResponse D response →
      ((∃ signals, seriesToSignals [] (toSeries D response) = .ok signals) ↔
        (keptItems response).Pairwise fun a b => ¬ a.1.Recut b.1)) ∧
    (∀ m m' : MetricObject, m.NoQuotes → m'.NoQuotes → ¬ m.Same m' → ¬ m.Recut m') := by
  refine ⟨?_, ?_, ?_⟩
  · intro m m'
    constructor
    · intro h hdiffer hrecut
      exact h hdiffer ((seriesName_eq_iff D).mpr (Or.inr hrecut))
    · intro h hdiffer heq
      exact ((seriesName_eq_iff D).mp heq).elim hdiffer (h hdiffer)
  · intro response h
    exact accepts_iff D h
  · intro m m' hm hm' hdiffer hrecut
    exact hdiffer (MetricObject.same_of_recut hm hm' hrecut)

end response

namespace Demo

/-- One label whose value holds the quote, the comma and the name of a second one. -/
def oneLabel : MetricObject where
  fields := [(str "a", str "x\",b=\"y")]
  nodup := by decide
  labelNames := by
    intro kv hkv _
    rw [List.mem_singleton.mp hkv]
    exact ⟨by decide, by decide⟩
  metricName := by
    intro kv hkv hname
    rw [List.mem_singleton.mp hkv] at hname
    exact absurd hname (by decide)

/-- Two labels. -/
def twoLabels : MetricObject where
  fields := [(str "a", str "x"), (str "b", str "y")]
  nodup := by decide
  labelNames := by
    intro kv hkv _
    simp only [List.mem_cons, List.not_mem_nil, or_false] at hkv
    rcases hkv with rfl | rfl <;> exact ⟨by decide, by decide⟩
  metricName := by
    intro kv hkv hname
    simp only [List.mem_cons, List.not_mem_nil, or_false] at hkv
    rcases hkv with rfl | rfl <;> exact absurd hname (by decide)

/-- The two label sets differ, and the name of both is `{a="x",b="y"}`. -/
theorem series_names_collide : ¬ ∀ m m' : MetricObject, ¬ m.Same m' →
    seriesName ascii m.toJson ≠ seriesName ascii m'.toJson := by
  intro h
  apply h oneLabel twoLabels
  · intro hsame
    exact absurd hsame.length_eq (by decide)
  · decide

end Demo

end IncidentEvidence
