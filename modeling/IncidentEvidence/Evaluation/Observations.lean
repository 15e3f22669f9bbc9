import IncidentEvidence.Domain.Evidence.Decisions
import IncidentEvidence.Evaluation.Adapter
import IncidentEvidence.Runtime.Prometheus

/-! # From the cells of a file to the windows of the baseline

    The parser distributes the cells of each row over the columns, drops the gaps, and
    makes a window that ends one microsecond after the last row. The baseline then splits
    each signal at the injection. No observation is lost on the way, and none is invented
    (`observations_preserved`). -/

namespace IncidentEvidence

open Py

section cells
variable {F : Type} [PyFloat F] (C : Platform F)

/-- The observation in a cell of a row at `t`; a gap has none. -/
def cellPoint (t : Datetime) (raw : Str) : Option (MetricPoint F) :=
  if raw = [] then none
  else
    match C.float raw with
    | none => none
    | some value => if h : PyFloat.isFinite value = true then some ⟨t, value, h⟩ else none

/-- The observations in a column of the rows, from the first row to the last. -/
def columnOf (rows : List (List Str × Datetime)) (i : ℕ) : List (MetricPoint F) :=
  rows.filterMap fun (row, t) => row.tail[i]?.bind (cellPoint C t)

variable {C}

theorem cellPoint_eq_none {t : Datetime} {raw : Str} {caseId : CaseId}
    (h : finiteValueOrGap C raw caseId = .ok none) : cellPoint C t raw = none := by
  unfold finiteValueOrGap at h
  unfold cellPoint
  by_cases hraw : raw = []
  · exact if_pos hraw
  · rw [if_neg hraw] at h ⊢
    cases hfloat : C.float raw with
    | none => rfl
    | some value =>
      have hfinite : ¬ PyFloat.isFinite value = true := by
        intro hfinite
        simp [hfloat, hfinite] at h
      exact dif_neg hfinite

theorem cellPoint_eq_some {t : Datetime} {raw : Str} {caseId : CaseId} {v : F}
    (h : finiteValueOrGap C raw caseId = .ok (some v)) :
    cellPoint C t raw = some ⟨t, v, finite_of_finiteValueOrGap h⟩ := by
  have hv := finite_of_finiteValueOrGap h
  unfold finiteValueOrGap at h
  unfold cellPoint
  by_cases hraw : raw = []
  · simp [hraw] at h
  · rw [if_neg hraw] at h ⊢
    cases hfloat : C.float raw with
    | none => simp [hfloat, loadError] at h
    | some value =>
      by_cases hfinite : PyFloat.isFinite value = true
      · obtain rfl : value = v := by simpa [hfloat, hfinite] using h
        exact dif_pos hfinite
      · simp [hfloat, hfinite] at h

/-- The loop over the cells adds to each column the observation in its cell, and counts the
    gaps. -/
theorem readCells_spec {t : Datetime} {caseId : CaseId} {columns : List (List (MetricPoint F))}
    {cells : List Str} {r : List (List (MetricPoint F)) × ℕ}
    (hlength : cells.length = columns.length) (h : readCells C t caseId columns cells = .ok r) :
    r.1 = List.zipWith (fun column raw => column ++ (cellPoint C t raw).toList) columns cells ∧
      r.2 = cells.countP fun raw => (cellPoint C t raw).isNone := by
  induction cells generalizing columns r with
  | nil =>
    obtain rfl := List.length_eq_zero_iff.mp hlength.symm
    have hr : (([] : List (List (MetricPoint F))), 0) = r := by simpa [readCells] using h
    rw [← hr]
    exact ⟨rfl, rfl⟩
  | cons raw cells ih =>
    cases columns with
    | nil => simp at hlength
    | cons column columns =>
      have hrest : cells.length = columns.length := by simpa using hlength
      rw [readCells, bind_eq_ok] at h
      obtain ⟨v, hv, h⟩ := h
      cases v with
      | none =>
        rw [bind_eq_ok] at h
        obtain ⟨rest, hcells, h⟩ := h
        rw [pure_eq_ok] at h
        obtain ⟨hcolumns, hdropped⟩ := ih hrest hcells
        -- a gap adds no point and is counted
        have hgap : cellPoint C t raw = none := cellPoint_eq_none hv
        rw [h, List.zipWith_cons_cons, List.countP_cons, hgap, ← hcolumns, ← hdropped]
        exact ⟨by rw [Option.toList_none, List.append_nil]; rfl, rfl⟩
      | some v =>
        have hpoint := construct_point (t := t) (finite_of_finiteValueOrGap hv)
        simp only [hpoint, bind_eq_ok, Except.ok.injEq, exists_eq_left'] at h
        obtain ⟨rest, hcells, h⟩ := h
        rw [pure_eq_ok] at h
        obtain ⟨hcolumns, hdropped⟩ := ih hrest hcells
        have hsome : cellPoint C t raw = some ⟨t, v, finite_of_finiteValueOrGap hv⟩ :=
          cellPoint_eq_some hv
        rw [h, List.zipWith_cons_cons, List.countP_cons, hsome, ← hcolumns, ← hdropped]
        exact ⟨rfl, rfl⟩

/-- A cell is an observation or a gap. -/
theorem sum_length_zipWith (t : Datetime) {columns : List (List (MetricPoint F))}
    {cells : List Str} (hlength : cells.length = columns.length) :
    ((List.zipWith (fun column raw => column ++ (cellPoint C t raw).toList) columns cells).map
      List.length).sum + (cells.countP fun raw => (cellPoint C t raw).isNone) =
      (columns.map List.length).sum + columns.length := by
  induction cells generalizing columns with
  | nil =>
    obtain rfl := List.length_eq_zero_iff.mp hlength.symm
    rfl
  | cons raw cells ih =>
    cases columns with
    | nil => simp at hlength
    | cons column columns =>
      have hshorter : cells.length = columns.length := by simpa using hlength
      have hrest := ih hshorter
      cases hpoint : cellPoint C t raw with
      | none =>
        simp only [List.zipWith_cons_cons, List.map_cons, List.sum_cons, List.countP_cons, hpoint,
          Option.toList_none, List.append_nil, List.length_cons]
        simp only [Option.isNone_none, if_true]
        omega
      | some point =>
        simp only [List.zipWith_cons_cons, List.map_cons, List.sum_cons, List.countP_cons, hpoint,
          Option.toList_some, List.length_append, List.length_cons]
        simp only [Option.isNone_some, Bool.false_eq_true, if_false, List.length_nil]
        omega

/-! ### The table -/

/-- The table holds the observations of the rows, and the number of their gaps. -/
structure Distributed (C : Platform F) (header : List Str) (rows : List (List Str × Datetime))
    (table : MetricTable F) : Prop where
  columns : table.columns = (List.range header.tail.length).map (columnOf C rows)
  rowCount : table.rowCount = rows.length
  cells : (table.columns.map List.length).sum + table.droppedCellCount =
    rows.length * header.tail.length

variable {limits : LoaderLimits} {caseId : CaseId} {header row : List Str} {ts : List Datetime}
  {table table' : MetricTable F}

/-- What a row that passes the loop went through. -/
theorem readRow_steps (hheader : header ≠ [])
    (h : readRow C limits caseId header table row = .ok table') :
    ∃ t r, parseTimestamp C (row.headD []) caseId = .ok t ∧
      row.tail.length = header.tail.length ∧ readCells C t caseId table.columns row.tail = .ok r ∧
      table' = ⟨table.timestamps ++ [t], r.1, table.rowCount + 1, table.droppedCellCount + r.2⟩ := by
  have hchecked : row.length ≤ limits.maxColumns ∧
      table.rowCount + 1 ≤ limits.maxDataRows ∧ row.length = header.length := by
    by_contra hunchecked
    obtain ⟨code, hcode⟩ : ∃ code, readRow C limits caseId header table row =
      loadError code caseId := readRow_unchecked hunchecked
    rw [hcode] at h
    exact absurd h (by simp [loadError])
  obtain ⟨hcolumns, hrows, hwidth⟩ := hchecked
  cases hrow : row with
  | nil =>
    rw [hrow] at hwidth
    exact absurd (List.length_eq_zero_iff.mp hwidth.symm) hheader
  | cons first cells =>
    rw [readRow_checked hcolumns hrows hwidth hrow, bind_eq_ok] at h
    obtain ⟨t, ht, h⟩ := h
    by_cases hlast : ∃ last ∈ table.timestamps.getLast?, t ≤ last
    · rw [if_pos hlast] at h
      exact absurd h (by simp [loadError])
    · rw [if_neg hlast, bind_eq_ok] at h
      obtain ⟨r, hr, h⟩ := h
      rw [pure_eq_ok] at h
      refine ⟨t, r, ht, ?_, hr, h⟩
      rw [hrow] at hwidth
      rw [List.length_tail, List.length_tail, hwidth]

theorem zipWith_map_range {α β : Type} (n : ℕ) (g : ℕ → List α) (f : β → Option α) {cells : List β}
    (hlength : cells.length = n) :
    List.zipWith (fun column raw => column ++ (f raw).toList) ((List.range n).map g) cells =
      (List.range n).map fun i => g i ++ (cells[i]?.bind f).toList := by
  apply List.ext_getElem
  · simp [hlength]
  · intro i h₁ h₂
    have hi : i < cells.length := by
      rw [List.length_map, List.length_range] at h₂
      omega
    rw [List.getElem_zipWith, List.getElem_map, List.getElem_range, List.getElem_map,
      List.getElem_range, List.getElem?_eq_getElem hi]
    rfl

/-- One row is distributed over the columns. -/
theorem Distributed.readRow {rows : List (List Str × Datetime)} (hheader : header ≠ [])
    (hd : Distributed C header rows table)
    (h : readRow C limits caseId header table row = .ok table') :
    ∃ t, parseTimestamp C (row.headD []) caseId = .ok t ∧
      table'.timestamps = table.timestamps ++ [t] ∧
      Distributed C header (rows ++ [(row, t)]) table' := by
  obtain ⟨t, r, ht, hwidth, hr, rfl⟩ := readRow_steps hheader h
  have hcolumns : table.columns.length = header.tail.length := by
    rw [hd.columns, List.length_map, List.length_range]
  obtain ⟨hfilled, hdropped⟩ := readCells_spec (hwidth.trans hcolumns.symm) hr
  refine ⟨t, ht, rfl, ?_, ?_, ?_⟩
  · show r.1 = _
    rw [hfilled, hd.columns, zipWith_map_range _ _ _ hwidth]
    apply List.map_congr_left
    intro i _
    have hone : ∀ f : List Str × Datetime → Option (MetricPoint F),
        [(row, t)].filterMap f = (f (row, t)).toList := by
      intro f
      rw [List.filterMap_cons]
      cases f (row, t) with
      | none => rfl
      | some point => rfl
    unfold columnOf
    rw [List.filterMap_append, hone]
  · show table.rowCount + 1 = _
    rw [hd.rowCount, List.length_append, List.length_singleton]
  · show (r.1.map List.length).sum + (table.droppedCellCount + r.2) = _
    have hsum := sum_length_zipWith (C := C) t (hwidth.trans hcolumns.symm)
    rw [← hfilled, ← hdropped, hcolumns] at hsum
    rw [List.length_append, List.length_singleton, Nat.add_mul, ← hd.cells]
    omega

/-- **Every row is distributed over the columns.** -/
theorem Distributed.readRows {seen : List (List Str × Datetime)} {rows : List (List Str)}
    (hheader : header ≠ []) (hd : Distributed C header seen table)
    (h : rows.foldlM (IncidentEvidence.readRow C limits caseId header) table = .ok table') :
    ∃ ts, List.Forall₂ (fun row t => parseTimestamp C (row.headD []) caseId = .ok t) rows ts ∧
      table'.timestamps = table.timestamps ++ ts ∧
      Distributed C header (seen ++ rows.zip ts) table' := by
  induction rows generalizing seen table with
  | nil =>
    obtain rfl : table = table' := by simpa [pure, Except.pure] using h
    refine ⟨[], .nil, (List.append_nil _).symm, ?_⟩
    rw [List.zip_nil_left, List.append_nil]
    exact hd
  | cons row rows ih =>
    rw [List.foldlM_cons, bind_eq_ok] at h
    obtain ⟨middle, hmiddle, h⟩ := h
    obtain ⟨t, ht, htimes, hnext⟩ := hd.readRow hheader hmiddle
    obtain ⟨ts, hts, htimes', hrest⟩ := ih hnext h
    refine ⟨t :: ts, .cons ht hts, ?_, ?_⟩
    · rw [htimes', htimes, List.append_assoc]
      rfl
    · rw [List.append_assoc] at hrest
      exact hrest

theorem distributed_empty : Distributed C header [] (emptyTable F header) := by
  refine ⟨?_, rfl, ?_⟩
  · show header.tail.map (fun _ => []) = (List.range header.tail.length).map fun _ => []
    rw [List.map_const', List.map_const', List.length_range]
  · show ((header.tail.map fun _ => ([] : List (MetricPoint F))).map List.length).sum + 0 = _
    rw [List.map_map, List.length_nil, Nat.zero_mul, Nat.add_zero]
    exact List.sum_eq_zero fun n hn => by
      obtain ⟨_, -, rfl⟩ := List.mem_map.mp hn
      rfl

/-- The rows behind a table. -/
theorem readTable_rows {text : Str} (h : readTable C limits caseId text = .ok (header, table)) :
    ∃ rows, Csv.reader limits.maxFieldCharacters text = (header :: rows, none) ∧
      HeaderAccepted header ∧ rows ≠ [] ∧
      rows.foldlM (readRow C limits caseId header) (emptyTable F header) = .ok table := by
  obtain ⟨hfits, ⟨header', rows, hread, hwide, hheader, hrows, -⟩, -⟩ := readTable_eq_ok h
  rw [readTable_of_header hfits hread hwide hheader, bind_eq_ok] at h
  obtain ⟨table', htable, h⟩ := h
  by_cases hcount : table'.rowCount = 0
  · simp [hcount, loadError] at h
  · simp only [hcount, if_false, pure_eq_ok, Prod.mk.injEq] at h
    obtain ⟨rfl, rfl⟩ := h
    exact ⟨rows, hread, hheader, hrows, htable⟩

/-! ### Cases -/

/-- What `parse_case` read, when it returns a case. -/
theorem parseCase_steps {metricFile injectionFile : Option File} {c : ParsedCase F}
    (h : parseCase C limits metricFile injectionFile caseId = .ok c) :
    ∃ text header rows table injection,
      ReadsText C.ssizeMax limits.maxMetricFileBytes metricFile text ∧
      Csv.reader limits.maxFieldCharacters text = (header :: rows, none) ∧
      HeaderAccepted header ∧ rows ≠ [] ∧
      rows.foldlM (readRow C limits caseId header) (emptyTable F header) = .ok table ∧
      assemble header table injection = .ok (c.window, c.signals) ∧
      c.rowCount = table.rowCount ∧ c.columnCount = header.length ∧
      c.droppedCellCount = table.droppedCellCount := by
  unfold parseCase at h
  rw [bind_eq_ok] at h
  obtain ⟨text, htext, h⟩ := h
  rw [bind_eq_ok] at h
  obtain ⟨⟨header, table⟩, hmetrics, h⟩ := h
  simp only [bind_eq_ok, pure_eq_ok] at h
  obtain ⟨injectionText, -, injection, -, ⟨window, signals⟩, hassemble, rfl⟩ := h
  have hassembled : assemble header table injection = .ok (window, signals) := by
    unfold catchOverflowOrValue at hassemble
    split at hassemble
    · next hok => rw [hok, ← Except.ok.inj hassemble]
    · split at hassemble
      · exact absurd hassemble (by simp [loadError])
      · exact absurd hassemble (by simp)
  unfold parseMetricCsv at hmetrics
  rw [bind_eq_ok] at hmetrics
  obtain ⟨_, -, hmetrics⟩ := hmetrics
  obtain ⟨rows, hread, hheader, hrows, htable⟩ :=
    readTable_rows (catchCsvError_eq_ok.mp hmetrics)
  exact ⟨text, header, rows, table, injection, boundedText_eq_ok.mp htext, hread, hheader, hrows,
    htable, hassembled, rfl, rfl, rfl⟩

/-- What a case is assembled from. -/
theorem assemble_eq_ok {injection : Datetime} {window : IncidentWindow}
    {signals : List (MetricSignal F)}
    (h : assemble header table injection = .ok (window, signals)) :
    ∃ first last, table.timestamps.head? = some first ∧ table.timestamps.getLast? = some last ∧
      last.add 1 = some window.end ∧ window.start = first ∧ window.Valid ∧
      header.tail.length = table.columns.length ∧
      List.Forall₂ (fun column signal => signal.key.value = column.1 ∧ signal.points = column.2)
        (header.tail.zip table.columns) signals := by
  unfold assemble at h
  simp only [bind_eq_ok, orRaise_eq_ok, require_eq_ok, pure_eq_ok, mapM_eq_ok] at h
  obtain ⟨last, hlast, «end», hend, first, hfirst, w, hw, l, hl, _, hlength, heq⟩ := h
  obtain ⟨rfl, rfl⟩ := Prod.mk.inj heq
  have hconstruct : IncidentWindow.construct first injection «end» = .ok window := by
    cases hc : IncidentWindow.construct first injection «end» with
    | error e => simp [hc, raiseDomain] at hw
    | ok w' =>
      rw [hc] at hw
      rw [Except.ok.inj hw]
  obtain ⟨hvalid, hwindow⟩ := IncidentWindow.construct_eq_ok.mp hconstruct
  refine ⟨first, last, hfirst, hlast, ?_, ?_, hvalid, hlength, ?_⟩
  · rw [hwindow]
    exact hend
  · rw [hwindow]
  · refine hl.imp fun column signal hsignal => ?_
    obtain ⟨key, hkey, hmetric⟩ := hsignal
    unfold SignalKey.construct at hkey
    unfold MetricSignal.construct at hmetric
    by_cases hblank : isBlank column.1 = false
    · rw [dif_pos hblank] at hkey
      obtain rfl := Except.ok.inj hkey
      by_cases hchain : column.2.IsChain fun p q => p.observedAt < q.observedAt
      · rw [dif_pos hchain] at hmetric
        obtain rfl := Except.ok.inj hmetric
        exact ⟨rfl, rfl⟩
      · rw [dif_neg hchain] at hmetric
        exact absurd hmetric (by simp [raiseDomain])
    · rw [dif_neg hblank] at hkey
      exact absurd hkey (by simp [raiseDomain])

/-- A point of a column was observed at one of the instants. -/
theorem observedAt_columnOf {rows : List (List Str × Datetime)} {i : ℕ} {p : MetricPoint F}
    (h : p ∈ columnOf C rows i) : p.observedAt ∈ rows.map Prod.snd := by
  obtain ⟨⟨row, t⟩, hrow, hcell⟩ := List.mem_filterMap.mp h
  obtain ⟨raw, -, hpoint⟩ := Option.bind_eq_some_iff.mp hcell
  have ht : p.observedAt = t := by
    unfold cellPoint at hpoint
    by_cases hraw : raw = []
    · rw [if_pos hraw] at hpoint
      exact absurd hpoint (by simp)
    · rw [if_neg hraw] at hpoint
      cases hfloat : C.float raw with
      | none => simp [hfloat] at hpoint
      | some value =>
        by_cases hfinite : PyFloat.isFinite value = true
        · simp only [hfloat, hfinite, dif_pos, Option.some.injEq] at hpoint
          rw [← hpoint]
        · simp [hfloat, hfinite] at hpoint
  rw [ht]
  exact List.mem_map.mpr ⟨(row, t), hrow, rfl⟩

/-- The instants of a file lie in the window made of its first and last one: the end is one
    microsecond after the last. -/
theorem mem_window {ts : List Datetime} {first last «end» t : Datetime}
    (hchain : ts.IsChain (· < ·)) (hfirst : ts.head? = some first)
    (hlast : ts.getLast? = some last) (hend : last.add 1 = some «end») (ht : t ∈ ts) :
    first ≤ t ∧ t < «end» := by
  have hpairwise : ts.Pairwise (· < ·) := List.isChain_iff_pairwise.mp hchain
  have hafter : last < «end» := by
    unfold Datetime.add at hend
    by_cases hrange : 0 ≤ (last.micros : ℤ) + 1 ∧ ((last.micros : ℤ) + 1).toNat < maxMicros
    · rw [dif_pos hrange] at hend
      rw [← Option.some.inj hend]
      show last.micros < ((last.micros : ℤ) + 1).toNat
      omega
    · rw [dif_neg hrange] at hend
      exact absurd hend (by simp)
  constructor
  · obtain ⟨rest, rfl⟩ := List.head?_eq_some_iff.mp hfirst
    rcases List.mem_cons.mp ht with rfl | ht
    · exact le_refl _
    · exact le_of_lt ((List.pairwise_cons.mp hpairwise).1 t ht)
  · obtain ⟨init, rfl⟩ := List.getLast?_eq_some_iff.mp hlast
    rcases List.mem_append.mp ht with ht | ht
    · exact lt_trans ((List.pairwise_append.mp hpairwise).2.2 t ht last (by simp)) hafter
    · rw [List.mem_singleton.mp ht]
      exact hafter

/-! ### The windows of the baseline -/

/-- A point inside the window is before the injection or not, and is counted once. -/
theorem length_windows {window : IncidentWindow} {signal : MetricSignal F}
    (h : ∀ p ∈ signal.points, window.start ≤ p.observedAt ∧ p.observedAt < window.end) :
    (preValues window signal).length + (postValues window signal).length = signal.points.length := by
  have hpre : (preValues window signal).length =
      signal.points.countP fun p => decide (p.observedAt < window.injection) := by
    unfold preValues
    rw [List.length_map, ← List.countP_eq_length_filter]
    apply List.countP_congr
    intro p hp
    simp [(h p hp).1]
  have hpost : (postValues window signal).length =
      signal.points.countP fun p => decide ¬ decide (p.observedAt < window.injection) = true := by
    unfold postValues
    rw [List.length_map, ← List.countP_eq_length_filter]
    apply List.countP_congr
    intro p hp
    simp [(h p hp).2]
  rw [hpre, hpost]
  exact (List.length_eq_countP_add_countP _).symm

/-- The evaluations of a result count the points of every input. -/
theorem sum_counts {window : IncidentWindow} {inputs : List (SignalBaselineInput F)}
    {policy : BaselinePolicy F} {result : BaselineResult F}
    (hresult : rankMetricShifts window inputs policy = .ok result)
    (h : ∀ item ∈ inputs, ∀ p ∈ item.signal.points,
      window.start ≤ p.observedAt ∧ p.observedAt < window.end) :
    (result.signalEvaluations.map fun e => e.prePointCount + e.postPointCount).sum =
      ((inputs.map fun item => item.signal.points.length).sum : ℕ) := by
  obtain ⟨-, evaluations, hevaluations, rfl⟩ := rankMetricShifts_eq_ok.mp hresult
  have hsum : ((sortedOn (fun e => e.signalKey.value) evaluations).map
      fun e => e.prePointCount + e.postPointCount).sum =
      (evaluations.map fun e => e.prePointCount + e.postPointCount).sum :=
    ((perm_sortedOn _ evaluations).map _).sum_eq
  rw [Decisions.rankOrAbstain_signalEvaluations, hsum]
  clear hresult hsum
  induction hevaluations with
  | nil => rfl
  | @cons item e inputs evaluations he _ ih =>
    obtain ⟨hitem, hinputs⟩ := List.forall_mem_cons.mp h
    have hcount := length_windows hitem
    rw [List.map_cons, List.sum_cons, ih hinputs, List.map_cons, List.sum_cons, he.preCount,
      he.postCount]
    push_cast
    omega

/-! ### From the file to the baseline -/

/-- **No observation is lost or invented**: the signals are the columns of the file after the
    time, their points are the cells that hold a finite number, and the baseline counts each
    of them in one of its two windows. -/
theorem observations_preserved {metricFile injectionFile : Option File} {c : ParsedCase F}
    (h : parseCase C limits metricFile injectionFile caseId = .ok c) :
    ∃ text header rows ts,
      ReadsText C.ssizeMax limits.maxMetricFileBytes metricFile text ∧
      Csv.reader limits.maxFieldCharacters text = (header :: rows, none) ∧
      List.Forall₂ (fun row t => parseTimestamp C (row.headD []) caseId = .ok t) rows ts ∧
      c.rowCount = rows.length ∧ c.columnCount = header.length ∧
      c.signals.map (·.key.value) = header.tail ∧ (c.signals.map (·.key)).Nodup ∧
      c.signals.map (·.points) =
        (List.range header.tail.length).map (columnOf C (rows.zip ts)) ∧
      (∀ signal ∈ c.signals, signal.points.Pairwise (fun p q => p.observedAt < q.observedAt) ∧
        ∀ p ∈ signal.points, c.window.start ≤ p.observedAt ∧ p.observedAt < c.window.end) ∧
      c.rowCount * (c.columnCount - 1) =
        c.droppedCellCount + (c.signals.map (·.points.length)).sum ∧
      ∀ floorPolicy inputs policy result, toBaselineInputs floorPolicy c.signals = .ok inputs →
        rankMetricShifts c.window inputs policy = .ok result →
        (result.signalEvaluations.map fun e => e.prePointCount + e.postPointCount).sum =
          ((c.rowCount * (c.columnCount - 1) : ℕ) : ℤ) - c.droppedCellCount := by
  obtain ⟨text, header, rows, table, injection, htext, hread, hheader, -, htable, hassemble,
    hrowCount, hcolumnCount, hdropped⟩ := parseCase_steps h
  obtain ⟨ts, hts, htimes, hfilled⟩ := distributed_empty.readRows hheader.ne_nil htable
  obtain ⟨ts', -, hchain, -, hof⟩ :=
    readRows_eq_ok hheader.ne_nil tableOf_empty .nil (Nat.zero_le _) htable
  rw [List.nil_append] at hchain hof hfilled
  have hsame : ts' = ts := hof.timestamps.symm.trans (htimes.trans (List.nil_append ts))
  rw [hsame] at hchain hof
  have hzip : (rows.zip ts).map Prod.snd = ts := List.map_snd_zip (le_of_eq hts.length_eq.symm)
  obtain ⟨first, last, hfirst, hlast, hend, hstart, hvalid, hlength, hsignals⟩ :=
    assemble_eq_ok hassemble
  rw [hof.timestamps] at hfirst hlast
  have hkeys : c.signals.map (·.key.value) = header.tail := by
    have hnames : (header.tail.zip table.columns).map Prod.fst = header.tail :=
      List.map_fst_zip (le_of_eq hlength)
    have hnamed : List.Forall₂ (fun (column : Str × List (MetricPoint F)) name => name = column.1)
        (header.tail.zip table.columns) (c.signals.map (·.key.value)) :=
      List.forall₂_map_right_iff.mpr (hsignals.imp fun _ _ hsignal => hsignal.1)
    rw [← hnames]
    exact map_eq_of_forall₂ hnamed fun _ _ hname => hname
  have hpoints : c.signals.map (·.points) = table.columns := by
    have hcolumns : (header.tail.zip table.columns).map Prod.snd = table.columns :=
      List.map_snd_zip (le_of_eq hlength.symm)
    have hpointed : List.Forall₂ (fun (column : Str × List (MetricPoint F)) points => points = column.2)
        (header.tail.zip table.columns) (c.signals.map (·.points)) :=
      List.forall₂_map_right_iff.mpr (hsignals.imp fun _ _ hsignal => hsignal.2)
    rw [← hcolumns]
    exact map_eq_of_forall₂ hpointed fun _ _ hpoints => hpoints
  have hinside : ∀ signal ∈ c.signals, ∀ p ∈ signal.points,
      c.window.start ≤ p.observedAt ∧ p.observedAt < c.window.end := by
    intro signal hsignal p hp
    have hcolumn : signal.points ∈ table.columns := by
      rw [← hpoints]
      exact List.mem_map.mpr ⟨signal, hsignal, rfl⟩
    rw [hfilled.columns] at hcolumn
    obtain ⟨i, -, hi⟩ := List.mem_map.mp hcolumn
    rw [← hi] at hp
    have ht := observedAt_columnOf hp
    rw [hzip] at ht
    rw [hstart]
    exact mem_window hchain hfirst hlast hend ht
  have hlengths : (c.signals.map (·.points.length)).sum = (table.columns.map List.length).sum := by
    rw [← hpoints, List.map_map]
    rfl
  have hcells := hfilled.cells
  have hcount : c.rowCount * (c.columnCount - 1) =
      c.droppedCellCount + (c.signals.map (·.points.length)).sum := by
    rw [hlengths, hrowCount, hcolumnCount, hdropped, hfilled.rowCount, ← List.length_tail, ← hcells,
      Nat.add_comm]
  refine ⟨text, header, rows, ts, htext, hread, hts, ?_, hcolumnCount, hkeys, ?_, ?_, ?_, hcount, ?_⟩
  · rw [hrowCount, hfilled.rowCount, List.length_zip, hts.length_eq, min_self]
  · -- distinct names are distinct keys
    have hnodup : header.tail.Nodup := hheader.2.2.2.tail
    rw [← hkeys] at hnodup
    apply List.Nodup.of_map SignalKey.value
    rw [List.map_map]
    exact hnodup
  · rw [hpoints, hfilled.columns]
  · intro signal hsignal
    exact ⟨signal.increasing, hinside signal hsignal⟩
  · intro floorPolicy inputs policy result hinputs hresult
    have hcarried := signals_of_inputs hinputs
    have hitems : ∀ item ∈ inputs, ∀ p ∈ item.signal.points,
        c.window.start ≤ p.observedAt ∧ p.observedAt < c.window.end := by
      intro item hitem
      apply hinside
      rw [← hcarried]
      exact List.mem_map.mpr ⟨item, hitem, rfl⟩
    have hsum : (inputs.map fun item => item.signal.points.length).sum =
        (c.signals.map (·.points.length)).sum := by
      rw [← hcarried, List.map_map]
      rfl
    rw [sum_counts hresult hitems, hsum, hcount]
    push_cast
    omega

end cells

/-! ### A file with a gap -/

namespace Demo

/-- The start of the epoch and the minute after it. -/
def epochMinute (minutes : Fin 2) : Datetime :=
  ⟨62135596800000000 + minutes * 60000000, by unfold maxMicros; omega⟩

/-- A 64-bit platform that reads three numbers, two of them as times. -/
def minutes : Platform ExactFloat where
  float text :=
    if text = str "0" then some (.fin 0)
    else if text = str "60" then some (.fin 60)
    else if text = str "1" then some (.fin 1)
    else none
  fromtimestamp x :=
    if x = .fin 0 then .ok (epochMinute 0)
    else if x = .fin 60 then .ok (epochMinute 1)
    else .error .os
  fromisoformat _ := none
  longMax := 2 ^ 63 - 1
  ssizeMax := 2 ^ 63 - 34

/-- Two columns over two rows; the first row has a gap. -/
def gap : List UInt8 := "time,a_cpu,b_mem\n0,1,\n60,1,0\n".toUTF8.data.toList

def gapInjection : List UInt8 := "60\n".toUTF8.data.toList

theorem gap_reads : ReadsText minutes.ssizeMax LoaderLimits.default.maxMetricFileBytes
    (some (.regular gap)) (str "time,a_cpu,b_mem\n0,1,\n60,1,0\n") := by
  refine ⟨gap, rfl, by decide, by decide, by decide, decodeUtf8Sig_toUTF8 ?_⟩
  decide

theorem gapInjection_reads : ReadsText minutes.ssizeMax
    LoaderLimits.default.maxInjectTimeFileBytes (some (.regular gapInjection)) (str "60\n") := by
  refine ⟨gapInjection, rfl, by decide, by decide, by decide, decodeUtf8Sig_toUTF8 ?_⟩
  decide

theorem gap_parses (id : CaseId) : (parseCase minutes .default (some (.regular gap))
    (some (.regular gapInjection)) id).isOk = true := by
  unfold parseCase
  rw [boundedText_eq_ok.mpr gap_reads, boundedText_eq_ok.mpr gapInjection_reads]
  rfl

/-- What is read from the file. -/
theorem gap_parsed : (parseCase minutes .default (some (.regular gap))
      (some (.regular gapInjection)) caseId).toOption.map (fun c =>
        (c.rowCount, c.columnCount, c.droppedCellCount, c.signals.map (·.key.value))) =
      some (2, 3, 1, [str "a_cpu", str "b_mem"]) := by
  unfold parseCase
  rw [boundedText_eq_ok.mpr gap_reads, boundedText_eq_ok.mpr gapInjection_reads]
  decide +kernel

/-- And it is ranked. -/
theorem gap_ranked : ((parseCase minutes .default (some (.regular gap))
      (some (.regular gapInjection)) caseId).toOption.any fun c =>
        (toBaselineInputs .default c.signals).toOption.any fun inputs =>
          (rankMetricShifts c.window inputs policy).isOk) = true := by
  unfold parseCase
  rw [boundedText_eq_ok.mpr gap_reads, boundedText_eq_ok.mpr gapInjection_reads]
  decide +kernel

end Demo

open Demo in
/-- The file with a gap has three observations, under both names, and the baseline counts them all. -/
theorem observations_preserved_demo : ∃ c text header rows inputs result,
    parseCase minutes .default (some (.regular gap)) (some (.regular gapInjection)) caseId = .ok c ∧
      ReadsText minutes.ssizeMax LoaderLimits.default.maxMetricFileBytes (some (.regular gap)) text ∧
      Csv.reader LoaderLimits.default.maxFieldCharacters text = (header :: rows, none) ∧
      rows.length = 2 ∧ header.tail = [str "a_cpu", str "b_mem"] ∧
      (c.signals.map (·.points.length)).sum = 3 ∧
      (∀ signal ∈ c.signals, ∀ p ∈ signal.points,
        c.window.start ≤ p.observedAt ∧ p.observedAt < c.window.end) ∧
      toBaselineInputs .default c.signals = .ok inputs ∧
      rankMetricShifts c.window inputs policy = .ok result ∧
      (result.signalEvaluations.map fun e => e.prePointCount + e.postPointCount).sum = 3 := by
  obtain ⟨c, hc⟩ := exists_of_isOk (gap_parses caseId)
  have hparsed := gap_parsed
  rw [hc] at hparsed
  obtain ⟨hrows, hcolumns, hdropped, hnames⟩ : c.rowCount = 2 ∧ c.columnCount = 3 ∧
      c.droppedCellCount = 1 ∧ c.signals.map (·.key.value) = [str "a_cpu", str "b_mem"] := by
    simpa only [Prod.mk.injEq] using Option.some.inj hparsed
  obtain ⟨inputs, result, hinputs, hresult⟩ : ∃ inputs result,
      toBaselineInputs .default c.signals = .ok inputs ∧
      rankMetricShifts c.window inputs policy = .ok result := by
    have hranked := gap_ranked
    rw [hc] at hranked
    cases hinputs : toBaselineInputs .default c.signals with
    | error e => simp [Except.toOption, hinputs] at hranked
    | ok inputs =>
      obtain ⟨result, hresult⟩ : ∃ result, rankMetricShifts c.window inputs policy = .ok result :=
        exists_of_isOk (by simpa [Except.toOption, hinputs] using hranked)
      exact ⟨inputs, result, rfl, hresult⟩
  obtain ⟨text, header, rows, _, htext, hread, -, hrowCount, -, hkeys, -, -, hinside, hcount, hbaseline⟩ :=
    observations_preserved hc
  have hsum := hbaseline _ _ _ _ hinputs hresult
  rw [hrows, hcolumns, hdropped] at hcount hsum
  exact ⟨c, text, header, rows, inputs, result, hc, htext, hread, hrowCount.symm.trans hrows,
    hkeys.symm.trans hnames, by omega, fun signal hsignal => (hinside signal hsignal).2, hinputs, hresult,
    by simpa using hsum⟩

end IncidentEvidence
