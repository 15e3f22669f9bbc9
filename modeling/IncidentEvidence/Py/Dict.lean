import Mathlib

/-! # Python dictionaries

    A `dict` lists its keys in the order of their first insertion, and setting a
    key that is present keeps its place. `setEntry` is that update on a list of
    entries; `Dict` is a list of entries with distinct keys.

    The lemmas give `get?`, membership and the values of a dictionary after one
    update (`get?_set`, `mem_values_set`).
-/

namespace Py

variable {K V : Type} [DecidableEq K]

/-! ### Entries -/

/-- `d[k] = v` on the entries of a dictionary. -/
def setEntry (k : K) (v : V) : List (K × V) → List (K × V)
  | [] => [(k, v)]
  | (k', v') :: rest => if k' = k then (k, v) :: rest else (k', v') :: setEntry k v rest

@[simp] theorem mem_keys_setEntry {k k' : K} {v : V} {l : List (K × V)} :
    k' ∈ (setEntry k v l).map Prod.fst ↔ k' = k ∨ k' ∈ l.map Prod.fst := by
  induction l with
  | nil => simp [setEntry]
  | cons e l ih =>
    obtain ⟨a, b⟩ := e
    unfold setEntry
    by_cases h : a = k
    · simp [h]
    · rw [if_neg h]
      simp only [List.map_cons, List.mem_cons, ih]
      tauto

/-- An update keeps the keys distinct. -/
theorem nodup_setEntry {k : K} {v : V} {l : List (K × V)} (h : (l.map Prod.fst).Nodup) :
    ((setEntry k v l).map Prod.fst).Nodup := by
  induction l with
  | nil => simp [setEntry]
  | cons e l ih =>
    obtain ⟨a, b⟩ := e
    obtain ⟨hnotin, hnodup⟩ := List.nodup_cons.mp h
    unfold setEntry
    by_cases hk : a = k
    · subst hk
      rw [if_pos rfl]
      exact List.nodup_cons.mpr ⟨hnotin, hnodup⟩
    · rw [if_neg hk]
      refine List.nodup_cons.mpr ⟨?_, ih hnodup⟩
      intro hmem
      rcases mem_keys_setEntry.mp hmem with heq | hmem
      · exact hk heq
      · exact hnotin hmem

theorem lookup_cons_eq (a k : K) (b : V) (l : List (K × V)) :
    ((a, b) :: l).lookup k = if k = a then some b else l.lookup k := by
  rw [List.lookup_cons]
  by_cases h : k = a
  · rw [if_pos h, beq_iff_eq.mpr h]
  · rw [if_neg h, beq_eq_false_iff_ne.mpr h]

theorem lookup_setEntry (k k' : K) (v : V) (l : List (K × V)) :
    (setEntry k v l).lookup k' = if k' = k then some v else l.lookup k' := by
  induction l with
  | nil => rw [setEntry, lookup_cons_eq]
  | cons e l ih =>
    obtain ⟨a, b⟩ := e
    unfold setEntry
    by_cases hk : a = k
    · subst hk
      rw [if_pos rfl, lookup_cons_eq, lookup_cons_eq]
      by_cases h : k' = a
      · rw [if_pos h, if_pos h]
      · rw [if_neg h, if_neg h, if_neg h]
    · rw [if_neg hk, lookup_cons_eq, lookup_cons_eq, ih]
      by_cases h : k' = a
      · have hne : k' ≠ k := fun heq => hk (h.symm.trans heq)
        rw [if_pos h, if_neg hne, if_pos h]
      · rw [if_neg h, if_neg h]

theorem setEntry_setEntry (k : K) (v w : V) (l : List (K × V)) :
    setEntry k w (setEntry k v l) = setEntry k w l := by
  induction l with
  | nil => simp [setEntry]
  | cons e l ih =>
    obtain ⟨a, b⟩ := e
    by_cases hk : a = k
    · simp [setEntry, hk]
    · simp [setEntry, hk, ih]

theorem map_setEntry {W : Type} (f : V → W) (k : K) (v : V) (l : List (K × V)) :
    (setEntry k v l).map (fun e => (e.1, f e.2)) = setEntry k (f v) (l.map fun e => (e.1, f e.2)) := by
  induction l with
  | nil => rfl
  | cons e l ih =>
    obtain ⟨a, b⟩ := e
    by_cases hk : a = k
    · simp [setEntry, hk]
    · simp [setEntry, hk, ih]

theorem lookup_eq_none_of_not_mem {k : K} {l : List (K × V)} (h : k ∉ l.map Prod.fst) :
    l.lookup k = none := by
  rw [List.lookup_eq_none_iff]
  intro e he
  have hne : k ≠ e.1 := fun heq => h (List.mem_map.mpr ⟨e, he, heq.symm⟩)
  exact bne_iff_ne.mpr hne

/-- Keeping the last match of a scan is a lookup, since the keys are distinct. -/
theorem foldl_match_eq_lookup {l : List (K × V)} (h : (l.map Prod.fst).Nodup) (k : K)
    (found : Option V) :
    l.foldl (fun found e => if e.1 = k then some e.2 else found) found = (l.lookup k).or found := by
  induction l generalizing found with
  | nil => rfl
  | cons e l ih =>
    obtain ⟨a, b⟩ := e
    obtain ⟨hfresh, hl⟩ := List.nodup_cons.mp h
    rw [List.foldl_cons, ih hl, lookup_cons_eq]
    by_cases hk : a = k
    · subst hk
      rw [if_pos rfl, if_pos rfl, lookup_eq_none_of_not_mem hfresh]
      rfl
    · rw [if_neg hk, if_neg (Ne.symm hk)]

/-! ### Dictionaries -/

variable (K V) in
/-- A dictionary: its entries in insertion order, with distinct keys. -/
structure Dict where
  entries : List (K × V)
  nodup : (entries.map Prod.fst).Nodup

namespace Dict

omit [DecidableEq K] in
@[ext] theorem ext {d d' : Dict K V} (h : d.entries = d'.entries) : d = d' := by
  cases d
  cases d'
  cases h
  rfl

instance [DecidableEq V] : DecidableEq (Dict K V) := fun d d' =>
  decidable_of_iff (d.entries = d'.entries) ⟨ext, congrArg entries⟩

/-- `{}`. -/
def empty : Dict K V := ⟨[], List.nodup_nil⟩

/-- `d.get(k)`. -/
def get? (d : Dict K V) (k : K) : Option V := d.entries.lookup k

/-- `d[k] = v`. -/
def set (d : Dict K V) (k : K) (v : V) : Dict K V :=
  ⟨setEntry k v d.entries, nodup_setEntry d.nodup⟩

omit [DecidableEq K] in
/-- `d.values()`. -/
def values (d : Dict K V) : List V := d.entries.map Prod.snd

@[simp] theorem get?_empty (k : K) : (empty : Dict K V).get? k = none := rfl

omit [DecidableEq K] in
@[simp] theorem values_empty : (empty : Dict K V).values = [] := rfl

theorem get?_set (d : Dict K V) (k k' : K) (v : V) :
    (d.set k v).get? k' = if k' = k then some v else d.get? k' :=
  lookup_setEntry k k' v d.entries

@[simp] theorem get?_set_self (d : Dict K V) (k : K) (v : V) : (d.set k v).get? k = some v := by
  simp [get?_set]

theorem get?_set_ne (d : Dict K V) {k k' : K} (v : V) (h : k' ≠ k) :
    (d.set k v).get? k' = d.get? k' := by
  simp [get?_set, h]

/-- Two values that a function does not tell apart are stored alike, as far as it can tell. -/
theorem map_set_congr {W : Type} (f : V → W) (d : Dict K V) (k : K) {v v' : V} (h : f v = f v') :
    (d.set k v).entries.map (fun e => (e.1, f e.2)) =
      (d.set k v').entries.map fun e => (e.1, f e.2) := by
  show (setEntry k v d.entries).map _ = (setEntry k v' d.entries).map _
  rw [map_setEntry f k v, map_setEntry f k v', h]

/-- Dictionaries that agree up to a function of their values agree on every key. -/
theorem get?_congr {W : Type} {f : V → W} {d d' : Dict K V}
    (h : d.entries.map (fun e => (e.1, f e.2)) = d'.entries.map fun e => (e.1, f e.2)) (k : K) :
    (d.get? k).map f = (d'.get? k).map f := by
  have hlookup : ∀ l : List (K × V),
      (l.map fun e => (e.1, f e.2)).lookup k = (l.lookup k).map f := by
    intro l
    induction l with
    | nil => rfl
    | cons e l ih =>
      obtain ⟨a, b⟩ := e
      rw [List.map_cons, lookup_cons_eq, lookup_cons_eq, ih]
      by_cases hk : k = a
      · rw [if_pos hk, if_pos hk]
        rfl
      · rw [if_neg hk, if_neg hk]
  unfold get?
  rw [← hlookup, ← hlookup, h]

/-- Updates that agree keep dictionaries in agreement. -/
theorem set_congr {W : Type} {f : V → W} {d d' : Dict K V}
    (h : d.entries.map (fun e => (e.1, f e.2)) = d'.entries.map fun e => (e.1, f e.2)) (k : K)
    {v v' : V} (hv : f v = f v') :
    (d.set k v).entries.map (fun e => (e.1, f e.2)) =
      (d'.set k v').entries.map fun e => (e.1, f e.2) := by
  show (setEntry k v d.entries).map _ = (setEntry k v' d'.entries).map _
  rw [map_setEntry f k v, map_setEntry f k v', h, hv]

omit [DecidableEq K] in
theorem values_congr {W : Type} {f : V → W} {d d' : Dict K V}
    (h : d.entries.map (fun e => (e.1, f e.2)) = d'.entries.map fun e => (e.1, f e.2)) :
    d.values.map f = d'.values.map f := by
  have hvalues := congrArg (List.map Prod.snd) h
  rw [List.map_map, List.map_map] at hvalues
  unfold values
  rw [List.map_map, List.map_map]
  exact hvalues

/-- Of two updates of one key the later counts. -/
@[simp] theorem set_set (d : Dict K V) (k : K) (v w : V) : (d.set k v).set k w = d.set k w := by
  unfold set
  congr 1
  exact setEntry_setEntry k v w d.entries

/-- A key is looked up to the value of its entry. -/
theorem get?_eq_some {d : Dict K V} {k : K} {v : V} : d.get? k = some v ↔ (k, v) ∈ d.entries := by
  obtain ⟨l, hnodup⟩ := d
  unfold get?
  induction l with
  | nil => simp
  | cons e l ih =>
    obtain ⟨a, b⟩ := e
    obtain ⟨hnotin, hl⟩ := List.nodup_cons.mp hnodup
    have ih := ih hl
    show ((a, b) :: l).lookup k = some v ↔ (k, v) ∈ (a, b) :: l
    rw [lookup_cons_eq, List.mem_cons, Prod.mk.injEq]
    by_cases h : k = a
    · have hnot : (a, v) ∉ l := fun hmem => hnotin (List.mem_map.mpr ⟨(a, v), hmem, rfl⟩)
      subst h
      simp [hnot, eq_comm]
    · simpa [h] using ih

theorem mem_values {d : Dict K V} {v : V} : v ∈ d.values ↔ ∃ k, d.get? k = some v := by
  simp [values, get?_eq_some]

/-- After an update the values are the new one and those of the other keys. -/
theorem mem_values_set {d : Dict K V} {k : K} {v w : V} :
    w ∈ (d.set k v).values ↔ w = v ∨ ∃ k', k' ≠ k ∧ d.get? k' = some w := by
  rw [mem_values]
  constructor
  · intro h
    obtain ⟨k', h⟩ := h
    by_cases hk : k' = k
    · subst hk
      rw [get?_set_self] at h
      exact Or.inl (Option.some.inj h).symm
    · rw [get?_set_ne d v hk] at h
      exact Or.inr ⟨k', hk, h⟩
  · intro h
    rcases h with rfl | ⟨k', hk, h⟩
    · exact ⟨k, get?_set_self d k w⟩
    · exact ⟨k', by rw [get?_set_ne d v hk]; exact h⟩

/-- A new key goes to the end. -/
theorem entries_set_of_fresh {d : Dict K V} {k : K} (v : V) (h : d.get? k = none) :
    (d.set k v).entries = d.entries ++ [(k, v)] := by
  obtain ⟨l, hnodup⟩ := d
  show setEntry k v l = l ++ [(k, v)]
  change l.lookup k = none at h
  clear hnodup
  induction l with
  | nil => rfl
  | cons e l ih =>
    obtain ⟨a, b⟩ := e
    rw [lookup_cons_eq] at h
    by_cases hk : k = a
    · rw [if_pos hk] at h
      exact absurd h (by simp)
    · rw [if_neg hk] at h
      rw [setEntry, if_neg (Ne.symm hk), ih h]
      rfl

/-- A dictionary filled with entries of distinct new keys. -/
theorem entries_foldl_set {l : List (K × V)} (h : (l.map Prod.fst).Nodup) (d : Dict K V)
    (hfresh : ∀ e ∈ l, d.get? e.1 = none) :
    (l.foldl (fun d e => d.set e.1 e.2) d).entries = d.entries ++ l := by
  induction l generalizing d with
  | nil => exact (List.append_nil d.entries).symm
  | cons e l ih =>
    obtain ⟨hnew, hl⟩ := List.nodup_cons.mp h
    obtain ⟨hhead, hrest⟩ := List.forall_mem_cons.mp hfresh
    have hkeys : ∀ e' ∈ l, (d.set e.1 e.2).get? e'.1 = none := by
      intro e' he'
      have hne : e'.1 ≠ e.1 := fun heq => hnew (List.mem_map.mpr ⟨e', he', heq⟩)
      rw [get?_set_ne d e.2 hne]
      exact hrest e' he'
    rw [List.foldl_cons, ih hl _ hkeys, entries_set_of_fresh e.2 hhead, List.append_assoc]
    rfl

theorem entries_foldl_set_empty {l : List (K × V)} (h : (l.map Prod.fst).Nodup) :
    (l.foldl (fun d e => d.set e.1 e.2) empty).entries = l :=
  entries_foldl_set h empty fun _ _ => rfl

theorem values_set_of_fresh {d : Dict K V} {k : K} (v : V) (h : d.get? k = none) :
    (d.set k v).values = d.values ++ [v] := by
  simp [values, entries_set_of_fresh v h]

/-- A dictionary whose values are stored under their own keys. -/
def Keyed (key : V → K) (d : Dict K V) : Prop := ∀ k v, d.get? k = some v → k = key v

theorem keyed_empty (key : V → K) : (empty : Dict K V).Keyed key := by
  intro k v h
  exact absurd h (by simp)

theorem Keyed.set {key : V → K} {d : Dict K V} (h : d.Keyed key) {k : K} {v : V} (hk : k = key v) :
    (d.set k v).Keyed key := by
  intro k' v' hv
  rw [get?_set] at hv
  by_cases heq : k' = k
  · rw [if_pos heq] at hv
    rw [heq, hk, Option.some.inj hv]
  · rw [if_neg heq] at hv
    exact h k' v' hv

/-- A key is taken when the key of a value is. -/
theorem Keyed.isSome_iff {key : V → K} {d : Dict K V} (h : d.Keyed key) {k : K} :
    (d.get? k).isSome = true ↔ ∃ v ∈ d.values, key v = k := by
  rw [Option.isSome_iff_exists]
  constructor
  · intro hsome
    obtain ⟨v, hv⟩ := hsome
    exact ⟨v, mem_values.mpr ⟨k, hv⟩, (h k v hv).symm⟩
  · intro hmem
    obtain ⟨v, hv, rfl⟩ := hmem
    obtain ⟨k', hk'⟩ := mem_values.mp hv
    rw [h k' v hk'] at hk'
    exact ⟨v, hk'⟩

/-- A key that is present keeps its place. -/
theorem entries_set_of_mem {d : Dict K V} {k : K} {w : V} (v : V) (h : d.get? k = some w) :
    (d.set k v).entries = d.entries.map fun e => if e.1 = k then (k, v) else e := by
  obtain ⟨l, hnodup⟩ := d
  show setEntry k v l = l.map _
  change l.lookup k = some w at h
  induction l with
  | nil => exact absurd h (by simp)
  | cons e l ih =>
    obtain ⟨a, b⟩ := e
    obtain ⟨hnotin, hl⟩ := List.nodup_cons.mp hnodup
    rw [lookup_cons_eq] at h
    rw [setEntry, List.map_cons]
    by_cases hk : a = k
    · subst hk
      rw [if_pos rfl, if_pos rfl]
      have hrest : l.map (fun e => if e.1 = a then (a, v) else e) = l := by
        refine (List.map_congr_left ?_).trans (List.map_id l)
        intro e he
        have hne : e.1 ≠ a := fun heq => hnotin (List.mem_map.mpr ⟨e, he, heq⟩)
        exact if_neg hne
      rw [hrest]
    · rw [if_neg hk, if_neg hk]
      rw [if_neg (Ne.symm hk)] at h
      rw [ih hl h]

/-- A sum over the values changes in the place of the key. -/
theorem sum_values_set {d : Dict K V} {k : K} {w : V} (v : V) (f : V → ℕ) (h : d.get? k = some w) :
    ((d.set k v).values.map f).sum + f w = (d.values.map f).sum + f v := by
  obtain ⟨l, hnodup⟩ := d
  show ((((setEntry k v l).map Prod.snd).map f).sum + f w = ((l.map Prod.snd).map f).sum + f v)
  change l.lookup k = some w at h
  clear hnodup
  induction l with
  | nil => exact absurd h (by simp)
  | cons e l ih =>
    obtain ⟨a, b⟩ := e
    rw [lookup_cons_eq] at h
    unfold setEntry
    by_cases hk : a = k
    · rw [if_pos hk.symm] at h
      obtain rfl := Option.some.inj h
      rw [if_pos hk]
      simp only [List.map_cons, List.sum_cons]
      omega
    · rw [if_neg (Ne.symm hk)] at h
      rw [if_neg hk]
      simp only [List.map_cons, List.sum_cons]
      have hrest := ih h
      omega

theorem Keyed.values_set_of_mem {key : V → K} {d : Dict K V} (hkeyed : d.Keyed key) {k : K} {w : V}
    (v : V) (h : d.get? k = some w) :
    (d.set k v).values = d.values.map fun x => if key x = k then v else x := by
  unfold values
  rw [entries_set_of_mem v h, List.map_map, List.map_map]
  apply List.map_congr_left
  intro e he
  have hkey : e.1 = key e.2 := hkeyed e.1 e.2 (get?_eq_some.mpr he)
  show (if e.1 = k then (k, v) else e).2 = if key e.2 = k then v else e.2
  rw [← hkey]
  by_cases hk : e.1 = k
  · rw [if_pos hk, if_pos hk]
  · rw [if_neg hk, if_neg hk]

/-- The keys of the values are distinct. -/
theorem Keyed.nodup_keys {key : V → K} {d : Dict K V} (hkeyed : d.Keyed key) :
    (d.values.map key).Nodup := by
  have hkeys : d.values.map key = d.entries.map Prod.fst := by
    unfold values
    rw [List.map_map]
    apply List.map_congr_left
    intro e he
    exact (hkeyed e.1 e.2 (get?_eq_some.mpr he)).symm
  rw [hkeys]
  exact d.nodup

theorem Keyed.get?_of_mem {key : V → K} {d : Dict K V} (hkeyed : d.Keyed key) {v : V}
    (h : v ∈ d.values) : d.get? (key v) = some v := by
  obtain ⟨k, hk⟩ := mem_values.mp h
  rw [← hkeyed k v hk]
  exact hk

omit [DecidableEq K] in
/-- The one element of a list that passes a test. -/
theorem filter_eq_singleton {l : List V} (hnodup : l.Nodup) {p : V → Bool} {v : V} (hmem : v ∈ l)
    (hp : p v = true) (honly : ∀ x ∈ l, p x = true → x = v) : l.filter p = [v] := by
  have hfiltered : (l.filter p).Nodup := hnodup.filter p
  have hall : ∀ x ∈ l.filter p, x = v := by
    intro x hx
    obtain ⟨hx, hpx⟩ := List.mem_filter.mp hx
    exact honly x hx hpx
  have hv : v ∈ l.filter p := List.mem_filter.mpr ⟨hmem, hp⟩
  cases h : l.filter p with
  | nil =>
    rw [h] at hv
    exact absurd hv List.not_mem_nil
  | cons a rest =>
    rw [h] at hfiltered hall
    obtain rfl := hall a List.mem_cons_self
    cases rest with
    | nil => rfl
    | cons b rest =>
      obtain rfl := hall b (by simp)
      exact absurd List.mem_cons_self (List.nodup_cons.mp hfiltered).1

theorem Keyed.nodup_values {key : V → K} {d : Dict K V} (h : d.Keyed key) : d.values.Nodup :=
  h.nodup_keys.of_map

/-- The values under a key are what the key is looked up to. -/
theorem Keyed.filter_eq {key : V → K} {d : Dict K V} (h : d.Keyed key) (k : K) :
    d.values.filter (fun v => key v = k) = (d.get? k).toList := by
  cases hget : d.get? k with
  | none =>
    rw [Option.toList_none, List.filter_eq_nil_iff]
    intro v hv hk
    have hsome := h.get?_of_mem hv
    rw [of_decide_eq_true hk, hget] at hsome
    exact absurd hsome (by simp)
  | some w =>
    apply filter_eq_singleton h.nodup_values (mem_values.mpr ⟨k, hget⟩)
    · exact decide_eq_true (h k w hget).symm
    · intro x hx hk
      have hsome := h.get?_of_mem hx
      rw [of_decide_eq_true hk, hget] at hsome
      exact (Option.some.inj hsome).symm

end Dict

end Py
