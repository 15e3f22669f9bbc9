import IncidentEvidence.Py.JsonEncoder

/-! # What an encoder writes is read back

    `loads_dumps`: a lawful encoder writes a text that `json.loads` turns into the value again,
    with the members of its objects in the order in which they were written. The proof follows
    the value; every lemma carries the rest of the text along. -/

namespace Py

/-! ### Containers -/

/-- The text begins with a character that is no whitespace. -/
def Visible (s : Str) : Prop := ∃ c rest, s = c :: rest ∧ isJsonSpace c = false

theorem Visible.append {s : Str} (h : Visible s) (rest : Str) : Visible (s ++ rest) := by
  obtain ⟨c, tail, rfl, hc⟩ := h
  exact ⟨c, tail ++ rest, rfl, hc⟩

theorem skipWhitespace_of_visible {s : Str} (h : Visible s) : skipWhitespace s = s := by
  obtain ⟨c, rest, rfl, hc⟩ := h
  exact List.dropWhile_cons_of_neg (by simp [hc])

theorem skipWhitespace_blanks {blanks s : Str} (hblanks : ∀ c ∈ blanks, isJsonSpace c = true)
    (h : Visible s) : skipWhitespace (blanks ++ s) = s := by
  unfold skipWhitespace
  rw [List.dropWhile_append_of_pos hblanks]
  exact skipWhitespace_of_visible h

section containers
variable {α β : Type} {element : Str → Except DecodeError (α × Str)} {close : CodePoint}
  {separator blanks : Str} {render : β → Str} {value : β → α}

/-- An element is read back wherever it is written. -/
structure ReadsElement (element : Str → Except DecodeError (α × Str)) (render : β → Str)
    (value : β → α) (x : β) : Prop where
  read : ∀ rest, EndsValue rest → element (render x ++ rest) = .ok (value x, rest)
  visible : Visible (render x)

theorem join_cons_cons (x y : β) (xs : List β) (rest : Str) :
    Encoder.join separator ((x :: y :: xs).map render) ++ rest =
      render x ++ (separator ++ (Encoder.join separator ((y :: xs).map render) ++ rest)) := by
  simp [Encoder.join, List.append_assoc]

/-- The last element stands before the closing bracket. -/
theorem scanElements_last {s tail rest : Str} {a : α} {fuel : ℕ} (h : element s = .ok (a, tail))
    (htail : skipWhitespace tail = close :: rest) :
    scanElements close element (fuel + 1) s = .ok ([a], rest) := by
  rw [scanElements, h]
  simp only [bind, Except.bind, htail, if_true]
  rfl

/-- Any other one stands before a comma. -/
theorem scanElements_comma {s tail rest rest' : Str} {a : α} {as : List α} {fuel : ℕ}
    (h : element s = .ok (a, tail)) (htail : skipWhitespace tail = .scalar ',' :: rest)
    (hclose : CodePoint.scalar ',' ≠ close)
    (hmore : scanElements close element fuel (skipWhitespace rest) = .ok (as, rest')) :
    scanElements close element (fuel + 1) s = .ok (a :: as, rest') := by
  rw [scanElements, h]
  simp only [bind, Except.bind, htail, if_neg hclose, if_true, hmore]
  rfl

/-- The elements between two brackets are read back. -/
theorem scanElements_join (hseparator : separator = .scalar ',' :: blanks)
    (hblanks : ∀ c ∈ blanks, isJsonSpace c = true) (hclose : close ∈ str "]\x7d") (rest : Str)
    {x : β} {xs : List β} (h : ∀ y ∈ x :: xs, ReadsElement element render value y) {fuel : ℕ}
    (hfuel : xs.length < fuel) :
    scanElements close element fuel
      (Encoder.join separator ((x :: xs).map render) ++ close :: rest) =
        .ok ((x :: xs).map value, rest) := by
  have hcomma : CodePoint.scalar ',' ≠ close := by
    intro heq
    rw [← heq] at hclose
    exact absurd hclose (by decide)
  induction xs generalizing x fuel with
  | nil =>
    obtain ⟨fuel, rfl⟩ := Nat.exists_eq_succ_of_ne_zero (Nat.ne_of_gt hfuel)
    have hends : EndsValue (close :: rest) := by
      have key : ∀ c ∈ str "]\x7d", c ∈ str ",]\x7d\n" := by decide
      exact endsValue_cons (key close hclose)
    have hvisible : Visible (close :: rest) := by
      have key : ∀ c ∈ str "]\x7d", isJsonSpace c = false := by decide
      exact ⟨close, rest, rfl, key close hclose⟩
    have htext : Encoder.join separator ([x].map render) ++ close :: rest =
        render x ++ close :: rest := by
      simp [Encoder.join]
    rw [htext]
    exact scanElements_last ((h x List.mem_cons_self).read _ hends)
      (skipWhitespace_of_visible hvisible)
  | cons y xs ih =>
    obtain ⟨fuel, rfl⟩ := Nat.exists_eq_succ_of_ne_zero (Nat.ne_of_gt (Nat.zero_lt_of_lt hfuel))
    have htail := fun z hz => h z (List.mem_cons_of_mem x hz)
    have hnext : Visible (Encoder.join separator ((y :: xs).map render) ++ close :: rest) := by
      have hy := (htail y List.mem_cons_self).visible
      rw [List.map_cons, Encoder.join, List.append_assoc]
      exact hy.append _
    rw [join_cons_cons, hseparator]
    have hends : EndsValue (.scalar ',' :: (blanks ++
        (Encoder.join separator ((y :: xs).map render) ++ close :: rest))) :=
      endsValue_cons (by decide)
    have hvisible : Visible (.scalar ',' :: (blanks ++
        (Encoder.join separator ((y :: xs).map render) ++ close :: rest))) :=
      ⟨.scalar ',', _, rfl, by decide⟩
    rw [hseparator] at hends hvisible hnext
    -- one element, a comma and the blanks, and the rest by induction
    apply scanElements_comma ((h x List.mem_cons_self).read _ hends)
      (skipWhitespace_of_visible hvisible) hcomma
    rw [skipWhitespace_blanks hblanks hnext, ← hseparator]
    exact ih htail (Nat.lt_of_succ_lt_succ hfuel)

/-- What stands between two brackets is read back. -/
theorem scanContents_join (hseparator : separator = .scalar ',' :: blanks)
    (hblanks : ∀ c ∈ blanks, isJsonSpace c = true) (hclose : close ∈ str "]\x7d") (rest : Str)
    {xs : List β} (h : ∀ y ∈ xs, ReadsElement element render value y)
    (hhead : ∀ y ∈ xs, ∀ c t, render y = c :: t → c ≠ close) :
    scanContents close element (Encoder.join separator (xs.map render) ++ close :: rest) =
      .ok (xs.map value, rest) := by
  cases xs with
  | nil =>
    have hvisible : Visible (close :: rest) := by
      have key : ∀ c ∈ str "]\x7d", isJsonSpace c = false := by decide
      exact ⟨close, rest, rfl, key close hclose⟩
    unfold scanContents
    rw [List.map_nil, Encoder.join, List.nil_append, skipWhitespace_of_visible hvisible]
    simp only [if_true]
    rfl
  | cons x xs =>
    obtain ⟨c, t, hrender, hc⟩ := (h x List.mem_cons_self).visible
    have hne : c ≠ close := hhead x List.mem_cons_self c t hrender
    have htext : ∃ text, Encoder.join separator ((x :: xs).map render) ++ close :: rest = c :: text ∧
        xs.length ≤ text.length := by
      refine ⟨t ++ ((xs.map render).flatMap fun part => separator ++ part) ++ close :: rest, ?_, ?_⟩
      · rw [List.map_cons, Encoder.join, hrender]
        simp
      · have hlength : xs.length ≤
            ((xs.map render).flatMap fun part => separator ++ part).length := by
          clear h hhead
          induction xs with
          | nil => exact le_refl _
          | cons x xs ih =>
            rw [List.map_cons, List.flatMap_cons, List.length_append, List.length_append,
              List.length_cons]
            have hcomma : 0 < separator.length := by simp [hseparator]
            omega
        simp only [List.length_append]
        omega
    obtain ⟨text, htext, hlength⟩ := htext
    have hvisible : Visible (c :: text) := ⟨c, text, rfl, hc⟩
    have hread := scanElements_join hseparator hblanks hclose rest h
      (show xs.length < text.length + 2 by omega)
    unfold scanContents
    rw [htext] at hread ⊢
    rw [skipWhitespace_of_visible hvisible]
    simp only [if_neg hne]
    exact hread

end containers

/-! ### Values -/

mutual

/-- How deep containers are nested. -/
def Json.nesting : Json → ℕ
  | .arr items => 1 + nestingItems items
  | .obj fields => 1 + nestingFields fields
  | _ => 0

def nestingItems : List Json → ℕ
  | [] => 0
  | v :: vs => max v.nesting (nestingItems vs)

def nestingFields : List (Str × Json) → ℕ
  | [] => 0
  | (_, v) :: fs => max v.nesting (nestingFields fs)

end

mutual

/-- No floats, no integers with too many digits, `good` strings, and distinct keys in every
    object. -/
def Json.Writable (good : Str → Prop) : Json → Prop
  | .int i => printableInt i = true
  | .float _ => False
  | .str s => good s
  | .arr items => WritableItems good items
  | .obj fields => (fields.map Prod.fst).Nodup ∧ WritableFields good fields
  | _ => True

def WritableItems (good : Str → Prop) : List Json → Prop
  | [] => True
  | v :: vs => v.Writable good ∧ WritableItems good vs

def WritableFields (good : Str → Prop) : List (Str × Json) → Prop
  | [] => True
  | (k, v) :: fs => (good k ∧ v.Writable good) ∧ WritableFields good fs

end

theorem nestingItems_le {vs : List Json} {depth : ℕ} :
    nestingItems vs ≤ depth ↔ ∀ v ∈ vs, v.nesting ≤ depth := by
  induction vs with
  | nil => simp [nestingItems]
  | cons v vs ih => simp [nestingItems, ih]

theorem nestingFields_le {fs : List (Str × Json)} {depth : ℕ} :
    nestingFields fs ≤ depth ↔ ∀ kv ∈ fs, kv.2.nesting ≤ depth := by
  induction fs with
  | nil => simp [nestingFields]
  | cons kv fs ih =>
    obtain ⟨k, v⟩ := kv
    rw [nestingFields, Nat.max_le, ih, List.forall_mem_cons]

theorem writableItems_iff {good : Str → Prop} {vs : List Json} :
    WritableItems good vs ↔ ∀ v ∈ vs, v.Writable good := by
  induction vs with
  | nil => simp [WritableItems]
  | cons v vs ih => rw [WritableItems, ih, List.forall_mem_cons]

theorem writableFields_iff {good : Str → Prop} {fs : List (Str × Json)} :
    WritableFields good fs ↔ ∀ kv ∈ fs, good kv.1 ∧ kv.2.Writable good := by
  induction fs with
  | nil => simp [WritableFields]
  | cons kv fs ih =>
    obtain ⟨k, v⟩ := kv
    rw [WritableFields, ih, List.forall_mem_cons]

/-- Members with distinct keys are kept as they are. -/
theorem fieldsOf_eq {members : List (Str × Json)} (h : (members.map Prod.fst).Nodup) :
    fieldsOf members = members := by
  have hnew : ∀ (k : Str) (v : Json) (fields : List (Str × Json)), k ∉ fields.map Prod.fst →
      setEntry k v fields = fields ++ [(k, v)] := by
    intro k v fields hk
    induction fields with
    | nil => rfl
    | cons kv fields ih =>
      obtain ⟨k', v'⟩ := kv
      rw [List.map_cons, List.mem_cons, not_or] at hk
      rw [setEntry, if_neg (Ne.symm hk.1), ih hk.2, List.cons_append]
  have hfold : ∀ (members fields : List (Str × Json)), ((fields ++ members).map Prod.fst).Nodup →
      members.foldl (fun fields kv => setEntry kv.1 kv.2 fields) fields = fields ++ members := by
    intro members
    induction members with
    | nil => exact fun fields _ => (List.append_nil fields).symm
    | cons kv members ih =>
      intro fields hnodup
      have hk : kv.1 ∉ fields.map Prod.fst := by
        rw [List.map_append, List.map_cons, List.nodup_append] at hnodup
        intro hmem
        exact hnodup.2.2 _ hmem _ List.mem_cons_self rfl
      rw [List.foldl_cons, hnew kv.1 kv.2 fields hk, ih, List.append_assoc]
      · rfl
      · rw [List.append_assoc]
        exact hnodup
  exact hfold members [] h

namespace Encoder
variable {e : Encoder} {good : Str → Prop}

/-- A value is read back wherever it is written. -/
def ReadsBack (e : Encoder) (v : Json) : Prop :=
  ∀ depth, v.nesting ≤ depth → ReadsElement (scanOnce depth) e.dumps e.arrange v

theorem scanOnce_eq_scanToken (depth : ℕ) :
    ∃ array object, scanOnce depth = scanToken array object := by
  cases depth with
  | zero => exact ⟨_, _, rfl⟩
  | succ depth => exact ⟨_, _, rfl⟩

/-- A name that the scanner knows is read back. -/
theorem readsBack_constant {v : Json} {name : String} (hdumps : e.dumps v = str name)
    (harrange : e.arrange v = v)
    (hname : ∀ rest, scanConstant (str name ++ rest) = some (v, rest))
    (hhead : ∃ c t, str name = c :: t ∧ c ∉ str "\"\x7b[ \t\n\r") : e.ReadsBack v := by
  obtain ⟨c, t, htext, hc⟩ := hhead
  have hnot : c ≠ .scalar '"' ∧ c ≠ .scalar '\x7b' ∧ c ≠ .scalar '[' ∧ isJsonSpace c = false := by
    refine ⟨?_, ?_, ?_, ?_⟩
    · rintro rfl
      exact hc (by decide)
    · rintro rfl
      exact hc (by decide)
    · rintro rfl
      exact hc (by decide)
    · simp only [isJsonSpace, decide_eq_false_iff_not]
      intro hspace
      have key : ∀ c ∈ str " \t\n\r", c ∈ str "\"\x7b[ \t\n\r" := by decide
      exact hc (key c hspace)
  intro depth _
  obtain ⟨array, object, hscan⟩ := scanOnce_eq_scanToken depth
  constructor
  · intro rest _
    rw [hscan, hdumps, harrange]
    have hfound := hname rest
    rw [htext, List.cons_append] at hfound ⊢
    rw [scanToken, if_neg hnot.1, if_neg hnot.2.1, if_neg hnot.2.2.1, hfound]
  · rw [hdumps]
    exact ⟨c, t, htext, hnot.2.2.2⟩

theorem readsBack_int {i : Int} (h : printableInt i = true) : e.ReadsBack (.int i) := by
  have hhead : ∃ c t, decimalInt i = c :: t ∧ (c = .scalar '-' ∨ c.isDigit = true) := by
    cases i with
    | ofNat n =>
      obtain ⟨c, t, hct⟩ := List.exists_cons_of_ne_nil (decimal_ne_nil n)
      exact ⟨c, t, hct, .inr (isDigit_of_mem_decimal (hct ▸ List.mem_cons_self))⟩
    | negSucc n => exact ⟨_, _, rfl, .inl rfl⟩
  obtain ⟨c, t, htext, hc⟩ := hhead
  have hnot : c ≠ .scalar '"' ∧ c ≠ .scalar '\x7b' ∧ c ≠ .scalar '[' ∧ isJsonSpace c = false := by
    rcases hc with rfl | hdigit
    · decide
    · have hne : ∀ d : CodePoint, d.isDigit = false → c ≠ d := by
        intro d hd heq
        rw [heq, hd] at hdigit
        exact absurd hdigit (by decide)
      refine ⟨hne _ (by decide), hne _ (by decide), hne _ (by decide), ?_⟩
      simp only [isJsonSpace, decide_eq_false_iff_not]
      intro hspace
      have key : ∀ d ∈ str " \t\n\r", d.isDigit = false := by decide
      exact hne c (key c hspace) rfl
  intro depth _
  obtain ⟨array, object, hscan⟩ := scanOnce_eq_scanToken depth
  constructor
  · intro rest hrest
    have hnumber := matchNumber_decimalInt i hrest
    have hconstant := scanConstant_of_matchNumber hnumber
    show scanOnce depth (decimalInt i ++ rest) = .ok (.int i, rest)
    rw [hscan]
    rw [htext, List.cons_append] at hnumber hconstant ⊢
    rw [scanToken, if_neg hnot.1, if_neg hnot.2.1, if_neg hnot.2.2.1, hconstant, hnumber]
    simp only [convert_decimal h]
    rfl
  · exact ⟨c, t, htext, hnot.2.2.2⟩

theorem readsBack_str (he : e.Lawful good) {s : Str} (h : good s) : e.ReadsBack (.str s) := by
  obtain ⟨literal, hquote, hread⟩ := he.quote s h
  intro depth _
  obtain ⟨array, object, hscan⟩ := scanOnce_eq_scanToken depth
  constructor
  · intro rest _
    show scanOnce depth (e.quote s ++ rest) = .ok (.str s, rest)
    rw [hscan, hquote, List.cons_append, scanToken, if_pos rfl, hread]
    rfl
  · exact ⟨_, literal, hquote, by decide⟩

theorem readsBack_arr (he : e.Lawful good) {items : List Json}
    (ih : ∀ v ∈ items, e.ReadsBack v) : e.ReadsBack (.arr items) := by
  obtain ⟨blanks, hseparator, hblanks⟩ := he.items
  intro depth hdepth
  rw [Json.nesting] at hdepth
  obtain ⟨depth, rfl⟩ := Nat.exists_eq_succ_of_ne_zero (show depth ≠ 0 by omega)
  have hitems : ∀ v ∈ items, ReadsElement (scanOnce depth) e.dumps e.arrange v := by
    have hle := nestingItems_le.mp (show nestingItems items ≤ depth by omega)
    exact fun v hv => ih v hv depth (hle v hv)
  have hhead : ∀ v ∈ items, ∀ c t, e.dumps v = c :: t → c ≠ .scalar ']' := by
    intro v hv c t hct hclose
    -- a value that began with a bracket would not be read back
    have hread := (hitems v hv).read [] endsValue_nil
    rw [hct, hclose, List.append_nil, scanOnce_close] at hread
    exact absurd hread (by simp)
  constructor
  · intro rest _
    have hread := scanContents_join hseparator hblanks (by decide) rest hitems hhead
    show scanOnce (depth + 1) (.scalar '[' :: (join e.itemSeparator (e.dumpsItems items) ++
      [.scalar ']']) ++ rest) = .ok (.arr (e.arrangeItems items), rest)
    have htext : CodePoint.scalar '[' :: (join e.itemSeparator (e.dumpsItems items) ++
        [.scalar ']']) ++ rest = .scalar '[' ::
          (join e.itemSeparator (items.map e.dumps) ++ .scalar ']' :: rest) := by
      rw [dumpsItems_eq_map, List.cons_append, List.append_assoc]
      rfl
    rw [htext, scanOnce, scanToken, if_neg (by decide), if_neg (by decide), if_pos rfl, hread,
      arrangeItems_eq_map]
    rfl
  · exact ⟨_, _, rfl, by decide⟩

/-- A member is read back: its key, the colon and its value. -/
theorem readsElement_member (he : e.Lawful good) {k : Str} {v : Json} (hk : good k) {depth : ℕ}
    (hv : ReadsElement (scanOnce depth) e.dumps e.arrange v) :
    ReadsElement (scanMember (scanOnce depth)) e.member (fun kv => (kv.1, e.arrange kv.2)) (k, v) := by
  obtain ⟨literal, hquote, hread⟩ := he.quote k hk
  obtain ⟨blanks, hseparator, hblanks⟩ := he.keys
  constructor
  · intro rest hrest
    have hcolon : Visible (.scalar ':' :: (blanks ++ (e.dumps v ++ rest))) :=
      ⟨.scalar ':', _, rfl, by decide⟩
    have htext : e.member (k, v) ++ rest =
        .scalar '"' :: (literal ++ .scalar ':' :: (blanks ++ (e.dumps v ++ rest))) := by
      simp only [member, field, hquote, hseparator, List.cons_append, List.append_assoc]
    have hkey : scanKey (e.member (k, v) ++ rest) = .ok (k, e.dumps v ++ rest) := by
      rw [htext, scanKey, if_pos rfl, hread]
      simp only [bind, Except.bind, skipWhitespace_of_visible hcolon, if_true,
        skipWhitespace_blanks hblanks (hv.visible.append rest)]
      rfl
    rw [scanMember, hkey]
    simp only [bind, Except.bind, hv.read rest hrest]
    rfl
  · have htext : e.member (k, v) =
        .scalar '"' :: (literal ++ (e.keySeparator ++ e.dumps v)) := by
      simp only [member, field, hquote, List.cons_append]
    exact ⟨_, _, htext, by decide⟩

theorem readsBack_obj (he : e.Lawful good) {fields : List (Str × Json)}
    (hnodup : (fields.map Prod.fst).Nodup)
    (ih : ∀ kv ∈ fields, good kv.1 ∧ e.ReadsBack kv.2) : e.ReadsBack (.obj fields) := by
  obtain ⟨blanks, hseparator, hblanks⟩ := he.items
  intro depth hdepth
  rw [Json.nesting] at hdepth
  obtain ⟨depth, rfl⟩ := Nat.exists_eq_succ_of_ne_zero (show depth ≠ 0 by omega)
  have hperm := e.perm_order fields
  have hmembers : ∀ kv ∈ e.order fields, ReadsElement (scanMember (scanOnce depth)) e.member
      (fun kv => (kv.1, e.arrange kv.2)) kv := by
    have hle := nestingFields_le.mp (show nestingFields fields ≤ depth by omega)
    intro kv hkv
    have hkv := hperm.mem_iff.mp hkv
    exact readsElement_member he (ih kv hkv).1 ((ih kv hkv).2 depth (hle kv hkv))
  have hhead : ∀ kv ∈ e.order fields, ∀ c t, e.member kv = c :: t → c ≠ .scalar '\x7d' := by
    intro kv hkv c t hct
    obtain ⟨literal, hquote, -⟩ := he.quote kv.1 (ih kv (hperm.mem_iff.mp hkv)).1
    simp only [member, field, hquote, List.cons_append, List.cons.injEq] at hct
    rw [← hct.1]
    decide
  constructor
  · intro rest _
    have hread := scanContents_join hseparator hblanks (by decide) rest hmembers hhead
    have htext : e.dumps (.obj fields) ++ rest = .scalar '\x7b' ::
        (join e.itemSeparator ((e.order fields).map e.member) ++ .scalar '\x7d' :: rest) := by
      rw [dumps, dumpsFields_eq_map, order_map, List.map_map, List.cons_append, List.append_assoc]
      rfl
    have hkeys : (((e.order fields).map fun kv => (kv.1, e.arrange kv.2)).map Prod.fst).Nodup := by
      rw [List.map_map]
      exact (hperm.map Prod.fst).nodup_iff.mpr hnodup
    rw [htext, scanOnce, scanToken, if_neg (by decide), if_pos rfl, hread]
    simp only [bind, Except.bind]
    rw [fieldsOf_eq hkeys, arrange, arrangeFields_eq_map, order_map]
    rfl
  · exact ⟨_, _, rfl, by decide⟩

mutual

theorem readsBack (he : e.Lawful good) : ∀ v : Json, v.Writable good → e.ReadsBack v
  | .arr items, h => readsBack_arr he (readsBack_items he items h)
  | .obj fields, h => readsBack_obj he h.1 (readsBack_fields he fields h.2)
  | .str _, h => readsBack_str he h
  | .int _, h => readsBack_int h
  | .float _, h => absurd h (by simp [Json.Writable])
  | .null, _ => readsBack_constant rfl rfl (fun _ => rfl) ⟨_, _, rfl, by decide⟩
  | .bool true, _ => readsBack_constant rfl rfl (fun _ => rfl) ⟨_, _, rfl, by decide⟩
  | .bool false, _ => readsBack_constant rfl rfl (fun _ => rfl) ⟨_, _, rfl, by decide⟩

theorem readsBack_items (he : e.Lawful good) :
    ∀ items : List Json, WritableItems good items → ∀ v ∈ items, e.ReadsBack v
  | [], _, _, hv => absurd hv List.not_mem_nil
  | item :: items, h, v, hv => by
    rcases List.mem_cons.mp hv with heq | hmem
    · exact heq ▸ readsBack he item h.1
    · exact readsBack_items he items h.2 v hmem

theorem readsBack_fields (he : e.Lawful good) : ∀ fields : List (Str × Json),
    WritableFields good fields → ∀ kv ∈ fields, good kv.1 ∧ e.ReadsBack kv.2
  | [], _, _, hkv => absurd hkv List.not_mem_nil
  | (k, v) :: fields, h, kv, hkv => by
    rcases List.mem_cons.mp hkv with rfl | hmem
    · exact ⟨h.1.1, readsBack he v h.1.2⟩
    · exact readsBack_fields he fields h.2 kv hmem

end

theorem scanOnce_bom (depth : ℕ) (rest : Str) :
    scanOnce depth (.scalar '\uFEFF' :: rest) = .error .jsonDecode := by
  have hconstant : scanConstant (.scalar '\uFEFF' :: rest) = none := by
    simp [scanConstant, constants, afterPrefix, str]
  obtain ⟨array, object, hscan⟩ := scanOnce_eq_scanToken depth
  rw [hscan]
  simp [scanToken, hconstant, matchNumber, scanSign, scanInteger, CodePoint.isDigit]

/-- **The round trip**: what a lawful encoder writes is read back, with or without a final
    newline. -/
theorem loads_dumps (he : e.Lawful good) {v : Json} (hv : v.Writable good) {depth : ℕ}
    (hdepth : v.nesting ≤ depth) {rest : Str} (hrest : rest = [] ∨ rest = str "\n") :
    loads depth (e.dumps v ++ rest) = .ok (e.arrange v) := by
  have hread := readsBack he v hv depth hdepth
  have hends : EndsValue rest := by
    rcases hrest with rfl | rfl
    · exact endsValue_nil
    · exact endsValue_cons (by decide)
  have hblank : skipWhitespace rest = [] := by
    rcases hrest with rfl | rfl
    · rfl
    · rfl
  have hbom : (e.dumps v ++ rest).head? ≠ some (.scalar '\uFEFF') := by
    intro hhead
    obtain ⟨tail, htail⟩ := List.head?_eq_some_iff.mp hhead
    have hok := hread.read rest hends
    rw [htail, scanOnce_bom] at hok
    exact absurd hok (by simp)
  unfold loads
  simp only [bind_eq_ok, require_eq_ok, exists_const, skipWhitespace_of_visible
    (hread.visible.append rest)]
  exact ⟨hbom, _, hread.read rest hends, hblank, rfl⟩

end Encoder

/-! ### The canonical encoder -/

namespace Encoder

theorem join_eq_joinComma (parts : List Str) : join [.scalar ','] parts = joinComma parts := by
  cases parts with
  | nil => rfl
  | cons part parts => rfl

theorem compact_order (fields : List (Str × Str)) : compact.order fields = Py.sortKeys fields :=
  if_pos rfl

/-- `dumps` is one of the encoders. -/
theorem compact_dumps : ∀ v : Json, compact.dumps v = Py.dumps v
  | .null => rfl
  | .bool true => rfl
  | .bool false => rfl
  | .int _ => rfl
  | .float _ => rfl
  | .str _ => rfl
  | .arr items => by
    have hitems : compact.dumpsItems items = Py.dumpsItems items := compact_dumpsItems items
    rw [dumps, Py.dumps, hitems]
    exact congrArg (fun s => CodePoint.scalar '[' :: (s ++ _)) (join_eq_joinComma _)
  | .obj fields => by
    have hfields : compact.dumpsFields fields = Py.dumpsFields fields := compact_dumpsFields fields
    rw [dumps, Py.dumps, hfields, compact_order]
    exact congrArg (fun s => CodePoint.scalar '{' :: (s ++ _)) (join_eq_joinComma _)
where
  compact_dumpsItems : ∀ items : List Json, compact.dumpsItems items = Py.dumpsItems items
    | [] => rfl
    | v :: vs => by rw [dumpsItems, Py.dumpsItems, compact_dumps v, compact_dumpsItems vs]
  compact_dumpsFields : ∀ fields : List (Str × Json),
      compact.dumpsFields fields = Py.dumpsFields fields
    | [] => rfl
    | (k, v) :: fs => by rw [dumpsFields, Py.dumpsFields, compact_dumps v, compact_dumpsFields fs]

/-- Members that are in order stay in order. -/
theorem order_eq_self (e : Encoder) {α : Type} {fields : List (Str × α)}
    (h : (fields.map Prod.fst).Pairwise (· < ·)) : e.order fields = fields := by
  unfold order
  by_cases hsort : e.sortKeys = true
  · rw [if_pos hsort]
    exact List.Pairwise.insertionSort_eq ((List.pairwise_map.mp h).imp fun hab => le_of_lt hab)
  · rw [if_neg hsort]

mutual

/-- Nothing is rearranged in a canonical value. -/
theorem arrange_of_canonical (e : Encoder) : ∀ v : Json, v.Canonical → e.arrange v = v
  | .null, _ => rfl
  | .bool _, _ => rfl
  | .int _, _ => rfl
  | .float _, _ => rfl
  | .str _, _ => rfl
  | .arr items, h => by rw [arrange, arrangeItems_of_canonical e items h]
  | .obj fields, h => by rw [arrange, arrangeFields_of_canonical e fields h.2, order_eq_self e h.1]

theorem arrangeItems_of_canonical (e : Encoder) :
    ∀ items : List Json, CanonicalItems items → e.arrangeItems items = items
  | [], _ => rfl
  | v :: vs, h => by
    rw [arrangeItems, arrange_of_canonical e v h.1, arrangeItems_of_canonical e vs h.2]

theorem arrangeFields_of_canonical (e : Encoder) :
    ∀ fields : List (Str × Json), CanonicalFields fields → e.arrangeFields fields = fields
  | [], _ => rfl
  | (_, v) :: fs, h => by
    rw [arrangeFields, arrange_of_canonical e v h.1, arrangeFields_of_canonical e fs h.2]

end

mutual

/-- Nothing is rearranged when members are not sorted. -/
theorem arrange_unsorted {e : Encoder} (h : e.sortKeys = false) : ∀ v : Json, e.arrange v = v
  | .null => rfl
  | .bool _ => rfl
  | .int _ => rfl
  | .float _ => rfl
  | .str _ => rfl
  | .arr items => by rw [arrange, arrangeItems_unsorted h items]
  | .obj fields => by
    rw [arrange, arrangeFields_unsorted h fields, order, if_neg (by rw [h]; decide)]

theorem arrangeItems_unsorted {e : Encoder} (h : e.sortKeys = false) :
    ∀ items : List Json, e.arrangeItems items = items
  | [] => rfl
  | v :: vs => by rw [arrangeItems, arrange_unsorted h v, arrangeItems_unsorted h vs]

theorem arrangeFields_unsorted {e : Encoder} (h : e.sortKeys = false) :
    ∀ fields : List (Str × Json), e.arrangeFields fields = fields
  | [] => rfl
  | (_, v) :: fs => by rw [arrangeFields, arrange_unsorted h v, arrangeFields_unsorted h fs]

end

end Encoder

mutual

/-- A canonical value of printable integers can be written. -/
theorem Json.Canonical.writable : ∀ v : Json, v.Canonical → v.printable = true →
    v.Writable fun _ => True
  | .null => fun _ _ => trivial
  | .bool _ => fun _ _ => trivial
  | .int i => fun _ hprintable => (printable_int i).symm.trans hprintable
  | .float _ => fun h _ => absurd h (by simp [Json.Canonical])
  | .str _ => fun _ _ => trivial
  | .arr items => fun h hprintable => canonicalItems_writable items h (by
    rw [Json.printable] at hprintable
    exact hprintable)
  | .obj fields => fun h hprintable => by
    rw [Json.printable] at hprintable
    exact ⟨h.1.imp fun hab => ne_of_lt hab, canonicalFields_writable fields h.2 hprintable⟩

theorem canonicalItems_writable : ∀ items : List Json, CanonicalItems items →
    printableItems items = true → WritableItems (fun _ => True) items
  | [] => fun _ _ => trivial
  | v :: vs => fun h hprintable => by
    rw [printableItems, Bool.and_eq_true] at hprintable
    exact ⟨Json.Canonical.writable v h.1 hprintable.1,
      canonicalItems_writable vs h.2 hprintable.2⟩

theorem canonicalFields_writable : ∀ fields : List (Str × Json), CanonicalFields fields →
    printableFields fields = true → WritableFields (fun _ => True) fields
  | [] => fun _ _ => trivial
  | (_, v) :: fs => fun h hprintable => by
    rw [printableFields, Bool.and_eq_true] at hprintable
    exact ⟨⟨trivial, Json.Canonical.writable v h.1 hprintable.1⟩,
      canonicalFields_writable fs h.2 hprintable.2⟩

end

/-- **The canonical document of a value is read back as the value.** -/
theorem loads_canonical {v : Json} (hcanonical : v.Canonical) (hprintable : v.printable = true)
    {depth : ℕ} (hdepth : v.nesting ≤ depth) : loads depth (dumps v ++ str "\n") = .ok v := by
  have hread := Encoder.loads_dumps Encoder.lawful_compact
    (Json.Canonical.writable v hcanonical hprintable) hdepth (Or.inr rfl)
  rw [Encoder.compact_dumps, Encoder.arrange_of_canonical _ v hcanonical] at hread
  exact hread

end Py
