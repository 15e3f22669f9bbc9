import IncidentEvidence.Py.JsonSpacing

/-! # JSON values under other line ends

    A break between tokens is whitespace or an error; inside a string it is an error, or becomes
    one with the newline that replaces it. So `json.loads` gives a respaced text the same value,
    unless a break stands inside a string; then it fails (`loads_respaced`). -/

namespace Py

section respaced
variable {breaks : CodePoint → Bool} {α β : Type} {s t r rest : Str}

/-- Reading the first text from one point to another gave a value. If no break stands in
    between, reading the second text gives the same value, and otherwise it fails. -/
inductive Follows (breaks : CodePoint → Bool) (s : Str) (v : α) (rest : Str) :
    Except DecodeError (α × Str) → Prop where
  | same {rest' : Str} : Through (fun c => isInnerBreak breaks c = false) s rest →
      Respaced breaks rest rest' → Follows breaks s v rest (.ok (v, rest'))
  | broken {used : Str} {e : DecodeError} : s = used ++ rest →
      (∃ c ∈ used, isInnerBreak breaks c = true) → Follows breaks s v rest (.error e)

/-- What is read after what was read. -/
theorem Follows.bind {v : α} {w : β} {y : Except DecodeError (α × Str)}
    {f : α × Str → Except DecodeError (β × Str)} (h : Follows breaks s v r y) (hsuffix : rest <:+ r)
    (hf : ∀ r', y = .ok (v, r') → Respaced breaks r r' → Follows breaks r w rest (f (v, r'))) :
    Follows breaks s w rest (y >>= f) := by
  cases h with
  | @same r' hthrough hr =>
    show Follows breaks s w rest (f (v, r'))
    have hnext := hf r' rfl hr
    generalize f (v, r') = z at hnext ⊢
    cases hnext with
    | same hthrough' hrest => exact .same (hthrough.trans hthrough') hrest
    | @broken used' e hr' hbreak =>
      obtain ⟨used, rfl, -⟩ := hthrough
      obtain ⟨c, hc, hinner⟩ := hbreak
      have hs : used ++ r = (used ++ used') ++ rest := by rw [hr', List.append_assoc]
      exact .broken hs ⟨c, List.mem_append_right used hc, hinner⟩
  | @broken used e hs hbreak =>
    obtain ⟨used', rfl⟩ := hsuffix
    obtain ⟨c, hc, hinner⟩ := hbreak
    rw [← List.append_assoc] at hs
    exact .broken hs ⟨c, List.mem_append_left used' hc, hinner⟩

theorem Follows.map {v : α} {y : Except DecodeError (α × Str)} (g : α → β)
    (h : Follows breaks s v rest y) :
    Follows breaks s (g v) rest (y >>= fun x => pure (g x.1, x.2)) := by
  cases h with
  | same hthrough hrest => exact .same hthrough hrest
  | broken hs hbreak => exact .broken hs hbreak

/-- What was read before, without a break. -/
theorem Follows.after {v : α} {y : Except DecodeError (α × Str)} (h : Follows breaks r v rest y)
    (hr : Through (fun c => isInnerBreak breaks c = false) s r) : Follows breaks s v rest y := by
  cases h with
  | same hthrough hrest => exact .same (hr.trans hthrough) hrest
  | @broken used e hs hbreak =>
    obtain ⟨before, rfl, -⟩ := hr
    obtain ⟨c, hc, hinner⟩ := hbreak
    have happend : before ++ r = (before ++ used) ++ rest := by rw [hs, List.append_assoc]
    exact .broken happend ⟨c, List.mem_append_right before hc, hinner⟩

/-- The scanner reads respaced texts as it should. -/
def Follow (breaks : CodePoint → Bool) (scan : Str → Except DecodeError (α × Str)) : Prop :=
  ∀ s v rest, scan s = .ok (v, rest) →
    rest <:+ s ∧ ∀ t, Respaced breaks s t → Follows breaks s v rest (scan t)

/-- The scanner starts at a visible character. -/
def Starts (scan : Str → Except DecodeError (α × Str)) : Prop :=
  ∀ s v rest, scan s = .ok (v, rest) → StartsVisible s

theorem through_of_visible (h : Through (fun c => isVisible c = true) s rest) :
    Through (fun c => isInnerBreak breaks c = false) s rest :=
  h.mono fun _ => isInnerBreak_of_visible

theorem through_of_space (h : Through (fun c => isJsonSpace c = true) s rest) :
    Through (fun c => isInnerBreak breaks c = false) s rest :=
  h.mono fun _ => isInnerBreak_of_space

/-! ### Strings -/

/-- Whitespace ends no string. -/
theorem scanChars_spaces {fuel : ℕ} {w : Str} (hw : ∀ c ∈ w, isJsonSpace c = true) :
    scanChars fuel w = .error .jsonDecode := by
  induction fuel generalizing w with
  | zero => rfl
  | succ fuel ih =>
    cases w with
    | nil => rfl
    | cons c w =>
      obtain ⟨hc, hrest⟩ := List.forall_mem_cons.mp hw
      rw [scanChars, ih hrest]
      rcases isJsonSpace_iff.mp hc with rfl | rfl | rfl | rfl <;> rfl

theorem scanChars_newline (fuel : ℕ) (t : Str) :
    ∃ e, scanChars fuel (.scalar '\n' :: t) = .error e := by
  cases fuel with
  | zero => exact ⟨_, rfl⟩
  | succ fuel => exact ⟨_, rfl⟩

theorem scanEscape_suffix (hbreaks : BreaksOutside breaks) {d : CodePoint}
    (h : scanEscape s = .ok (d, rest)) : rest <:+ s := by
  obtain ⟨t, ht⟩ := exists_respaced breaks s
  exact (scanEscape_respaced hbreaks ht h).1.suffix

/-- A string is read alike, when there is fuel for the characters left. -/
theorem scanChars_follows (hbreaks : BreaksOutside breaks) {fuel : ℕ} {x : Str}
    (h : scanChars fuel s = .ok (x, rest)) :
    rest <:+ s ∧ ∀ t fuel', Respaced breaks s t → t.length ≤ fuel' →
      Follows breaks s x rest (scanChars fuel' t) := by
  induction fuel generalizing s x with
  | zero => exact absurd h (by simp [scanChars])
  | succ fuel ih =>
    cases s with
    | nil => exact absurd h (by simp [scanChars])
    | cons c s =>
      rw [scanChars] at h
      by_cases hquote : c = .scalar '"'
      · rw [if_pos hquote] at h
        obtain ⟨rfl, rfl⟩ := Prod.mk.inj (Except.ok.inj h)
        refine ⟨List.suffix_cons c s, ?_⟩
        intro t fuel' ht hfuel
        have hc : isVisible c = true := by
          rw [hquote]
          decide
        obtain ⟨t', rfl, hrest⟩ := ht.visible hbreaks hc
        cases fuel' with
        | zero => exact absurd hfuel (by simp)
        | succ fuel' =>
          rw [scanChars, if_pos hquote]
          exact .same (through_of_visible ((Through.refl s).cons hc)) hrest
      rw [if_neg hquote] at h
      by_cases hcontrol : c.ord < 0x20
      · rw [if_pos hcontrol] at h
        exact absurd h (by simp)
      rw [if_neg hcontrol] at h
      by_cases hescape : c = .scalar '\\'
      · rw [if_pos hescape] at h
        simp only [bind_eq_ok, pure_eq_ok] at h
        obtain ⟨⟨d, r⟩, hd, ⟨x', rest'⟩, hx', heq⟩ := h
        obtain ⟨rfl, rfl⟩ := Prod.mk.inj heq
        obtain ⟨hsuffix, hfollows⟩ := ih hx'
        refine ⟨(hsuffix.trans (scanEscape_suffix hbreaks hd)).trans (List.suffix_cons c s), ?_⟩
        intro t fuel' ht hfuel
        have hc : isVisible c = true := by
          rw [hescape]
          decide
        obtain ⟨t', rfl, hrest⟩ := ht.visible hbreaks hc
        obtain ⟨hthrough, r', hr', hafter⟩ := scanEscape_respaced hbreaks hrest hd
        have hshorter := scanEscape_consumes _ _ _ hr'
        cases fuel' with
        | zero => exact absurd hfuel (by simp)
        | succ fuel' =>
          rw [scanChars, if_neg hquote, if_neg hcontrol, if_pos hescape, hr']
          rw [List.length_cons] at hfuel
          have hnext := (hfollows r' fuel' hafter (by omega)).map (d :: ·)
          exact hnext.after (through_of_visible (hthrough.cons hc))
      · rw [if_neg hescape] at h
        simp only [bind_eq_ok, pure_eq_ok] at h
        obtain ⟨⟨x', rest'⟩, hx', heq⟩ := h
        obtain ⟨rfl, rfl⟩ := Prod.mk.inj heq
        obtain ⟨hsuffix, hfollows⟩ := ih hx'
        refine ⟨hsuffix.trans (List.suffix_cons c s), ?_⟩
        intro t fuel' ht hfuel
        cases ht with
        | spaces hw _ =>
          obtain ⟨-, hw'⟩ := List.forall_mem_cons.mp hw
          rw [scanChars_spaces hw'] at hx'
          exact absurd hx' (by simp)
        | @same _ _ t' hbreak hrest =>
          cases fuel' with
          | zero => exact absurd hfuel (by simp)
          | succ fuel' =>
            rw [scanChars, if_neg hquote, if_neg hcontrol, if_neg hescape]
            rw [List.length_cons] at hfuel
            have hnext := (hfollows t' fuel' hrest (by omega)).map (c :: ·)
            have hinner : isInnerBreak breaks c = false := by
              unfold isInnerBreak
              rw [hbreak]
              rfl
            exact hnext.after ((Through.refl s).cons hinner)
        | @line _ _ t' hbreak hrest =>
          -- a break inside a string
          obtain ⟨e, he⟩ := scanChars_newline fuel' t'
          obtain ⟨used, hused⟩ := hsuffix
          have hinner : isInnerBreak breaks c = true := by
            have hord := (hbreaks c hbreak).resolve_left hcontrol
            simp [isInnerBreak, hbreak, hord]
          have hs : c :: s = (c :: used) ++ rest := by rw [← hused]; rfl
          rw [he]
          exact .broken hs ⟨c, List.mem_cons_self, hinner⟩
        | crlf _ _ => exact absurd (by decide) hcontrol

theorem scanString_follow (hbreaks : BreaksOutside breaks) : Follow breaks scanString := by
  intro s x rest h
  obtain ⟨hsuffix, hfollows⟩ := scanChars_follows hbreaks h
  exact ⟨hsuffix, fun t ht => hfollows t t.length ht (le_refl _)⟩

/-! ### Containers -/

section containers
variable {element : Str → Except DecodeError (α × Str)} {close : CodePoint}

/-- From a value to a visible character after whitespace. -/
theorem through_to_visible {c : CodePoint} (hc : isVisible c = true)
    (h : skipWhitespace s = c :: rest) :
    Through (fun c => isInnerBreak breaks c = false) s rest := by
  have hspace : Through (fun c => isInnerBreak breaks c = false) s (skipWhitespace s) :=
    through_of_space (through_skipWhitespace s)
  rw [h] at hspace
  exact hspace.trans ((Through.refl rest).cons (isInnerBreak_of_visible hc))

/-- The elements of a container are read alike, when there is fuel for the characters left. -/
theorem scanElements_follows (hbreaks : BreaksOutside breaks) (hclose : isVisible close = true)
    (hfollow : Follow breaks element) (hstarts : Starts element) (hconsumes : Consumes element)
    {fuel : ℕ} {as : List α} (h : scanElements close element fuel s = .ok (as, rest)) :
    rest <:+ s ∧ ∀ t fuel', Respaced breaks s t → t.length < fuel' →
      Follows breaks s as rest (scanElements close element fuel' t) := by
  induction fuel generalizing s as with
  | zero => exact absurd h (by simp [scanElements])
  | succ fuel ih =>
    rw [scanElements, bind_eq_ok] at h
    obtain ⟨⟨a, r⟩, helement, h⟩ := h
    obtain ⟨hsuffix, hfirst⟩ := hfollow _ _ _ helement
    have hspaces := (through_skipWhitespace r).suffix
    cases hskip : skipWhitespace r with
    | nil =>
      simp only [hskip] at h
      exact absurd h (by simp)
    | cons c after =>
      simp only [hskip] at h
      rw [hskip] at hspaces
      have hafter : after <:+ r := (List.suffix_cons c after).trans hspaces
      by_cases hend : c = close
      · rw [if_pos hend] at h
        obtain ⟨rfl, rfl⟩ := Prod.mk.inj (pure_eq_ok.mp h)
        refine ⟨hafter.trans hsuffix, ?_⟩
        intro t fuel' ht hfuel
        cases fuel' with
        | zero => exact absurd hfuel (by simp)
        | succ fuel' =>
          have hc : isVisible c = true := by
            rw [hend]
            exact hclose
          rw [scanElements]
          refine (hfirst t ht).bind hafter ?_
          intro r' _ hr'
          obtain ⟨after', hskip', hrest⟩ := hr'.skip hbreaks hskip hc
          simp only [hskip', if_pos hend]
          exact .same (through_to_visible hc hskip) hrest
      rw [if_neg hend] at h
      by_cases hcomma : c = .scalar ','
      · rw [if_pos hcomma, bind_eq_ok] at h
        obtain ⟨⟨as', rest'⟩, hmore, heq⟩ := h
        obtain ⟨rfl, rfl⟩ := Prod.mk.inj (pure_eq_ok.mp heq)
        obtain ⟨hsuffix', hfollows⟩ := ih hmore
        have hstart := (through_skipWhitespace after).suffix
        refine ⟨((hsuffix'.trans hstart).trans hafter).trans hsuffix, ?_⟩
        intro t fuel' ht hfuel
        cases fuel' with
        | zero => exact absurd hfuel (by simp)
        | succ fuel' =>
          have hc : isVisible c = true := by
            rw [hcomma]
            decide
          rw [scanElements]
          refine (hfirst t ht).bind ((hsuffix'.trans hstart).trans hafter) ?_
          intro r' hr hr'
          obtain ⟨after', hskip', hrest⟩ := hr'.skip hbreaks hskip hc
          -- the next element starts at a visible character
          have hnext : StartsVisible (skipWhitespace after) := by
            cases fuel with
            | zero => exact absurd hmore (by simp [scanElements])
            | succ fuel =>
              rw [scanElements, bind_eq_ok] at hmore
              obtain ⟨⟨b, q⟩, hb, -⟩ := hmore
              exact hstarts _ _ _ hb
          obtain ⟨d, q, hd, hvisible⟩ := hnext
          obtain ⟨q', hq', hrest'⟩ := hrest.skip hbreaks hd hvisible
          have hrespaced : Respaced breaks (skipWhitespace after) (skipWhitespace after') := by
            rw [hd, hq']
            exact .same (breaks_of_visible hbreaks hvisible) hrest'
          have hlength : (skipWhitespace after').length < fuel' := by
            have hread := hconsumes _ _ _ hr
            have h₁ := skipWhitespace_length_le after'
            have h₂ := skipWhitespace_length_le r'
            rw [hskip', List.length_cons] at h₂
            omega
          simp only [hskip', if_neg hend, if_pos hcomma]
          have hmap := (hfollows _ _ hrespaced hlength).map (a :: ·)
          exact hmap.after ((through_to_visible hc hskip).trans
            (through_of_space (through_skipWhitespace after)))
      · rw [if_neg hcomma] at h
        exact absurd h (by simp)

theorem scanContents_follow (hbreaks : BreaksOutside breaks) (hclose : isVisible close = true)
    (hfollow : Follow breaks element) (hstarts : Starts element) (hconsumes : Consumes element) :
    Follow breaks (scanContents close element) := by
  intro s as rest h
  unfold scanContents at h
  have hspaces := (through_skipWhitespace s).suffix
  cases hskip : skipWhitespace s with
  | nil =>
    simp only [hskip] at h
    exact absurd h (by simp)
  | cons c after =>
    simp only [hskip] at h
    rw [hskip] at hspaces
    by_cases hend : c = close
    · rw [if_pos hend] at h
      obtain ⟨rfl, rfl⟩ := Prod.mk.inj (Except.ok.inj h)
      refine ⟨(List.suffix_cons c after).trans hspaces, ?_⟩
      intro t ht
      have hc : isVisible c = true := by
        rw [hend]
        exact hclose
      obtain ⟨after', hskip', hrest⟩ := ht.skip hbreaks hskip hc
      unfold scanContents
      simp only [hskip', if_pos hend]
      exact .same (through_to_visible hc hskip) hrest
    · rw [if_neg hend] at h
      obtain ⟨hsuffix, hfollows⟩ :=
        scanElements_follows hbreaks hclose hfollow hstarts hconsumes h
      refine ⟨hsuffix.trans hspaces, ?_⟩
      intro t ht
      have hc : isVisible c = true := by
        rw [scanElements, bind_eq_ok] at h
        obtain ⟨⟨a, r⟩, helement, -⟩ := h
        obtain ⟨d, q, heq, hd⟩ := hstarts _ _ _ helement
        rw [(List.cons.inj heq).1]
        exact hd
      obtain ⟨after', hskip', hrest⟩ := ht.skip hbreaks hskip hc
      unfold scanContents
      simp only [hskip', if_neg hend]
      have hsame : Respaced breaks (c :: after) (c :: after') :=
        .same (breaks_of_visible hbreaks hc) hrest
      have hspace : Through (fun c => isInnerBreak breaks c = false) s (skipWhitespace s) :=
        through_of_space (through_skipWhitespace s)
      rw [hskip] at hspace
      exact (hfollows _ _ hsame (by simp)).after hspace

end containers

/-! ### Values -/

section values
variable {value : Str → Except DecodeError (Json × Str)}

theorem scanMember_starts : Starts (scanMember value) := by
  intro s v rest h
  unfold scanMember at h
  rw [bind_eq_ok] at h
  obtain ⟨⟨key, r⟩, hkey, -⟩ := h
  unfold scanKey at hkey
  cases s with
  | nil => exact absurd hkey (by simp)
  | cons c s =>
    by_cases hquote : c = .scalar '"'
    · refine ⟨c, s, rfl, ?_⟩
      rw [hquote]
      decide
    · simp [hquote] at hkey

theorem scanMember_follow (hbreaks : BreaksOutside breaks) (hfollow : Follow breaks value)
    (hstarts : Starts value) : Follow breaks (scanMember value) := by
  intro s kv rest h
  unfold scanMember at h
  simp only [bind_eq_ok, pure_eq_ok] at h
  obtain ⟨⟨key, r⟩, hkey, ⟨v, rest'⟩, hvalue, heq⟩ := h
  obtain ⟨rfl, rfl⟩ := Prod.mk.inj heq
  obtain ⟨hsuffix, hfollows⟩ := hfollow _ _ _ hvalue
  cases s with
  | nil => exact absurd hkey (by simp [scanKey])
  | cons c s =>
    -- key, colon, value: each is read from the text that the one before leaves
    by_cases hquote : c = .scalar '"'
    · simp only [scanKey, if_pos hquote, bind_eq_ok] at hkey
      obtain ⟨⟨key', q⟩, hstring, hkey⟩ := hkey
      obtain ⟨hsuffix', hstringFollows⟩ := scanString_follow hbreaks _ _ _ hstring
      have hspaces := (through_skipWhitespace q).suffix
      cases hskip : skipWhitespace q with
      | nil =>
        simp only [hskip] at hkey
        exact absurd hkey (by simp)
      | cons d after =>
        simp only [hskip] at hkey
        rw [hskip] at hspaces
        by_cases hcolon : d = .scalar ':'
        · rw [if_pos hcolon] at hkey
          obtain ⟨rfl, rfl⟩ := Prod.mk.inj (pure_eq_ok.mp hkey)
          have hstart := (through_skipWhitespace after).suffix
          have hrest : rest <:+ q :=
            (hsuffix.trans hstart).trans ((List.suffix_cons d after).trans hspaces)
          refine ⟨hrest.trans (hsuffix'.trans (List.suffix_cons c s)), ?_⟩
          intro t ht
          have hc : isVisible c = true := by
            rw [hquote]
            decide
          have hd : isVisible d = true := by
            rw [hcolon]
            decide
          obtain ⟨t', rfl, ht'⟩ := ht.visible hbreaks hc
          simp only [scanMember, scanKey, if_pos hquote, bind_assoc]
          refine Follows.after ?_ ((Through.refl s).cons (isInnerBreak_of_visible hc))
          -- a break inside the key already decides; otherwise the respaced text has the key too
          refine (hstringFollows t' ht').bind hrest ?_
          intro q' _ hq'
          obtain ⟨after', hskip', hafter⟩ := hq'.skip hbreaks hskip hd
          obtain ⟨e, p, he, hvisible⟩ := hstarts _ _ _ hvalue
          obtain ⟨p', hp', hlater⟩ := hafter.skip hbreaks he hvisible
          have hrespaced : Respaced breaks (skipWhitespace after) (skipWhitespace after') := by
            have hafter' : skipWhitespace after = e :: p := he
            rw [hafter', hp']
            exact .same (breaks_of_visible hbreaks hvisible) hlater
          simp only [hskip', if_pos hcolon, pure_bind]
          have hmap := (hfollows _ hrespaced).map fun v => (key, v)
          exact hmap.after ((through_to_visible hd hskip).trans
            (through_of_space (through_skipWhitespace after)))
        · simp [hcolon] at hkey
    · simp [scanKey, hquote] at hkey

theorem startsVisible_of_through (h : Through (fun c => isVisible c = true) s rest)
    (hlength : rest.length < s.length) : StartsVisible s := by
  obtain ⟨used, rfl, hused⟩ := h
  cases used with
  | nil => exact absurd hlength (by simp)
  | cons c used => exact ⟨c, used ++ rest, rfl, hused c List.mem_cons_self⟩

variable {array object : Str → Except DecodeError (Json × Str)}

/-- A value starts at a visible character: a quote, a bracket, a constant or a number. -/
theorem scanToken_starts : Starts (scanToken array object) := by
  have hnobreaks : BreaksOutside fun _ => false := by simp [BreaksOutside]
  intro s v rest h
  obtain ⟨t, ht⟩ := exists_respaced (fun _ => false) s
  cases s with
  | nil => exact absurd h (by simp [scanToken])
  | cons c s =>
    by_cases hvisible : isVisible c = true
    · exact ⟨c, s, rfl, hvisible⟩
    exfalso
    have hne : ∀ d, isVisible d = true → c ≠ d := by
      rintro d hd rfl
      exact hvisible hd
    rw [scanToken, if_neg (hne _ (by decide)), if_neg (hne _ (by decide)),
      if_neg (hne _ (by decide))] at h
    have hstart : ¬ StartsVisible (c :: s) := by
      intro hs
      obtain ⟨d, s', heq, hd⟩ := hs
      exact hne d hd (List.cons.inj heq).1
    have hconstant := scanConstant_respaced hnobreaks ht
    have hnumber := matchNumber_respaced hnobreaks ht
    cases hc : scanConstant (c :: s) with
    | some r =>
      rw [hc] at hconstant
      exact hstart (startsVisible_of_through hconstant.through (scanConstant_length hc))
    | none =>
      simp only [hc] at h
      cases hn : matchNumber (c :: s) with
      | some r =>
        rw [hn] at hnumber
        exact hstart (startsVisible_of_through hnumber.through (matchNumber_length hn))
      | none =>
        simp only [hn] at h
        exact absurd h (by simp)

theorem scanToken_follow (hbreaks : BreaksOutside breaks) (harray : Follow breaks array)
    (hobject : Follow breaks object) : Follow breaks (scanToken array object) := by
  intro s v rest h
  obtain ⟨c, s, rfl, hc⟩ := scanToken_starts s v rest h
  have hkept : Through (fun c => isInnerBreak breaks c = false) (c :: s) s :=
    (Through.refl s).cons (isInnerBreak_of_visible hc)
  rw [scanToken] at h
  by_cases hquote : c = .scalar '"'
  · simp only [if_pos hquote, bind_eq_ok, pure_eq_ok] at h
    obtain ⟨⟨x, r⟩, hstring, heq⟩ := h
    obtain ⟨rfl, rfl⟩ := Prod.mk.inj heq
    obtain ⟨hsuffix, hfollows⟩ := scanString_follow hbreaks _ _ _ hstring
    refine ⟨hsuffix.trans (List.suffix_cons c s), ?_⟩
    intro t ht
    obtain ⟨t', rfl, ht'⟩ := ht.visible hbreaks hc
    rw [scanToken, if_pos hquote]
    exact ((hfollows t' ht').map Json.str).after hkept
  rw [if_neg hquote] at h
  by_cases hbrace : c = .scalar '{'
  · rw [if_pos hbrace] at h
    obtain ⟨hsuffix, hfollows⟩ := hobject _ _ _ h
    refine ⟨hsuffix.trans (List.suffix_cons c s), ?_⟩
    intro t ht
    obtain ⟨t', rfl, ht'⟩ := ht.visible hbreaks hc
    rw [scanToken, if_neg hquote, if_pos hbrace]
    exact (hfollows t' ht').after hkept
  rw [if_neg hbrace] at h
  by_cases hbracket : c = .scalar '['
  · rw [if_pos hbracket] at h
    obtain ⟨hsuffix, hfollows⟩ := harray _ _ _ h
    refine ⟨hsuffix.trans (List.suffix_cons c s), ?_⟩
    intro t ht
    obtain ⟨t', rfl, ht'⟩ := ht.visible hbreaks hc
    rw [scanToken, if_neg hquote, if_neg hbrace, if_pos hbracket]
    exact (hfollows t' ht').after hkept
  rw [if_neg hbracket] at h
  -- a constant or a number: nothing but visible characters is read
  have hliteral : Through (fun c => isVisible c = true) (c :: s) rest ∧
      ∀ t, Respaced breaks (c :: s) t → ∃ rest', scanToken array object t = .ok (v, rest') ∧
        Respaced breaks rest rest' := by
    have hread : ∀ t, Respaced breaks (c :: s) t →
        Through (fun c => isVisible c = true) (c :: s) rest ∧
          ∃ rest', scanToken array object t = .ok (v, rest') ∧ Respaced breaks rest rest' := by
      intro t ht
      have hconstant := scanConstant_respaced hbreaks ht
      have hnumber := matchNumber_respaced hbreaks ht
      obtain ⟨t', rfl, -⟩ := ht.visible hbreaks hc
      rw [scanToken, if_neg hquote, if_neg hbrace, if_neg hbracket]
      generalize scanConstant (c :: s) = x, scanConstant (c :: t') = y at hconstant h ⊢
      cases hconstant with
      | @some x y hread =>
        obtain ⟨w, r⟩ := x
        obtain ⟨w', r'⟩ := y
        obtain ⟨hthrough, rfl, hr⟩ := hread
        obtain ⟨rfl, rfl⟩ := Prod.mk.inj (Except.ok.inj h)
        exact ⟨hthrough, r', rfl, hr⟩
      | none =>
        simp only at h ⊢
        generalize matchNumber (c :: s) = x, matchNumber (c :: t') = y at hnumber h ⊢
        cases hnumber with
        | none => exact absurd h (by simp)
        | @some x y hread =>
          obtain ⟨literal, r⟩ := x
          obtain ⟨literal', r'⟩ := y
          obtain ⟨hthrough, rfl, hr⟩ := hread
          simp only [bind_eq_ok, pure_eq_ok] at h
          obtain ⟨w, hw, heq⟩ := h
          obtain ⟨rfl, rfl⟩ := Prod.mk.inj heq
          refine ⟨hthrough, r', ?_, hr⟩
          simp only [hw]
          rfl
    obtain ⟨t, ht⟩ := exists_respaced breaks (c :: s)
    exact ⟨(hread t ht).1, fun t ht => (hread t ht).2⟩
  obtain ⟨hthrough, hsame⟩ := hliteral
  refine ⟨hthrough.suffix, ?_⟩
  intro t ht
  obtain ⟨rest', hscan, hrest⟩ := hsame t ht
  rw [hscan]
  exact .same (through_of_visible hthrough) hrest

theorem scanOnce_starts (depth : ℕ) : Starts (scanOnce depth) := by
  cases depth with
  | zero => exact scanToken_starts
  | succ depth => exact scanToken_starts

/-- **A value is read alike**, whatever is nested in it. -/
theorem scanOnce_follow (hbreaks : BreaksOutside breaks) (depth : ℕ) :
    Follow breaks (scanOnce depth) := by
  have hmap : ∀ {γ : Type} {scan : Str → Except DecodeError (γ × Str)} (g : γ → Json),
      Follow breaks scan → Follow breaks fun rest => scan rest >>= fun x => pure (g x.1, x.2) := by
    intro γ scan g hscan s v rest h
    simp only [bind_eq_ok, pure_eq_ok] at h
    obtain ⟨⟨x, r⟩, hx, heq⟩ := h
    obtain ⟨rfl, rfl⟩ := Prod.mk.inj heq
    obtain ⟨hsuffix, hfollows⟩ := hscan _ _ _ hx
    exact ⟨hsuffix, fun t ht => (hfollows t ht).map g⟩
  induction depth with
  | zero =>
    apply scanToken_follow hbreaks
    · intro s v rest h
      exact absurd h (by simp)
    · intro s v rest h
      exact absurd h (by simp)
  | succ depth ih =>
    have hstarts := scanOnce_starts depth
    have hconsumes := scanOnce_consumes depth
    apply scanToken_follow hbreaks
    · exact hmap Json.arr (scanContents_follow hbreaks (by decide) ih hstarts hconsumes)
    · exact hmap (fun members => Json.obj (fieldsOf members))
        (scanContents_follow hbreaks (by decide) (scanMember_follow hbreaks ih hstarts)
          scanMember_starts (scanMember_consumes hconsumes))

/-- **A respaced text has the same value**, unless a break stands inside a string; then it is
    no JSON text. -/
theorem loads_respaced (hbreaks : BreaksOutside breaks) {depth : ℕ} {v : Json}
    (hs : loads depth s = .ok v) (ht : Respaced breaks s t) :
    (∀ c ∈ s, isInnerBreak breaks c = false) ∧ loads depth t = .ok v ∨
      (∃ c ∈ s, isInnerBreak breaks c = true) ∧ ∃ e, loads depth t = .error e := by
  unfold loads at hs
  simp only [bind_eq_ok, require_eq_ok, pure_eq_ok] at hs
  obtain ⟨-, hbom, ⟨w, rest⟩, hscan, -, hend, rfl⟩ := hs
  obtain ⟨c, s', hskip, hc⟩ := scanOnce_starts depth _ _ _ hscan
  obtain ⟨-, hfollows⟩ := scanOnce_follow hbreaks depth _ _ _ hscan
  obtain ⟨t', hskip', hrest⟩ := ht.skip hbreaks hskip hc
  have hrespaced : Respaced breaks (skipWhitespace s) (skipWhitespace t) := by
    rw [hskip, hskip']
    exact .same (breaks_of_visible hbreaks hc) hrest
  have hfollow := hfollows _ hrespaced
  -- what follows the value is whitespace, and a break there is none inside a string
  have hspaces : ∀ c ∈ rest, isInnerBreak breaks c = false := by
    intro c hc
    exact isInnerBreak_of_space (skipWhitespace_eq_nil.mp hend c hc)
  have hleading : Through (fun c => isInnerBreak breaks c = false) s (skipWhitespace s) :=
    through_of_space (through_skipWhitespace s)
  obtain ⟨leading, hs, hleading⟩ := hleading
  have hbom' : t.head? ≠ some (.scalar '\uFEFF') := by
    intro hmark
    obtain ⟨t'', rfl⟩ := List.head?_eq_some_iff.mp hmark
    have hkeep : skipWhitespace (.scalar '\uFEFF' :: t'') = .scalar '\uFEFF' :: t'' :=
      List.dropWhile_cons_of_neg (by decide)
    rw [hkeep] at hskip'
    rw [← (List.cons.inj hskip').1] at hc
    exact absurd hc (by decide)
  unfold loads
  rw [require, if_pos hbom']
  show _ ∧ (scanOnce depth (skipWhitespace t) >>= _) = _ ∨ _ ∧ ∃ e, (_ >>= _) = _
  generalize scanOnce depth (skipWhitespace t) = y at hfollow ⊢
  -- either the scanner reads the same value to the end, or it meets a broken string
  cases hfollow with
  | @same rest' hthrough hrest' =>
    left
    obtain ⟨used, hused, hkept⟩ := hthrough
    constructor
    · intro c hc
      rw [hs, hused] at hc
      rcases List.mem_append.mp hc with hc | hc
      · exact hleading c hc
      · rcases List.mem_append.mp hc with hc | hc
        · exact hkept c hc
        · exact hspaces c hc
    · show (require (skipWhitespace rest' = []) DecodeError.jsonDecode >>= fun _ => pure v) = _
      rw [hrest'.skip_nil hend]
      rfl
  | @broken used e hused hbreak =>
    right
    obtain ⟨c, hc, hinner⟩ := hbreak
    refine ⟨⟨c, ?_, hinner⟩, e, rfl⟩
    rw [hs, hused]
    exact List.mem_append_right _ (List.mem_append_left _ hc)

/-! ### The text of an object -/

theorem scanElements_close {element : Str → Except DecodeError (α × Str)} {close : CodePoint}
    (hsuffix : ∀ s v rest, element s = .ok (v, rest) → rest <:+ s) {fuel : ℕ} {as : List α}
    (h : scanElements close element fuel s = .ok (as, rest)) : close :: rest <:+ s := by
  induction fuel generalizing s as with
  | zero => exact absurd h (by simp [scanElements])
  | succ fuel ih =>
    rw [scanElements, bind_eq_ok] at h
    obtain ⟨⟨a, r⟩, helement, h⟩ := h
    have hread := hsuffix _ _ _ helement
    have hspaces := (through_skipWhitespace r).suffix
    cases hskip : skipWhitespace r with
    | nil =>
      simp only [hskip] at h
      exact absurd h (by simp)
    | cons c after =>
      simp only [hskip] at h
      rw [hskip] at hspaces
      by_cases hend : c = close
      · rw [if_pos hend] at h
        obtain ⟨rfl, rfl⟩ := Prod.mk.inj (pure_eq_ok.mp h)
        rw [hend] at hspaces
        exact hspaces.trans hread
      rw [if_neg hend] at h
      by_cases hcomma : c = .scalar ','
      · rw [if_pos hcomma, bind_eq_ok] at h
        obtain ⟨⟨as', rest'⟩, hmore, heq⟩ := h
        obtain ⟨rfl, rfl⟩ := Prod.mk.inj (pure_eq_ok.mp heq)
        have hstart := (through_skipWhitespace after).suffix
        exact (((ih hmore).trans hstart).trans ((List.suffix_cons c after).trans hspaces)).trans hread
      · rw [if_neg hcomma] at h
        exact absurd h (by simp)

theorem scanContents_close {element : Str → Except DecodeError (α × Str)} {close : CodePoint}
    (hsuffix : ∀ s v rest, element s = .ok (v, rest) → rest <:+ s) {as : List α}
    (h : scanContents close element s = .ok (as, rest)) : close :: rest <:+ s := by
  unfold scanContents at h
  have hspaces := (through_skipWhitespace s).suffix
  cases hskip : skipWhitespace s with
  | nil =>
    simp only [hskip] at h
    exact absurd h (by simp)
  | cons c after =>
    simp only [hskip] at h
    rw [hskip] at hspaces
    by_cases hend : c = close
    · rw [if_pos hend] at h
      obtain ⟨rfl, rfl⟩ := Prod.mk.inj (Except.ok.inj h)
      rw [hend] at hspaces
      exact hspaces
    · rw [if_neg hend] at h
      exact (scanElements_close hsuffix h).trans hspaces

/-- An object is read from a brace to a brace. -/
theorem scanOnce_object {depth : ℕ} {fields : List (Str × Json)}
    (h : scanOnce depth s = .ok (.obj fields, rest)) :
    ∃ inside, s = .scalar '{' :: (inside ++ .scalar '}' :: rest) := by
  have hnobreaks : BreaksOutside fun _ => false := by simp [BreaksOutside]
  have htoken : ∀ array object : Str → Except DecodeError (Json × Str),
      (∀ s v rest, array s = .ok (v, rest) → ∀ fields, v ≠ .obj fields) →
      (∀ s v rest, object s = .ok (v, rest) → .scalar '}' :: rest <:+ s) →
      scanToken array object s = .ok (.obj fields, rest) →
      ∃ inside, s = .scalar '{' :: (inside ++ .scalar '}' :: rest) := by
    intro array object harray hobject hscan
    cases s with
    | nil => exact absurd hscan (by simp [scanToken])
    | cons c s =>
      rw [scanToken] at hscan
      -- of what a token can begin with only the brace gives an object
      by_cases hquote : c = .scalar '"'
      · simp only [if_pos hquote, bind_eq_ok, pure_eq_ok] at hscan
        obtain ⟨⟨x, r⟩, -, heq⟩ := hscan
        exact absurd (Prod.mk.inj heq).1 (by simp)
      rw [if_neg hquote] at hscan
      by_cases hbrace : c = .scalar '{'
      · rw [if_pos hbrace] at hscan
        obtain ⟨inside, hinside⟩ := hobject _ _ _ hscan
        exact ⟨inside, by rw [hbrace, hinside]⟩
      rw [if_neg hbrace] at hscan
      by_cases hbracket : c = .scalar '['
      · rw [if_pos hbracket] at hscan
        exact absurd rfl (harray _ _ _ hscan fields)
      rw [if_neg hbracket] at hscan
      cases hconstant : scanConstant (c :: s) with
      | some r =>
        obtain ⟨⟨name, v⟩, hmem, hstarts⟩ := List.exists_of_findSome?_eq_some hconstant
        simp only [hconstant, Except.ok.injEq] at hscan
        subst hscan
        simp only [Option.map_eq_some_iff, Prod.mk.injEq] at hstarts
        obtain ⟨_, -, hv, -⟩ := hstarts
        rw [hv] at hmem
        simp [constants] at hmem
      | none =>
        simp only [hconstant] at hscan
        cases hnumber : matchNumber (c :: s) with
        | none =>
          simp only [hnumber] at hscan
          exact absurd hscan (by simp)
        | some r =>
          simp only [hnumber, bind_eq_ok, pure_eq_ok] at hscan
          obtain ⟨w, hw, heq⟩ := hscan
          rw [← (Prod.mk.inj heq).1] at hw
          cases hliteral : r.1 with
          | int negative digits =>
            rw [hliteral, NumberLiteral.convert] at hw
            by_cases hlong : maxStrDigits < digits.length
            · simp [hlong] at hw
            · simp [hlong] at hw
          | float text =>
            rw [hliteral, NumberLiteral.convert] at hw
            exact absurd (Except.ok.inj hw) (by simp)
  cases depth with
  | zero => exact htoken _ _ (by simp) (by simp) h
  | succ depth =>
    have hmember : ∀ s v rest, scanMember (scanOnce depth) s = .ok (v, rest) → rest <:+ s :=
      fun s v rest hscan => (scanMember_follow hnobreaks (scanOnce_follow hnobreaks depth)
        (scanOnce_starts depth) s v rest hscan).1
    refine htoken _ _ ?_ ?_ h
    · intro s v rest hscan fields
      simp only [bind_eq_ok, pure_eq_ok] at hscan
      obtain ⟨⟨items, r⟩, -, heq⟩ := hscan
      rw [(Prod.mk.inj heq).1]
      simp
    · intro s v rest hscan
      simp only [bind_eq_ok, pure_eq_ok] at hscan
      obtain ⟨⟨members, r⟩, hcontents, heq⟩ := hscan
      rw [(Prod.mk.inj heq).2]
      exact scanContents_close hmember hcontents

/-- Whitespace before a value is skipped. -/
theorem loads_spaces {depth : ℕ} {before : Str} (hbefore : ∀ c ∈ before, isJsonSpace c = true)
    (hs : StartsVisible s) : loads depth (before ++ s) = loads depth s := by
  obtain ⟨c, s', rfl, hc⟩ := hs
  have hskip : skipWhitespace (before ++ c :: s') = skipWhitespace (c :: s') :=
    List.dropWhile_append_of_pos hbefore
  have hmark : (before ++ c :: s').head? ≠ some (.scalar '\uFEFF') := by
    cases before with
    | nil =>
      intro heq
      rw [Option.some.inj heq] at hc
      exact absurd hc (by decide)
    | cons b before =>
      intro heq
      have hb := hbefore b List.mem_cons_self
      rw [Option.some.inj heq] at hb
      exact absurd hb (by decide)
  have hmark' : (c :: s').head? ≠ some (.scalar '\uFEFF') := by
    intro heq
    rw [Option.some.inj heq] at hc
    exact absurd hc (by decide)
  unfold loads
  rw [hskip, require, require, if_pos hmark, if_pos hmark']

/-- A JSON object is a text from brace to brace, with whitespace around it. -/
theorem loads_object {depth : ℕ} {fields : List (Str × Json)}
    (h : loads depth s = .ok (.obj fields)) : ∃ before inside after,
      s = before ++ .scalar '{' :: (inside ++ .scalar '}' :: after) ∧
        (∀ c ∈ before, isJsonSpace c = true) ∧ ∀ c ∈ after, isJsonSpace c = true := by
  unfold loads at h
  simp only [bind_eq_ok, require_eq_ok, pure_eq_ok] at h
  obtain ⟨-, -, ⟨v, after⟩, hscan, -, hend, rfl⟩ := h
  obtain ⟨inside, hinside⟩ := scanOnce_object hscan
  obtain ⟨before, hs, hbefore⟩ := through_skipWhitespace s
  exact ⟨before, inside, after, by rw [hs, hinside], hbefore, skipWhitespace_eq_nil.mp hend⟩

end values

end respaced

end Py
