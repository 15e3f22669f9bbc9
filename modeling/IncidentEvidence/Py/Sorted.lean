import Mathlib

/-! # `sorted`

    Python's `sorted` is stable and only ever asks `<`. A comparison need not be
    an order on the whole type (floats have NaN), so the facts below ask for the
    order laws on the elements of the list alone.
-/

namespace Py

variable {α β : Type}

/-- `sorted(l)` by a `<` test. Where the test is no order, as on floats with a NaN among
    them, `sorted` may order the list in another way. -/
def sortedBy (lt : α → α → Bool) (l : List α) : List α :=
  l.insertionSort fun a b => lt b a = false

/-- `sorted(l, key=key)` for keys with a total order. -/
def sortedOn {κ : Type} [LinearOrder κ] (key : α → κ) (l : List α) : List α :=
  sortedBy (fun a b => decide (key a < key b)) l

/-- `<` behaves as the strict part of a total preorder on the elements of `l`. -/
structure OrderedOn (lt : α → α → Bool) (l : List α) : Prop where
  total : ∀ a ∈ l, ∀ b ∈ l, lt a b = false ∨ lt b a = false
  trans : ∀ a ∈ l, ∀ b ∈ l, ∀ c ∈ l, lt b a = false → lt c b = false → lt c a = false

theorem perm_sortedBy (lt : α → α → Bool) (l : List α) : (sortedBy lt l).Perm l :=
  List.perm_insertionSort _ l

@[simp] theorem mem_sortedBy {lt : α → α → Bool} {l : List α} {a : α} :
    a ∈ sortedBy lt l ↔ a ∈ l :=
  List.mem_insertionSort _

@[simp] theorem length_sortedBy (lt : α → α → Bool) (l : List α) :
    (sortedBy lt l).length = l.length :=
  List.length_insertionSort _ l

/-- A sorted list stays as it is. -/
theorem sortedBy_eq_self {lt : α → α → Bool} {l : List α}
    (h : l.Pairwise fun a b => lt b a = false) : sortedBy lt l = l :=
  List.Pairwise.insertionSort_eq h

/-- Sorting commutes with a map that preserves the comparison. -/
theorem map_sortedBy (f : α → β) {lt : α → α → Bool} {lt' : β → β → Bool} (l : List α)
    (h : ∀ a ∈ l, ∀ b ∈ l, lt a b = lt' (f a) (f b)) :
    (sortedBy lt l).map f = sortedBy lt' (l.map f) := by
  apply List.map_insertionSort
  intro a ha b hb
  rw [h b hb a ha]

theorem pairwise_sortedBy {lt : α → α → Bool} {l : List α} (h : OrderedOn lt l) :
    (sortedBy lt l).Pairwise fun a b => lt b a = false := by
  -- on the subtype of the elements of `l` the comparison is a total preorder
  let r : {a // a ∈ l} → {a // a ∈ l} → Bool := fun a b => lt a.1 b.1
  have hmap : (sortedBy r l.attach).map Subtype.val = sortedBy lt l := by
    have hval := @map_sortedBy _ _ Subtype.val r lt l.attach fun _ _ _ _ => rfl
    rw [hval, List.attach_map_subtype_val]
  have htotal : Std.Total (fun a b : {a // a ∈ l} => r b a = false) :=
    ⟨fun a b => (h.total a.1 a.2 b.1 b.2).symm⟩
  have htrans : IsTrans {a // a ∈ l} (fun a b => r b a = false) :=
    ⟨fun a b c hab hbc => h.trans a.1 a.2 b.1 b.2 c.1 c.2 hab hbc⟩
  rw [← hmap, List.pairwise_map]
  exact List.pairwise_insertionSort _ l.attach

theorem orderedOn_key {κ : Type} [LinearOrder κ] (key : α → κ) (l : List α) :
    OrderedOn (fun a b => decide (key a < key b)) l where
  total a _ b _ := by
    simpa using le_total (key b) (key a)
  trans a _ b _ c _ := by
    simpa using fun hab hbc => le_trans hab hbc

@[simp] theorem mem_sortedOn {κ : Type} [LinearOrder κ] {key : α → κ} {l : List α} {a : α} :
    a ∈ sortedOn key l ↔ a ∈ l :=
  mem_sortedBy

theorem perm_sortedOn {κ : Type} [LinearOrder κ] (key : α → κ) (l : List α) :
    (sortedOn key l).Perm l :=
  perm_sortedBy _ l

theorem pairwise_sortedOn {κ : Type} [LinearOrder κ] (key : α → κ) (l : List α) :
    (sortedOn key l).Pairwise fun a b => key a ≤ key b :=
  (pairwise_sortedBy (orderedOn_key key l)).imp fun h => by simpa using h

theorem sortedOn_eq_self {κ : Type} [LinearOrder κ] {key : α → κ} {l : List α}
    (h : l.Pairwise fun a b => key a ≤ key b) : sortedOn key l = l :=
  sortedBy_eq_self (h.imp fun hab => by simpa using hab)

/-- Sorting by a key that tells the elements apart lists the keys in strictly
    increasing order. -/
theorem strict_sortedOn {κ : Type} [LinearOrder κ] {key : α → κ} {l : List α}
    (h : (l.map key).Nodup) : (sortedOn key l).Pairwise fun a b => key a < key b := by
  have hnodup : ((sortedOn key l).map key).Nodup :=
    ((perm_sortedOn key l).map key).nodup_iff.mpr h
  exact ((pairwise_sortedOn key l).and (List.pairwise_map.mp hnodup)).imp
    fun hab => lt_of_le_of_ne hab.1 hab.2

/-- Two permutations sorted by keys that tell the elements apart are equal. -/
theorem sortedOn_eq_of_perm {κ : Type} [LinearOrder κ] {key : α → κ} {l l' : List α}
    (hperm : l.Perm l') (hnodup : (l.map key).Nodup) : sortedOn key l = sortedOn key l' := by
  have hnodup' : (l'.map key).Nodup := (hperm.map key).nodup_iff.mp hnodup
  have hasymm : ∀ a b, a ∈ sortedOn key l → b ∈ sortedOn key l' → key a < key b → key b < key a →
      a = b := fun a b _ _ hab hba => absurd hab (lt_asymm hba)
  exact List.Perm.eq_of_pairwise hasymm (strict_sortedOn hnodup) (strict_sortedOn hnodup')
    (((perm_sortedOn key l).trans hperm).trans (perm_sortedOn key l').symm)

/-- Correspondences of lists compose. -/
theorem forall₂_trans {γ : Type} {R : α → β → Prop} {S : β → γ → Prop} {T : α → γ → Prop}
    {l : List α} {l' : List β} {l'' : List γ} (h : List.Forall₂ R l l')
    (h' : List.Forall₂ S l' l'') (htrans : ∀ a b c, R a b → S b c → T a c) :
    List.Forall₂ T l l'' := by
  induction h generalizing l'' with
  | nil =>
    cases h'
    exact .nil
  | cons hab _ ih =>
    cases h' with
    | cons hbc hrest => exact .cons (htrans _ _ _ hab hbc) (ih hrest)

/-- A correspondence along a function is a map. -/
theorem map_eq_of_forall₂ {R : α → β → Prop} {f : α → β} {l : List α} {l' : List β}
    (h : List.Forall₂ R l l') (hf : ∀ a b, R a b → b = f a) : l' = l.map f := by
  have hmap : List.Forall₂ (fun b b' => b = b') (l.map f) l' := by
    rw [List.forall₂_map_left_iff]
    apply h.imp
    intro a b hab
    exact (hf a b hab).symm
  rw [List.forall₂_eq_eq_eq] at hmap
  exact hmap.symm

/-- Sorting two lists whose elements correspond, and compare alike, keeps them in
    correspondence. -/
theorem forall₂_sortedBy {R : α → β → Prop} {lt : α → α → Bool} {lt' : β → β → Bool}
    {l : List α} {l' : List β} (h : List.Forall₂ R l l')
    (hlt : ∀ a ∈ l, ∀ a' ∈ l, ∀ b ∈ l', ∀ b' ∈ l', R a b → R a' b' → lt a a' = lt' b b') :
    List.Forall₂ R (sortedBy lt l) (sortedBy lt' l') := by
  -- sort the pairs instead: both comparisons order them in the same way
  obtain ⟨hlength, hpairs⟩ := List.forall₂_iff_zip.mp h
  have hfst : (l.zip l').map Prod.fst = l := List.map_fst_zip hlength.le
  have hsnd : (l.zip l').map Prod.snd = l' := List.map_snd_zip hlength.ge
  let byFirst : α × β → α × β → Bool := fun p q => lt p.1 q.1
  have hleft : (sortedBy byFirst (l.zip l')).map Prod.fst = sortedBy lt l := by
    rw [map_sortedBy Prod.fst (l.zip l') fun p _ q _ => rfl, hfst]
  have hright : (sortedBy byFirst (l.zip l')).map Prod.snd = sortedBy lt' l' := by
    have hsame : ∀ p ∈ l.zip l', ∀ q ∈ l.zip l', byFirst p q = lt' p.2 q.2 := by
      intro p hp q hq
      obtain ⟨hpl, hpl'⟩ := List.of_mem_zip hp
      obtain ⟨hql, hql'⟩ := List.of_mem_zip hq
      exact hlt p.1 hpl q.1 hql p.2 hpl' q.2 hql' (hpairs hp) (hpairs hq)
    rw [map_sortedBy Prod.snd (l.zip l') hsame, hsnd]
  rw [← hleft, ← hright, List.forall₂_map_left_iff, List.forall₂_map_right_iff,
    List.forall₂_same]
  intro p hp
  exact hpairs (mem_sortedBy.mp hp)

/-- A list and a permutation of it, both sorted, agree at every place up to elements
    that neither comes before the other. -/
theorem forall₂_sortedBy_of_perm {lt : α → α → Bool} {l l' : List α} (h : OrderedOn lt l)
    (hperm : l.Perm l') :
    List.Forall₂ (fun a b => lt a b = false ∧ lt b a = false) (sortedBy lt l)
      (sortedBy lt l') := by
  have h' : OrderedOn lt l' :=
    ⟨fun a ha b hb => h.total a (hperm.mem_iff.mpr ha) b (hperm.mem_iff.mpr hb),
      fun a ha b hb c hc => h.trans a (hperm.mem_iff.mpr ha) b (hperm.mem_iff.mpr hb) c
        (hperm.mem_iff.mpr hc)⟩
  -- the class of an element: the elements of the list it is level with
  let cls : α → Set α := fun a => {x | x ∈ l ∧ lt a x = false ∧ lt x a = false}
  have hmem : ∀ {a b}, a ∈ l → b ∈ l → cls a = cls b → lt a b = false ∧ lt b a = false := by
    intro a b ha hb hab
    have hself : lt b b = false := (h.total b hb b hb).elim id id
    have hb' : b ∈ cls b := ⟨hb, hself, hself⟩
    rw [← hab] at hb'
    exact hb'.2
  have hcls : ∀ {a b}, a ∈ l → b ∈ l → lt a b = false → lt b a = false → cls a = cls b := by
    intro a b ha hb hab hba
    ext x
    constructor
    · intro hx
      exact ⟨hx.1, h.trans x hx.1 a ha b hb hx.2.1 hba, h.trans b hb a ha x hx.1 hab hx.2.2⟩
    · intro hx
      exact ⟨hx.1, h.trans x hx.1 b hb a ha hx.2.1 hab, h.trans a ha b hb x hx.1 hba hx.2.2⟩
  let r : Set α → Set α → Prop := fun C D => ∃ a ∈ l, ∃ b ∈ l, C = cls a ∧ D = cls b ∧ lt b a = false
  have hclasses : (sortedBy lt l).map cls = (sortedBy lt l').map cls := by
    have hleft : ((sortedBy lt l).map cls).Pairwise r := by
      rw [List.pairwise_map]
      apply (pairwise_sortedBy h).imp_of_mem
      intro a b ha hb hab
      exact ⟨a, mem_sortedBy.mp ha, b, mem_sortedBy.mp hb, rfl, rfl, hab⟩
    have hright : ((sortedBy lt l').map cls).Pairwise r := by
      rw [List.pairwise_map]
      apply (pairwise_sortedBy h').imp_of_mem
      intro a b ha hb hab
      exact ⟨a, hperm.mem_iff.mpr (mem_sortedBy.mp ha), b,
        hperm.mem_iff.mpr (mem_sortedBy.mp hb), rfl, rfl, hab⟩
    apply List.Perm.eq_of_pairwise _ hleft hright
    · exact (((perm_sortedBy lt l).trans hperm).trans (perm_sortedBy lt l').symm).map cls
    · intro C D _ _ hCD hDC
      obtain ⟨a, ha, b, hb, rfl, rfl, hba⟩ := hCD
      obtain ⟨b', hb', a', ha', hbb', haa', hab'⟩ := hDC
      -- both comparisons are about the same two classes
      have haa := hmem ha ha' haa'
      have hbb := hmem hb hb' hbb'
      have hab : lt a b = false := by
        apply h.trans b hb b' hb' a ha hbb.2
        exact h.trans b' hb' a' ha' a ha hab' haa.1
      exact hcls ha hb hab hba
  have hlevel : List.Forall₂ (fun a b => cls a = cls b) (sortedBy lt l) (sortedBy lt l') := by
    rw [← List.forall₂_map_left_iff (f := cls) (R := fun C b => C = cls b),
      ← List.forall₂_map_right_iff (f := cls) (R := fun C D => C = D), hclasses,
      List.forall₂_same]
    intro C _
    rfl
  obtain ⟨hlength, hpairs⟩ := List.forall₂_iff_zip.mp hlevel
  apply List.forall₂_iff_zip.mpr ⟨hlength, ?_⟩
  intro a b hab
  obtain ⟨ha, hb⟩ := List.of_mem_zip hab
  exact hmem (mem_sortedBy.mp ha) (hperm.mem_iff.mpr (mem_sortedBy.mp hb)) (hpairs hab)

end Py
