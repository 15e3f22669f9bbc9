import Mathlib

/-! # Checks that raise

    Reading a chain of checks in `Except` as a conjunction: the lemmas turn
    `do` blocks that end in `.ok` into the conditions they passed.
-/

namespace Py

variable {ε α β : Type}

/-- `if not condition: raise error`. -/
def require (p : Prop) [Decidable p] (e : ε) : Except ε Unit := if p then .ok () else .error e

@[simp] theorem require_eq_ok {p : Prop} [Decidable p] {e : ε} {u : Unit} :
    require p e = .ok u ↔ p := by
  unfold require
  split <;> simp_all

@[simp] theorem require_eq_error {p : Prop} [Decidable p] {e e' : ε} :
    require p e = .error e' ↔ ¬ p ∧ e = e' := by
  unfold require
  split <;> simp_all

@[simp] theorem bind_eq_ok {x : Except ε α} {f : α → Except ε β} {b : β} :
    (x >>= f) = .ok b ↔ ∃ a, x = .ok a ∧ f a = .ok b := by
  cases x <;> simp [bind, Except.bind]

@[simp] theorem bind_eq_error {x : Except ε α} {f : α → Except ε β} {e : ε} :
    (x >>= f) = .error e ↔ x = .error e ∨ ∃ a, x = .ok a ∧ f a = .error e := by
  cases x <;> simp [bind, Except.bind]

@[simp] theorem pure_eq_ok {a b : α} : (pure a : Except ε α) = .ok b ↔ b = a := by
  simp [pure, Except.pure, eq_comm]

@[simp] theorem pure_ne_error {a : α} {e : ε} : (pure a : Except ε α) ≠ .error e := by
  simp [pure, Except.pure]

@[simp] theorem throw_ne_ok {e : ε} {a : α} : (throw e : Except ε α) ≠ .ok a := by
  simp [throw, throwThe, MonadExceptOf.throw]

@[simp] theorem throw_eq_error {e e' : ε} : (throw e : Except ε α) = .error e' ↔ e = e' := by
  simp [throw, throwThe, MonadExceptOf.throw]

@[simp] theorem map_eq_ok {x : Except ε α} {f : α → β} {b : β} :
    (f <$> x) = .ok b ↔ ∃ a, x = .ok a ∧ f a = b := by
  cases x <;> simp [Functor.map, Except.map]

theorem exists_of_isOk {x : Except ε α} (h : x.isOk = true) : ∃ a, x = .ok a := by
  cases x with
  | ok a => exact ⟨a, rfl⟩
  | error e => exact absurd h (by simp [Except.isOk, Except.toBool])

/-- Every exception of `x` leaves as `e`. -/
def replaceError {ε' : Type} (e : ε') (x : Except ε α) : Except ε' α :=
  match x with
  | .ok a => .ok a
  | .error _ => .error e

@[simp] theorem replaceError_eq_ok {ε' : Type} {e : ε'} {x : Except ε α} {a : α} :
    replaceError e x = .ok a ↔ x = .ok a := by
  cases x <;> simp [replaceError]

@[simp] theorem replaceError_eq_error {ε' : Type} {e e' : ε'} {x : Except ε α} :
    replaceError e x = .error e' ↔ (∃ e₀, x = .error e₀) ∧ e = e' := by
  cases x <;> simp [replaceError]

/-- A partial operation whose exception is caught and replaced by `e`. -/
def orRaise (x : Option α) (e : ε) : Except ε α :=
  match x with
  | some a => .ok a
  | none => .error e

@[simp] theorem orRaise_eq_ok {x : Option α} {e : ε} {a : α} :
    orRaise x e = .ok a ↔ x = some a := by
  cases x <;> simp [orRaise]

@[simp] theorem orRaise_eq_error {x : Option α} {e e' : ε} :
    orRaise x e = .error e' ↔ x = none ∧ e = e' := by
  cases x <;> simp [orRaise]

/-- A loop that builds a list succeeds when every turn does. -/
theorem mapM_eq_ok {f : α → Except ε β} {l : List α} {l' : List β} :
    l.mapM f = .ok l' ↔ List.Forall₂ (fun a b => f a = .ok b) l l' := by
  induction l generalizing l' with
  | nil => cases l' <;> simp
  | cons a l ih =>
    simp only [List.mapM_cons, bind_eq_ok, pure_eq_ok, ih]
    constructor
    · rintro ⟨b, hb, bs, hbs, rfl⟩
      exact .cons hb hbs
    · rintro (_ | ⟨hb, hbs⟩)
      exact ⟨_, hb, _, hbs, rfl⟩

/-- The value of a turn is in the list that the loop builds. -/
theorem mem_of_mapM_eq_ok {f : α → Except ε β} {l : List α} {l' : List β} (h : l.mapM f = .ok l')
    {a : α} (ha : a ∈ l) : ∃ b ∈ l', f a = .ok b := by
  have hturns := mapM_eq_ok.mp h
  induction hturns with
  | nil => cases ha
  | cons hb hbs ih =>
    rcases List.mem_cons.mp ha with rfl | ha
    · exact ⟨_, List.mem_cons_self, hb⟩
    · obtain ⟨b, hmem, heq⟩ := ih (mapM_eq_ok.mpr hbs) ha
      exact ⟨b, List.mem_cons_of_mem _ hmem, heq⟩

/-- A loop whose turns all succeed. -/
theorem mapM_eq_map {f : α → Except ε β} {g : α → β} {l : List α} (h : ∀ a ∈ l, f a = .ok (g a)) :
    l.mapM f = .ok (l.map g) := by
  induction l with
  | nil => rfl
  | cons a l ih =>
    obtain ⟨ha, hl⟩ := List.forall_mem_cons.mp h
    rw [List.mapM_cons, ha, ih hl]
    rfl

/-- Loops with the same turns are the same loop. -/
theorem mapM_congr {f g : α → Except ε β} {l : List α} (h : ∀ a ∈ l, f a = g a) :
    l.mapM f = l.mapM g := by
  induction l with
  | nil => rfl
  | cons a l ih =>
    obtain ⟨ha, hl⟩ := List.forall_mem_cons.mp h
    rw [List.mapM_cons, List.mapM_cons, ha, ih hl]

theorem exists_mapM_eq_ok {f : α → Except ε β} {l : List α} :
    (∃ l', l.mapM f = .ok l') ↔ ∀ a ∈ l, ∃ b, f a = .ok b := by
  induction l with
  | nil => simp
  | cons a l ih =>
    simp only [List.mapM_cons, bind_eq_ok, pure_eq_ok, List.forall_mem_cons, ← ih]
    constructor
    · intro h
      obtain ⟨_, b, hb, bs, hbs, -⟩ := h
      exact ⟨⟨b, hb⟩, bs, hbs⟩
    · intro h
      obtain ⟨⟨b, hb⟩, bs, hbs⟩ := h
      exact ⟨_, b, hb, bs, hbs, rfl⟩

/-- A loop raises what its first failing turn raises. -/
theorem mapM_eq_error {f : α → Except ε β} {l : List α} {e : ε} :
    l.mapM f = .error e ↔ ∃ earlier a later, l = earlier ++ a :: later ∧
      (∀ x ∈ earlier, ∃ b, f x = .ok b) ∧ f a = .error e := by
  induction l with
  | nil =>
    constructor
    · intro h
      exact absurd h (by simp)
    · intro h
      obtain ⟨earlier, a, later, hl, -⟩ := h
      exact absurd hl (by simp)
  | cons a l ih =>
    simp only [List.mapM_cons, bind_eq_error, pure_ne_error, and_false, exists_false, or_false, ih]
    constructor
    · intro h
      rcases h with h | ⟨b, hb, earlier, c, later, rfl, hearlier, hc⟩
      · exact ⟨[], a, l, rfl, by simp, h⟩
      · refine ⟨a :: earlier, c, later, rfl, ?_, hc⟩
        exact List.forall_mem_cons.mpr ⟨⟨b, hb⟩, hearlier⟩
    · intro h
      obtain ⟨earlier, c, later, hl, hearlier, hc⟩ := h
      cases earlier with
      | nil =>
        obtain ⟨rfl, -⟩ := List.cons.inj hl
        exact Or.inl hc
      | cons d earlier =>
        obtain ⟨rfl, rfl⟩ := List.cons.inj hl
        obtain ⟨⟨b, hb⟩, hearlier⟩ := List.forall_mem_cons.mp hearlier
        exact Or.inr ⟨b, hb, earlier, c, later, rfl, hearlier, hc⟩

/-- A loop whose turns compute `g` on the elements that pass a test. -/
theorem mapM_eq_ok_of {f : α → Except ε β} {p : α → Prop} {g : α → β} {l : List α} {l' : List β}
    (h : ∀ a ∈ l, ∀ b, f a = .ok b ↔ p a ∧ b = g a) :
    l.mapM f = .ok l' ↔ (∀ a ∈ l, p a) ∧ l' = l.map g := by
  induction l generalizing l' with
  | nil => cases l' <;> simp
  | cons a l ih =>
    simp only [List.mapM_cons, bind_eq_ok, pure_eq_ok, List.forall_mem_cons, List.map_cons]
    have ih' : ∀ {l' : List β}, l.mapM f = .ok l' ↔ (∀ a ∈ l, p a) ∧ l' = l.map g :=
      fun {_} => ih fun b hb => h b (List.mem_cons_of_mem a hb)
    constructor
    · rintro ⟨b, hb, bs, hbs, rfl⟩
      obtain ⟨ha, rfl⟩ := (h a List.mem_cons_self b).mp hb
      obtain ⟨hl, rfl⟩ := ih'.mp hbs
      exact ⟨⟨ha, hl⟩, rfl⟩
    · rintro ⟨⟨ha, hl⟩, rfl⟩
      exact ⟨g a, (h a List.mem_cons_self _).mpr ⟨ha, rfl⟩, _, ih'.mpr ⟨hl, rfl⟩, rfl⟩

/-- Two computations that return related values, or raise the same. -/
inductive ExceptRel {γ : Type} (R : β → γ → Prop) : Except ε β → Except ε γ → Prop where
  | ok {b : β} {c : γ} : R b c → ExceptRel R (.ok b) (.ok c)
  | error {e : ε} : ExceptRel R (.error e) (.error e)

theorem ExceptRel.of_eq {x y : Except ε α} {R : α → α → Prop} (hrefl : ∀ a, R a a) (h : x = y) :
    ExceptRel R x y := by
  subst h
  cases x with
  | ok a => exact .ok (hrefl a)
  | error e => exact .error

/-- Related turns make related loops. -/
theorem exceptRel_mapM {γ δ : Type} {R : γ → δ → Prop} {f : α → Except ε γ} {g : β → Except ε δ}
    {l : List α} {l' : List β} (h : List.Forall₂ (fun a b => ExceptRel R (f a) (g b)) l l') :
    ExceptRel (List.Forall₂ R) (l.mapM f) (l'.mapM g) := by
  induction h with
  | nil => exact .ok .nil
  | @cons a b l l' hab _ ih =>
    rw [List.mapM_cons, List.mapM_cons]
    generalize f a = x at hab
    generalize g b = y at hab
    generalize l.mapM f = xs at ih
    generalize l'.mapM g = ys at ih
    cases hab with
    | error => exact .error
    | ok hcd =>
      cases ih with
      | error => exact .error
      | ok hrest => exact .ok (.cons hcd hrest)

end Py
