import IncidentEvidence.Py.Except

/-! # Computations with a state and exceptions

    A coroutine is a function of the state it runs in; it returns or raises, and
    what it changed before it raised stays. The monad is core's
    `ExceptT ε (StateM σ)`.

    `Wp` is its weakest precondition, with one postcondition for a return and
    one for an exception. The simp set computes it through `do` blocks, so a
    fact about a coroutine is a fact about the steps it takes; `Wp.mono` and
    `Wp.and` change and combine postconditions. `Keeps` says what part of the state
    a coroutine leaves alone, and `Maintains` which invariant it keeps.
-/

namespace Py

/-- A computation over a state that may raise. -/
abbrev Action (ε σ α : Type) := ExceptT ε (StateM σ) α

namespace Action

variable {ε ε' σ τ α β : Type}

/-- Run from a state: what came out, and the state then. -/
def exec (x : Action ε σ α) (s : σ) : Except ε α × σ := x.run.run s

/-- What `x` returns or raises, as a value. -/
def attempt (x : Action ε σ α) : Action ε' σ (Except ε α) :=
  ExceptT.mk ((fun r => .ok r) <$> x.run)

/-- A computation without state. -/
def lift (x : Except ε α) : Action ε σ α := ExceptT.mk (pure x)

/-- A computation on a part of the state. -/
def zoom (get : σ → τ) (set : σ → τ → σ) (x : Action ε τ α) : Action ε σ α :=
  ExceptT.mk fun s => ((x.exec (get s)).1, set s (x.exec (get s)).2)

/-! ### Runs -/

@[simp] theorem exec_pure (a : α) (s : σ) : (pure a : Action ε σ α).exec s = (.ok a, s) := rfl

@[simp] theorem exec_throw (e : ε) (s : σ) : (throw e : Action ε σ α).exec s = (.error e, s) := rfl

@[simp] theorem exec_bind (x : Action ε σ α) (f : α → Action ε σ β) (s : σ) :
    (x >>= f).exec s = match x.exec s with
      | (.ok a, s') => (f a).exec s'
      | (.error e, s') => (.error e, s') := by
  show (match (x.run.run s : Except ε α × σ) with
    | (r, s') => (ExceptT.bindCont f r : StateM σ (Except ε β)).run s') = _
  unfold exec
  rcases (x.run.run s : Except ε α × σ) with ⟨r, s'⟩
  cases r <;> rfl

@[simp] theorem exec_map (f : α → β) (x : Action ε σ α) (s : σ) :
    (f <$> x).exec s = match x.exec s with
      | (.ok a, s') => (.ok (f a), s')
      | (.error e, s') => (.error e, s') := by
  rw [map_eq_pure_bind, exec_bind]
  rfl

@[simp] theorem exec_get (s : σ) : (get : Action ε σ σ).exec s = (.ok s, s) := rfl

@[simp] theorem exec_set (t s : σ) : (set t : Action ε σ PUnit).exec s = (.ok ⟨⟩, t) := rfl

@[simp] theorem exec_modify (f : σ → σ) (s : σ) :
    (modify f : Action ε σ PUnit).exec s = (.ok ⟨⟩, f s) := rfl

@[simp] theorem exec_attempt (x : Action ε σ α) (s : σ) :
    (x.attempt : Action ε' σ _).exec s = (.ok (x.exec s).1, (x.exec s).2) := rfl

@[simp] theorem exec_lift (x : Except ε α) (s : σ) : (lift x).exec s = (x, s) := rfl

@[simp] theorem exec_zoom (get : σ → τ) (set : σ → τ → σ) (x : Action ε τ α) (s : σ) :
    (zoom get set x).exec s = ((x.exec (get s)).1, set s (x.exec (get s)).2) := rfl

/-! ### Weakest preconditions -/

/-- From `s` the computation returns with `ok` or raises with `err`. -/
def Wp (x : Action ε σ α) (s : σ) (ok : α → σ → Prop) (err : ε → σ → Prop) : Prop :=
  match x.exec s with
  | (.ok a, s') => ok a s'
  | (.error e, s') => err e s'

variable {x : Action ε σ α} {s : σ} {ok ok' : α → σ → Prop} {err err' : ε → σ → Prop}

@[simp] theorem wp_pure {a : α} : Wp (pure a : Action ε σ α) s ok err ↔ ok a s := Iff.rfl

@[simp] theorem wp_throw {e : ε} : Wp (throw e : Action ε σ α) s ok err ↔ err e s := Iff.rfl

@[simp] theorem wp_bind {f : α → Action ε σ β} {ok : β → σ → Prop} :
    Wp (x >>= f) s ok err ↔ Wp x s (fun a s' => Wp (f a) s' ok err) err := by
  unfold Wp
  rw [exec_bind]
  rcases x.exec s with ⟨r, s'⟩
  cases r <;> rfl

@[simp] theorem wp_map {f : α → β} {ok : β → σ → Prop} :
    Wp (f <$> x) s ok err ↔ Wp x s (fun a => ok (f a)) err := by
  unfold Wp
  rw [exec_map]
  rcases x.exec s with ⟨r, s'⟩
  cases r <;> rfl

@[simp] theorem wp_get {ok : σ → σ → Prop} : Wp (get : Action ε σ σ) s ok err ↔ ok s s := Iff.rfl

@[simp] theorem wp_set {t : σ} {ok : PUnit → σ → Prop} :
    Wp (set t : Action ε σ PUnit) s ok err ↔ ok ⟨⟩ t := Iff.rfl

@[simp] theorem wp_modify {f : σ → σ} {ok : PUnit → σ → Prop} :
    Wp (modify f : Action ε σ PUnit) s ok err ↔ ok ⟨⟩ (f s) := Iff.rfl

@[simp] theorem wp_attempt {ok : Except ε α → σ → Prop} {err : ε' → σ → Prop} :
    Wp x.attempt s ok err ↔ Wp x s (fun a => ok (.ok a)) (fun e => ok (.error e)) := by
  unfold Wp
  rw [exec_attempt]
  rcases x.exec s with ⟨r, s'⟩
  cases r <;> rfl

@[simp] theorem wp_lift {x : Except ε α} :
    Wp (lift x) s ok err ↔ (∀ a, x = .ok a → ok a s) ∧ ∀ e, x = .error e → err e s := by
  unfold Wp
  cases x <;> simp

@[simp] theorem wp_zoom {get : σ → τ} {put : σ → τ → σ} {x : Action ε τ α} :
    Wp (zoom get put x) s ok err ↔
      Wp x (get s) (fun a t => ok a (put s t)) (fun e t => err e (put s t)) := by
  unfold Wp
  rw [exec_zoom]
  rcases x.exec (get s) with ⟨r, t⟩
  cases r <;> rfl

@[simp] theorem wp_ite {p : Prop} [Decidable p] {x y : Action ε σ α} :
    Wp (if p then x else y) s ok err ↔ (p → Wp x s ok err) ∧ (¬ p → Wp y s ok err) := by
  by_cases h : p <;> simp [h]

/-- Postconditions may be weakened. -/
theorem Wp.mono (h : Wp x s ok err) (hok : ∀ a s', ok a s' → ok' a s')
    (herr : ∀ e s', err e s' → err' e s') : Wp x s ok' err' := by
  unfold Wp at *
  rcases hx : x.exec s with ⟨r, s'⟩
  rw [hx] at h
  cases r with
  | ok a => exact hok a s' h
  | error e => exact herr e s' h

/-- Two facts about one run hold together. -/
theorem Wp.and (h : Wp x s ok err) (h' : Wp x s ok' err') :
    Wp x s (fun a s' => ok a s' ∧ ok' a s') (fun e s' => err e s' ∧ err' e s') := by
  unfold Wp at *
  rcases hx : x.exec s with ⟨r, s'⟩
  rw [hx] at h h'
  cases r with
  | ok a => exact ⟨h, h'⟩
  | error e => exact ⟨h, h'⟩

theorem Wp.of_ok (h : Wp x s ok err) {a : α} {s' : σ} (hx : x.exec s = (.ok a, s')) : ok a s' := by
  unfold Wp at h
  rw [hx] at h
  exact h

theorem Wp.of_error (h : Wp x s ok err) {e : ε} {s' : σ} (hx : x.exec s = (.error e, s')) :
    err e s' := by
  unfold Wp at h
  rw [hx] at h
  exact h

/-- What holds of the state at the end gives both postconditions. -/
theorem wp_of_final {P : σ → Prop} (h : P (x.exec s).2) (hok : ∀ a s', P s' → ok a s')
    (herr : ∀ e s', P s' → err e s') : Wp x s ok err := by
  unfold Wp
  rcases hx : x.exec s with ⟨r, s'⟩
  rw [hx] at h
  cases r with
  | ok a => exact hok a s' h
  | error e => exact herr e s' h

/-- What both postconditions say of the state holds at the end. -/
theorem Wp.final (h : Wp x s ok err) {P : σ → Prop} (hok : ∀ a s', ok a s' → P s')
    (herr : ∀ e s', err e s' → P s') : P (x.exec s).2 := by
  unfold Wp at h
  rcases hx : x.exec s with ⟨r, s'⟩
  rw [hx] at h
  cases r with
  | ok a => exact hok a s' h
  | error e => exact herr e s' h

/-! ### What a computation leaves alone -/

/-- The computation leaves a part of the state alone, whether it returns or raises. -/
def Keeps (f : σ → τ) (x : Action ε σ α) : Prop := ∀ s, f (x.exec s).2 = f s

section keeps
variable {f : σ → τ}

theorem Keeps.pure (a : α) : Keeps f (pure a : Action ε σ α) := fun _ => rfl

theorem Keeps.throw (e : ε) : Keeps f (throw e : Action ε σ α) := fun _ => rfl

theorem Keeps.lift (x : Except ε α) : Keeps f (lift x : Action ε σ α) := fun _ => rfl

theorem Keeps.get : Keeps f (get : Action ε σ σ) := fun _ => rfl

theorem Keeps.modify {g : σ → σ} (h : ∀ s, f (g s) = f s) :
    Keeps f (modify g : Action ε σ PUnit) := h

theorem Keeps.attempt {x : Action ε σ α} (h : Keeps f x) :
    Keeps f (x.attempt : Action ε' σ (Except ε α)) := h

theorem Keeps.bind {x : Action ε σ α} {g : α → Action ε σ β} (h : Keeps f x)
    (hg : ∀ a, Keeps f (g a)) : Keeps f (x >>= g) := by
  intro s
  have hx := h s
  rw [exec_bind]
  rcases hexec : x.exec s with ⟨r, s'⟩
  rw [hexec] at hx
  cases r with
  | ok a => exact (hg a s').trans hx
  | error e => exact hx

/-- What is left alone is afterwards what it was before. -/
theorem Keeps.wp {x : Action ε σ α} (h : Keeps f x) {s : σ} {c : τ} (hs : f s = c) :
    Wp x s (fun _ s' => f s' = c) (fun _ s' => f s' = c) := by
  have hx := (h s).trans hs
  unfold Wp
  rcases hexec : x.exec s with ⟨r, s'⟩
  rw [hexec] at hx
  cases r with
  | ok a => exact hx
  | error e => exact hx

theorem Keeps.comp {υ : Type} {x : Action ε σ α} (h : Keeps f x) (g : τ → υ) :
    Keeps (fun s => g (f s)) x := fun s => congrArg g (h s)

theorem Keeps.ite {p : Prop} [Decidable p] {x y : Action ε σ α} (hx : Keeps f x) (hy : Keeps f y) :
    Keeps f (if p then x else y) := by
  by_cases h : p
  · rw [if_pos h]
    exact hx
  · rw [if_neg h]
    exact hy

end keeps

/-! ### What a computation maintains -/

/-- What held of the state before holds after, whether the computation returns or raises. -/
def Maintains (P : σ → Prop) (x : Action ε σ α) : Prop := ∀ s, P s → P (x.exec s).2

section maintains
variable {P : σ → Prop}

/-- What depends on a part of the state only is maintained by what leaves the part alone. -/
theorem Keeps.maintains {f : σ → τ} {Q : τ → Prop} {x : Action ε σ α} (h : Keeps f x) :
    Maintains (fun s => Q (f s)) x := by
  intro s hs
  show Q (f (x.exec s).2)
  rw [h s]
  exact hs

theorem Maintains.pure (a : α) : Maintains P (pure a : Action ε σ α) := fun _ hs => hs

theorem Maintains.throw (e : ε) : Maintains P (throw e : Action ε σ α) := fun _ hs => hs

theorem Maintains.lift (x : Except ε α) : Maintains P (lift x : Action ε σ α) := fun _ hs => hs

theorem Maintains.get : Maintains P (get : Action ε σ σ) := fun _ hs => hs

theorem Maintains.modify {g : σ → σ} (h : ∀ s, P s → P (g s)) :
    Maintains P (modify g : Action ε σ PUnit) := h

theorem Maintains.attempt {x : Action ε σ α} (h : Maintains P x) :
    Maintains P (x.attempt : Action ε' σ (Except ε α)) := h

theorem Maintains.bind {x : Action ε σ α} {g : α → Action ε σ β} (h : Maintains P x)
    (hg : ∀ a, Maintains P (g a)) : Maintains P (x >>= g) := by
  intro s hs
  have hx := h s hs
  rw [exec_bind]
  rcases hexec : x.exec s with ⟨r, s'⟩
  rw [hexec] at hx
  cases r with
  | ok a => exact hg a s' hx
  | error e => exact hx

/-- What follows a computation without state may rely on its value. -/
theorem Maintains.liftBind {x : Except ε α} {g : α → Action ε σ β}
    (hg : ∀ a, x = .ok a → Maintains P (g a)) : Maintains P (Action.lift x >>= g) := by
  intro s hs
  rw [exec_bind, exec_lift]
  cases x with
  | ok a => exact hg a rfl s hs
  | error e => exact hs

theorem Maintains.ite {p : Prop} [Decidable p] {x y : Action ε σ α} (hx : Maintains P x)
    (hy : Maintains P y) : Maintains P (if p then x else y) := by
  by_cases h : p
  · rw [if_pos h]
    exact hx
  · rw [if_neg h]
    exact hy

end maintains

/-! ### What a computation raises -/

/-- Wherever it is run, the computation raises exceptions of the kind `p` only. -/
def OnlyRaises (p : ε → Prop) (x : Action ε σ α) : Prop :=
  ∀ s, Wp x s (fun _ _ => True) (fun e _ => p e)

section raises
variable {p : ε → Prop}

theorem OnlyRaises.pure (a : α) : OnlyRaises p (pure a : Action ε σ α) := fun _ => trivial

theorem OnlyRaises.throw {e : ε} (h : p e) : OnlyRaises p (throw e : Action ε σ α) := fun _ => h

theorem OnlyRaises.get : OnlyRaises p (get : Action ε σ σ) := fun _ => trivial

theorem OnlyRaises.set (t : σ) : OnlyRaises p (set t : Action ε σ PUnit) := fun _ => trivial

theorem OnlyRaises.modify (g : σ → σ) : OnlyRaises p (modify g : Action ε σ PUnit) :=
  fun _ => trivial

theorem OnlyRaises.lift {x : Except ε α} (h : ∀ e, x = .error e → p e) :
    OnlyRaises p (lift x : Action ε σ α) :=
  fun _ => wp_lift.mpr ⟨fun _ _ => trivial, h⟩

theorem OnlyRaises.bind {x : Action ε σ α} {f : α → Action ε σ β} (h : OnlyRaises p x)
    (hf : ∀ a, OnlyRaises p (f a)) : OnlyRaises p (x >>= f) :=
  fun s => wp_bind.mpr ((h s).mono (fun a s' _ => hf a s') fun _ _ he => he)

/-- What follows a computation without state may rely on its value. -/
theorem OnlyRaises.liftBind {x : Except ε α} {f : α → Action ε σ β} (h : ∀ e, x = .error e → p e)
    (hf : ∀ a, x = .ok a → OnlyRaises p (f a)) : OnlyRaises p (Action.lift x >>= f) :=
  fun s => wp_bind.mpr (wp_lift.mpr ⟨fun a ha => hf a ha s, h⟩)

theorem OnlyRaises.attempt {p' : ε' → Prop} (x : Action ε σ α) :
    OnlyRaises p' (x.attempt : Action ε' σ (Except ε α)) := fun _ => trivial

/-- What follows a computation that is watched may rely on what it raised. -/
theorem OnlyRaises.attemptBind {x : Action ε σ α} {f : Except ε α → Action ε σ β}
    (h : OnlyRaises p x) (hok : ∀ a, OnlyRaises p (f (.ok a)))
    (herr : ∀ e, p e → OnlyRaises p (f (.error e))) : OnlyRaises p (x.attempt >>= f) :=
  fun s => wp_bind.mpr (wp_attempt.mpr ((h s).mono (fun a s' _ => hok a s')
    fun e s' he => herr e he s'))

theorem OnlyRaises.zoom {x : Action ε τ α} (h : OnlyRaises p x) (part : σ → τ) (put : σ → τ → σ) :
    OnlyRaises p (zoom part put x) := fun s => wp_zoom.mpr (h (part s))

theorem OnlyRaises.ite {c : Prop} [Decidable c] {x y : Action ε σ α} (hx : OnlyRaises p x)
    (hy : OnlyRaises p y) : OnlyRaises p (if c then x else y) :=
  fun s => wp_ite.mpr ⟨fun _ => hx s, fun _ => hy s⟩

end raises

end Action

end Py
