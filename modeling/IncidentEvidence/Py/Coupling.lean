import IncidentEvidence.Py.Action

/-! # Two computations side by side

    `Couples R R' Q x y`: from related states, `x` and `y` either both return,
    related values, or both raise the same exception, and then their states are
    related again. The rules follow the constructs of a `do` block; a computation
    that only the left side makes is a step of its own (`Couples.leftBind`).
-/

namespace Py

theorem ExceptRel.mono {ε α β : Type} {Q Q' : α → β → Prop} {x : Except ε α} {y : Except ε β}
    (h : ExceptRel Q x y) (hvalue : ∀ a b, Q a b → Q' a b) : ExceptRel Q' x y := by
  cases h with
  | ok hQ => exact .ok (hvalue _ _ hQ)
  | error => exact .error

namespace Action

variable {ε ε' σ τ α β γ δ : Type}

/-- A computation is what its runs are. -/
theorem exec_ext {x y : Action ε σ α} (h : ∀ s, x.exec s = y.exec s) : x = y := funext h

theorem lift_ok_bind (a : α) (f : α → Action ε σ β) : lift (.ok a) >>= f = f a :=
  exec_ext fun s => by rw [exec_bind, exec_lift]

theorem lift_bind (x : Except ε α) (f : α → Except ε β) :
    (lift (x >>= f) : Action ε σ β) = lift x >>= fun a => lift (f a) :=
  exec_ext fun s => by
    rw [exec_bind, exec_lift, exec_lift]
    cases x <;> rfl

/-- From states related by `R` both sides come out the same, up to `Q`, in states
    related by `R'`. -/
def Couples (R R' : σ → τ → Prop) (Q : α → β → Prop) (x : Action ε σ α) (y : Action ε τ β) : Prop :=
  ∀ s t, R s t → ExceptRel Q (x.exec s).1 (y.exec t).1 ∧ R' (x.exec s).2 (y.exec t).2

variable {R R₁ R' : σ → τ → Prop} {Q : α → β → Prop} {Q' : γ → δ → Prop}
  {x : Action ε σ α} {y : Action ε τ β} {f : α → Action ε σ γ} {g : β → Action ε τ δ}

theorem Couples.pure {a : α} {b : β} (h : Q a b) :
    Couples R R Q (pure a : Action ε σ α) (pure b) := fun _ _ hR => ⟨.ok h, hR⟩

theorem Couples.throw (e : ε) : Couples R R Q (throw e : Action ε σ α) (throw e) :=
  fun _ _ hR => ⟨.error, hR⟩

theorem Couples.lift {x : Except ε α} {y : Except ε β} (h : ExceptRel Q x y) :
    Couples R R Q (lift x) (lift y) := fun _ _ hR => ⟨h, hR⟩

/-- A computation without state, the same on both sides. -/
theorem Couples.lift_same (x : Except ε α) : Couples R R Eq (Action.lift x) (Action.lift x) :=
  .lift (.of_eq (fun _ => rfl) rfl)

theorem Couples.modify {m : σ → σ} {n : τ → τ} (h : ∀ s t, R s t → R' (m s) (n t)) :
    Couples R R' Eq (modify m : Action ε σ PUnit) (modify n) := fun s t hR => ⟨.ok rfl, h s t hR⟩

theorem Couples.mono {Q₁ : α → β → Prop} {R₀ : σ → τ → Prop} (h : Couples R R₁ Q x y)
    (hpre : ∀ s t, R₀ s t → R s t) (hpost : ∀ s t, R₁ s t → R' s t)
    (hvalue : ∀ a b, Q a b → Q₁ a b) : Couples R₀ R' Q₁ x y := by
  intro s t hR
  obtain ⟨hresult, hstate⟩ := h s t (hpre s t hR)
  exact ⟨hresult.mono hvalue, hpost _ _ hstate⟩

theorem Couples.weaken (h : Couples R R₁ Q x y) (hpost : ∀ s t, R₁ s t → R' s t) :
    Couples R R' Q x y := h.mono (fun _ _ hR => hR) hpost fun _ _ hQ => hQ

/-- What follows runs from the states the first parts leave; an exception of the
    first parts leaves theirs. -/
theorem Couples.bind (h : Couples R R₁ Q x y) (hcont : ∀ a b, Q a b → Couples R₁ R' Q' (f a) (g b))
    (herror : ∀ s t, R₁ s t → R' s t) : Couples R R' Q' (x >>= f) (y >>= g) := by
  intro s t hR
  obtain ⟨hresult, hstate⟩ := h s t hR
  rw [exec_bind, exec_bind]
  rcases hx : x.exec s with ⟨r, s'⟩
  rcases hy : y.exec t with ⟨r', t'⟩
  rw [hx, hy] at hresult hstate
  cases hresult with
  | ok hQ => exact hcont _ _ hQ s' t' hstate
  | error => exact ⟨.error, herror s' t' hstate⟩

/-- Two steps that keep one relation. -/
theorem Couples.seq (h : Couples R R Q x y) (hcont : ∀ a b, Q a b → Couples R R Q' (f a) (g b)) :
    Couples R R Q' (x >>= f) (y >>= g) := h.bind hcont fun _ _ hR => hR

/-- The left side alone takes a step that returns. -/
theorem Couples.leftBind {y : Action ε τ δ} (h : ∀ s t, R s t → ∃ a s', x.exec s = (.ok a, s') ∧ R₁ s' t)
    (hcont : ∀ a, Couples R₁ R' Q' (f a) y) : Couples R R' Q' (x >>= f) y := by
  intro s t hR
  obtain ⟨a, s', hx, hR₁⟩ := h s t hR
  rw [exec_bind, hx]
  exact hcont a s' t hR₁

theorem Couples.attempt (h : Couples R R' Q x y) :
    Couples R R' (ExceptRel Q) (x.attempt : Action ε' σ _) y.attempt := by
  intro s t hR
  obtain ⟨hresult, hstate⟩ := h s t hR
  exact ⟨.ok hresult, hstate⟩

theorem Couples.ite {p q : Prop} [Decidable p] [Decidable q] {x' : Action ε σ α} {y' : Action ε τ β}
    (hiff : p ↔ q) (h : Couples R R' Q x y) (h' : Couples R R' Q x' y') :
    Couples R R' Q (if p then x else x') (if q then y else y') := by
  by_cases hp : p
  · rw [if_pos hp, if_pos (hiff.mp hp)]
    exact h
  · rw [if_neg hp, if_neg (mt hiff.mpr hp)]
    exact h'

end Action

end Py
