import Mathlib

/-! # Labelled transition systems

    Parties that interleave are one system: a state with everyone's part in it,
    and a step for each move of each party. A run is any order of steps. What one
    step preserves holds along every run (`Run.preserves`, `Reachable.invariant`),
    and a step-by-step simulation carries whole runs over (`Run.simulates`).
-/

namespace Runs

/-- A system: where it may start, and its labelled steps. -/
structure System (σ Label : Type) where
  init : σ → Prop
  step : σ → Label → σ → Prop

variable {σ τ Label : Type} {S : System σ Label} {T : System τ Label}

/-- A finite run and the labels of its steps, in order. -/
inductive Run (S : System σ Label) : σ → List Label → σ → Prop where
  | nil (s : σ) : Run S s [] s
  | cons {s t u : σ} {l : Label} {ls : List Label} :
      S.step s l t → Run S t ls u → Run S s (l :: ls) u

/-- A state some run from an initial state ends in. -/
def Reachable (S : System σ Label) (s : σ) : Prop := ∃ s₀ ls, S.init s₀ ∧ Run S s₀ ls s

/-! ### Composition -/

theorem Run.append {s t u : σ} {ls ls' : List Label} (h : Run S s ls t) (h' : Run S t ls' u) :
    Run S s (ls ++ ls') u := by
  induction h with
  | nil => exact h'
  | cons hstep _ ih => exact .cons hstep (ih h')

theorem Run.split {s u : σ} {ls ls' : List Label} (h : Run S s (ls ++ ls') u) :
    ∃ t, Run S s ls t ∧ Run S t ls' u := by
  induction ls generalizing s with
  | nil => exact ⟨s, .nil s, h⟩
  | cons l ls ih =>
    cases h with
    | cons hstep hrest =>
      obtain ⟨t, hfirst, hlast⟩ := ih hrest
      exact ⟨t, .cons hstep hfirst, hlast⟩

theorem Run.single {s t : σ} {l : Label} (h : S.step s l t) : Run S s [l] t := .cons h (.nil t)

/-! ### Invariants -/

/-- What every step preserves, a run preserves. -/
theorem Run.preserves {P : σ → Prop} (hstep : ∀ s l s', P s → S.step s l s' → P s')
    {s s' : σ} {ls : List Label} (h : Run S s ls s') (hs : P s) : P s' := by
  induction h with
  | nil => exact hs
  | cons hone _ ih => exact ih (hstep _ _ _ hs hone)

/-- A step may rely on an invariant of the whole run. -/
theorem Reachable.invariant {P : σ → Prop} (hinit : ∀ s, S.init s → P s)
    (hstep : ∀ s l s', P s → S.step s l s' → P s') {s : σ} (h : Reachable S s) : P s := by
  obtain ⟨s₀, ls, h₀, hrun⟩ := h
  exact hrun.preserves hstep (hinit s₀ h₀)

theorem Reachable.step {s s' : σ} {l : Label} (h : Reachable S s) (hstep : S.step s l s') :
    Reachable S s' := by
  obtain ⟨s₀, ls, h₀, hrun⟩ := h
  exact ⟨s₀, ls ++ [l], h₀, hrun.append (.single hstep)⟩

theorem Reachable.run {s s' : σ} {ls : List Label} (h : Reachable S s) (hrun : Run S s ls s') :
    Reachable S s' := by
  obtain ⟨s₀, ls₀, h₀, hrun₀⟩ := h
  exact ⟨s₀, ls₀ ++ ls, h₀, hrun₀.append hrun⟩

/-- Where a property comes up in a run. -/
theorem Run.turn {P : σ → Prop} {s u : σ} {ls : List Label} (h : Run S s ls u) (hs : ¬ P s)
    (hu : P u) : ∃ ls₁ l ls₂ t t', ls = ls₁ ++ l :: ls₂ ∧ Run S s ls₁ t ∧ ¬ P t ∧ S.step t l t' ∧
      P t' ∧ Run S t' ls₂ u := by
  induction h with
  | nil => exact absurd hu hs
  | @cons s t _ l ls hstep hrest ih =>
    by_cases ht : P t
    · exact ⟨[], l, ls, s, t, rfl, .nil s, hs, hstep, ht, hrest⟩
    · obtain ⟨ls₁, l', ls₂, t₁, t₂, rfl, hbefore, hturn⟩ := ih ht hu
      exact ⟨l :: ls₁, l', ls₂, t₁, t₂, rfl, .cons hstep hbefore, hturn⟩

/-! ### Simulation -/

/-- If every step of `S` from a state where `P` holds is a step of `T` between the
    images, every run of `S` is a run of `T`. -/
theorem Run.simulates {P : σ → Prop} {f : σ → τ}
    (hstep : ∀ s l s', P s → S.step s l s' → P s' ∧ T.step (f s) l (f s'))
    {s s' : σ} {ls : List Label} (h : Run S s ls s') (hs : P s) : P s' ∧ Run T (f s) ls (f s') := by
  induction h with
  | nil => exact ⟨hs, .nil _⟩
  | cons hone _ ih =>
    obtain ⟨hP, hT⟩ := hstep _ _ _ hs hone
    obtain ⟨hP', hrun⟩ := ih hP
    exact ⟨hP', .cons hT hrun⟩

end Runs
