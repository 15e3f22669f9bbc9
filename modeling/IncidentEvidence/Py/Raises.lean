import IncidentEvidence.Py.Except

/-! # Which exceptions leave a computation

    `Raises p x` says that `x` ends in an exception of the kind `p`. It is decided
    step by step: a sequence raises what its first failing step raises, and a loop
    what its first failing turn raises.
-/

namespace Py

variable {ε α β : Type} {p : ε → Prop}

/-- The computation ends in an exception of the kind `p`. -/
def Raises (p : ε → Prop) (x : Except ε α) : Prop := ∃ e, x = .error e ∧ p e

@[simp] theorem raises_ok {a : α} : ¬ Raises p (.ok a : Except ε α) := by
  simp [Raises]

@[simp] theorem raises_pure {a : α} : ¬ Raises p (pure a : Except ε α) := by
  simp [Raises]

@[simp] theorem raises_error {e : ε} : Raises p (.error e : Except ε α) ↔ p e := by
  simp [Raises]

@[simp] theorem raises_bind {x : Except ε α} {f : α → Except ε β} :
    Raises p (x >>= f) ↔ Raises p x ∨ ∃ a, x = .ok a ∧ Raises p (f a) := by
  cases x with
  | ok a => simp [Raises, bind, Except.bind]
  | error e => simp [Raises, bind, Except.bind]

@[simp] theorem raises_map {x : Except ε α} {f : α → β} : Raises p (f <$> x) ↔ Raises p x := by
  cases x with
  | ok a => simp [Raises, Functor.map, Except.map]
  | error e => simp [Raises, Functor.map, Except.map]

@[simp] theorem raises_require {c : Prop} [Decidable c] {e : ε} :
    Raises p (require c e) ↔ ¬ c ∧ p e := by
  simp [Raises, and_assoc]

@[simp] theorem raises_orRaise {x : Option α} {e : ε} :
    Raises p (orRaise x e) ↔ x = none ∧ p e := by
  simp [Raises, and_assoc]

/-- A loop raises what the first turn that raises does. -/
theorem raises_foldlM {f : β → α → Except ε β} {b : β} {l : List α} :
    Raises p (l.foldlM f b) ↔ ∃ before a after c, l = before ++ a :: after ∧
      before.foldlM f b = .ok c ∧ Raises p (f c a) := by
  induction l generalizing b with
  | nil => simp [Raises]
  | cons a l ih =>
    rw [List.foldlM_cons, raises_bind]
    constructor
    · intro h
      rcases h with h | ⟨c, hc, h⟩
      · exact ⟨[], a, l, b, rfl, rfl, h⟩
      · obtain ⟨before, a', after, d, rfl, hd, h⟩ := ih.mp h
        refine ⟨a :: before, a', after, d, rfl, ?_, h⟩
        rw [List.foldlM_cons, hc]
        exact hd
    · intro h
      obtain ⟨before, a', after, d, hl, hd, h⟩ := h
      cases before with
      | nil =>
        obtain ⟨rfl, -⟩ := List.cons.inj hl
        obtain rfl : b = d := by simpa [pure, Except.pure] using hd
        exact .inl h
      | cons a'' before =>
        obtain ⟨rfl, rfl⟩ := List.cons.inj hl
        rw [List.foldlM_cons, bind_eq_ok] at hd
        obtain ⟨c, hc, hd⟩ := hd
        exact .inr ⟨c, hc, ih.mpr ⟨before, a', after, d, rfl, hd, h⟩⟩

theorem raises_mapM {f : α → Except ε β} {l : List α} :
    Raises p (l.mapM f) ↔ ∃ earlier a later, l = earlier ++ a :: later ∧
      (∀ x ∈ earlier, ∃ b, f x = .ok b) ∧ Raises p (f a) := by
  constructor
  · intro h
    obtain ⟨e, he, hp⟩ := h
    obtain ⟨earlier, a, later, hl, hearlier, ha⟩ := mapM_eq_error.mp he
    exact ⟨earlier, a, later, hl, hearlier, e, ha, hp⟩
  · intro h
    obtain ⟨earlier, a, later, hl, hearlier, e, ha, hp⟩ := h
    exact ⟨e, mapM_eq_error.mpr ⟨earlier, a, later, hl, hearlier, ha⟩, hp⟩

/-- A loop that builds a list raises only what one of its turns does. -/
theorem raises_of_mapM {f : α → Except ε β} {l : List α} (h : Raises p (l.mapM f)) :
    ∃ a ∈ l, Raises p (f a) := by
  obtain ⟨earlier, a, later, rfl, -, ha⟩ := raises_mapM.mp h
  exact ⟨a, by simp, ha⟩

end Py
