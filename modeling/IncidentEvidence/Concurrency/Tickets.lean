import Mathlib.Logic.Function.Basic
import Mathlib.Order.Basic
import IncidentEvidence.Concurrency.Runs

/-! # Tickets

    A service that takes work over and finishes it later: whoever submits has the id
    of a ticket at once, and asks for its progress until it is final. A submission may
    carry a key, and submitting again under the same key answers with the same ticket.

    What the clients of such a service rely on:

    1. A ticket stays what it is, and its progress moves forward only
       (`Run.onward`).
    2. Two submissions are answered with one ticket exactly when the owner and the key
       are the same (`Run.same_ticket_iff`).
-/

namespace Tickets

open Runs

/-! ### Progress -/

/-- How far the work of a ticket has come. -/
inductive Progress (Report : Type) where
  | pending
  | running
  | succeeded (report : Report)
  | failed

namespace Progress
variable {Report : Type} {p q r : Progress Report}

/-- The work is done, and its outcome stays. -/
def Final (p : Progress Report) : Prop := (∃ report, p = succeeded report) ∨ p = failed

/-- Progress moves forward: what is final is not left, and nothing is pending again. -/
instance : LE (Progress Report) where
  le p q := p = q ∨ p = pending ∨ p = running ∧ q ≠ pending

theorem le_iff : p ≤ q ↔ p = q ∨ p = pending ∨ p = running ∧ q ≠ pending := Iff.rfl

instance : PartialOrder (Progress Report) where
  le_refl p := Or.inl rfl
  le_trans p q r hpq hqr := by
    rcases hpq with rfl | rfl | ⟨rfl, hq⟩
    · exact hqr
    · exact Or.inr (Or.inl rfl)
    -- nothing after running is pending
    · rcases hqr with rfl | rfl | ⟨rfl, hr⟩
      · exact Or.inr (Or.inr ⟨rfl, hq⟩)
      · exact absurd rfl hq
      · exact Or.inr (Or.inr ⟨rfl, hr⟩)
  le_antisymm p q hpq hqp := by
    rcases hpq with rfl | rfl | ⟨rfl, hq⟩
    · rfl
    · rcases hqp with rfl | rfl | ⟨-, hp⟩
      · rfl
      · rfl
      · exact absurd rfl hp
    · rcases hqp with rfl | rfl | ⟨rfl, -⟩
      · rfl
      · exact absurd rfl hq
      · rfl

theorem pending_le (p : Progress Report) : pending ≤ p := Or.inr (Or.inl rfl)

/-- What comes after an outcome is the same outcome. -/
theorem Final.eq_of_le (h : p.Final) (hle : p ≤ q) : q = p := by
  rcases hle with rfl | rfl | ⟨rfl, -⟩
  · rfl
  · rcases h with ⟨report, hreport⟩ | hfailed
    · cases hreport
    · cases hfailed
  · rcases h with ⟨report, hreport⟩ | hfailed
    · cases hreport
    · cases hfailed

/-- Work that runs is carried on, or it ends. -/
theorem running_le (h : q ≠ pending) : (running : Progress Report) ≤ q := Or.inr (Or.inr ⟨rfl, h⟩)

end Progress

/-! ### The board -/

structure Ticket (Owner Key Report : Type) where
  owner : Owner
  key : Option Key
  progress : Progress Report

/-- The tickets there are. -/
abbrev Board (Id Owner Key Report : Type) := Id → Option (Ticket Owner Key Report)

/-- What happens: a submission and the id it is answered with, or work nobody sees. -/
inductive Act (Id Owner Key : Type) where
  | submit (owner : Owner) (key : Option Key) (id : Id)
  | work

section board
variable {Id Owner Key Report : Type} [DecidableEq Id] {b b' b'' : Board Id Owner Key Report}
  {act : Act Id Owner Key} {acts : List (Act Id Owner Key)}

/-- No ticket of the owner is under the key. -/
def Unused (b : Board Id Owner Key Report) (owner : Owner) (key : Option Key) : Prop :=
  ∀ id t k, b id = some t → key = some k → t.owner = owner → t.key ≠ some k

inductive Step : Board Id Owner Key Report → Act Id Owner Key → Board Id Owner Key Report → Prop where
  | opened (b : Board Id Owner Key Report) (owner : Owner) (key : Option Key) (id : Id)
      (hnew : b id = none) (hkey : Unused b owner key) :
      Step b (.submit owner key id) (Function.update b id (some ⟨owner, key, .pending⟩))
  | replayed (b : Board Id Owner Key Report) (id : Id) (t : Ticket Owner Key Report)
      (hid : b id = some t) (hkey : t.key.isSome = true) : Step b (.submit t.owner t.key id) b
  | advanced (b : Board Id Owner Key Report) (id : Id) (t : Ticket Owner Key Report)
      (progress : Progress Report) (hid : b id = some t) (hforward : t.progress ≤ progress) :
      Step b .work (Function.update b id (some { t with progress := progress }))
  | idle (b : Board Id Owner Key Report) : Step b .work b

variable (Id Owner Key Report) in
/-- A service without tickets at first. -/
def system : System (Board Id Owner Key Report) (Act Id Owner Key) where
  init b := b = fun _ => none
  step := Step

/-! ### Tickets stay -/

/-- Every ticket is still there, with the same owner and key, and has not gone back. -/
def Onward (b b' : Board Id Owner Key Report) : Prop :=
  ∀ id t, b id = some t → ∃ t', b' id = some t' ∧ t'.owner = t.owner ∧ t'.key = t.key ∧
    t.progress ≤ t'.progress

omit [DecidableEq Id] in
theorem Onward.refl (b : Board Id Owner Key Report) : Onward b b :=
  fun _ t ht => ⟨t, ht, rfl, rfl, le_refl _⟩

omit [DecidableEq Id] in
theorem Onward.trans (h : Onward b b') (h' : Onward b' b'') : Onward b b'' := by
  intro id t ht
  obtain ⟨t', ht', howner, hkey, hle⟩ := h id t ht
  obtain ⟨t'', ht'', howner', hkey', hle'⟩ := h' id t' ht'
  exact ⟨t'', ht'', howner'.trans howner, hkey'.trans hkey, hle.trans hle'⟩

theorem Step.onward (h : Step b act b') : Onward b b' := by
  cases h with
  | opened owner key id hnew hkey =>
    intro id' t ht
    have hne : id' ≠ id := by
      rintro rfl
      rw [hnew] at ht
      cases ht
    exact ⟨t, by rw [Function.update_of_ne hne, ht], rfl, rfl, le_refl _⟩
  | replayed id t hid hkey => exact Onward.refl b
  | advanced id t progress hid hforward =>
    intro id' t' ht'
    by_cases hid' : id' = id
    · rw [hid', hid] at ht'
      obtain rfl := Option.some.inj ht'
      rw [hid', Function.update_self]
      exact ⟨_, rfl, rfl, rfl, hforward⟩
    · exact ⟨t', by rw [Function.update_of_ne hid', ht'], rfl, rfl, le_refl _⟩
  | idle => exact Onward.refl b

/-- **Along a run** tickets stay and progress moves forward. -/
theorem Run.onward (h : Run (system Id Owner Key Report) b acts b') : Onward b b' := by
  induction h with
  | nil => exact Onward.refl _
  | cons hstep _ ih => exact (Step.onward hstep).trans ih

/-! ### Keys -/

/-- An owner has one ticket under a key. -/
def Keyed (b : Board Id Owner Key Report) : Prop :=
  ∀ id id' t t', b id = some t → b id' = some t' → t.owner = t'.owner → t.key = t'.key →
    t.key.isSome = true → id = id'

theorem Step.keyed (h : Step b act b') (hkeyed : Keyed b) : Keyed b' := by
  cases h with
  | opened owner key id hnew hunused =>
    intro id₁ id₂ t₁ t₂ h₁ h₂ howner hkey hsome
    by_cases hid₁ : id₁ = id
    · by_cases hid₂ : id₂ = id
      · rw [hid₁, hid₂]
      -- the new ticket has a key that no other one of its owner has
      · rw [hid₁, Function.update_self] at h₁
        rw [Function.update_of_ne hid₂] at h₂
        obtain rfl := Option.some.inj h₁
        obtain ⟨k, hk⟩ := Option.isSome_iff_exists.mp hsome
        exact absurd (hkey.symm.trans hk) (hunused id₂ t₂ k h₂ hk howner.symm)
    · by_cases hid₂ : id₂ = id
      · rw [Function.update_of_ne hid₁] at h₁
        rw [hid₂, Function.update_self] at h₂
        obtain rfl := Option.some.inj h₂
        obtain ⟨k, hk⟩ := Option.isSome_iff_exists.mp hsome
        exact absurd hk (hunused id₁ t₁ k h₁ (hkey.symm.trans hk) howner)
      · rw [Function.update_of_ne hid₁] at h₁
        rw [Function.update_of_ne hid₂] at h₂
        exact hkeyed id₁ id₂ t₁ t₂ h₁ h₂ howner hkey hsome
  | replayed id t hid hkey => exact hkeyed
  | advanced id t progress hid hforward =>
    -- an owner and a key are those of a ticket that was there
    have hold : ∀ {i u}, Function.update b id (some { t with progress := progress }) i = some u →
        ∃ u', b i = some u' ∧ u'.owner = u.owner ∧ u'.key = u.key := by
      intro i u hu
      by_cases hi : i = id
      · rw [hi, Function.update_self] at hu
        obtain rfl := Option.some.inj hu
        exact ⟨t, by rw [hi, hid], rfl, rfl⟩
      · rw [Function.update_of_ne hi] at hu
        exact ⟨u, hu, rfl, rfl⟩
    intro id₁ id₂ t₁ t₂ h₁ h₂ howner hkey hsome
    obtain ⟨u₁, hu₁, howner₁, hkey₁⟩ := hold h₁
    obtain ⟨u₂, hu₂, howner₂, hkey₂⟩ := hold h₂
    apply hkeyed id₁ id₂ u₁ u₂ hu₁ hu₂
    · rw [howner₁, howner₂, howner]
    · rw [hkey₁, hkey₂, hkey]
    · rw [hkey₁]
      exact hsome
  | idle => exact hkeyed

theorem Run.keyed (h : Run (system Id Owner Key Report) b acts b') (hkeyed : Keyed b) : Keyed b' :=
  h.preserves (P := Keyed) (fun b act b' hb (hstep : Step b act b') => hstep.keyed hb) hkeyed

theorem keyed_of_reachable (h : Reachable (system Id Owner Key Report) b) : Keyed b := by
  obtain ⟨b₀, acts, rfl, hrun⟩ := h
  exact Run.keyed hrun (fun _ _ _ _ h => nomatch h)

/-! ### Submissions -/

variable {owner owner' : Owner} {key key' : Option Key} {id id' : Id}

/-- The ticket of a submission. -/
theorem Step.submitted (h : Step b (.submit owner key id) b') :
    ∃ t, b' id = some t ∧ t.owner = owner ∧ t.key = key := by
  cases h with
  | opened _ _ _ hnew hkey => exact ⟨_, Function.update_self _ _ _, rfl, rfl⟩
  | replayed _ t hid hkey => exact ⟨t, hid, rfl, rfl⟩

/-- A submission changes nothing of another owner's tickets. -/
theorem Step.others [DecidableEq Owner] (h : Step b (.submit owner key id) b') (hne : owner ≠ owner')
    (id' : Id) : (b' id').filter (fun t => t.owner = owner') = (b id').filter fun t => t.owner = owner' := by
  cases h with
  | opened _ _ _ hnew hunused =>
    by_cases hid : id' = id
    · rw [hid, Function.update_self, hnew, Option.filter_some, if_neg (by simpa using hne)]
      rfl
    · rw [Function.update_of_ne hid]
  | replayed _ t hid hkey => rfl

/-- A submission while there is a ticket of the same owner under its key. -/
theorem Step.replays (h : Step b (.submit owner key id) b') {t : Ticket Owner Key Report}
    (ht : b id' = some t) (howner : t.owner = owner) (hkey : t.key = key)
    (hsome : key.isSome = true) (hkeyed : Keyed b) : id = id' ∧ b' = b := by
  cases h with
  | opened _ _ _ hnew hunused =>
    obtain ⟨k, hk⟩ := Option.isSome_iff_exists.mp hsome
    exact absurd (hkey.trans hk) (hunused id' t k ht hk howner)
  | replayed _ t' hid hkey' => exact ⟨hkeyed id id' t' t hid ht howner.symm hkey.symm hkey', rfl⟩

/-- **Two submissions of a run** are answered with the same ticket exactly when the owner and
    the key are the same, and then the second one changes nothing. -/
theorem Run.same_ticket_iff {b₁ b₂ b₃ : Board Id Owner Key Report} (hkeyed : Keyed b)
    (hfirst : Step b (.submit owner key id) b₁) (hrun : Run (system Id Owner Key Report) b₁ acts b₂)
    (hsecond : Step b₂ (.submit owner' key' id') b₃) :
    (id = id' ↔ owner = owner' ∧ key = key' ∧ key.isSome = true) ∧ (id = id' → b₃ = b₂) := by
  -- the ticket of the first submission, when the second one comes
  obtain ⟨t, ht, howner, hkey⟩ := Step.submitted hfirst
  obtain ⟨t', ht', howner', hkey', -⟩ := Run.onward hrun id t ht
  have hkeyed₂ : Keyed b₂ := Run.keyed hrun (Step.keyed hfirst hkeyed)
  have hreplay : id = id' → owner = owner' ∧ key = key' ∧ key.isSome = true ∧ b₃ = b₂ := by
    rintro rfl
    cases hsecond with
    | opened _ _ _ hnew hunused =>
      rw [ht'] at hnew
      cases hnew
    | replayed _ u hid hsome =>
      rw [ht'] at hid
      obtain rfl := Option.some.inj hid
      refine ⟨(howner'.trans howner).symm, (hkey'.trans hkey).symm, ?_, rfl⟩
      rw [← hkey, ← hkey']
      exact hsome
  refine ⟨⟨?_, ?_⟩, fun h => (hreplay h).2.2.2⟩
  · intro h
    obtain ⟨hsameOwner, hsameKey, hsome, -⟩ := hreplay h
    exact ⟨hsameOwner, hsameKey, hsome⟩
  · rintro ⟨rfl, rfl, hsome⟩
    exact (Step.replays hsecond ht' (howner'.trans howner) (hkey'.trans hkey) hsome hkeyed₂).1.symm

end board

end Tickets
