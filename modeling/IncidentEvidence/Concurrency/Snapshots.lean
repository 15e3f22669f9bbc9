import IncidentEvidence.Concurrency.Runs
import Mathlib.Data.List.Basic
import Mathlib.Data.List.Infix

/-! # Snapshot transactions under one lock

    Units of work over one shared value. A unit works on a private copy, taken
    when it is created and again when its scope is entered; `commit` publishes
    the copy, `rollback` takes a new one, and only the unit that holds the lock is
    inside its scope. Operations are arbitrary state functions with replies.

    The specification does not mention copies. `History` reads a trace of events
    and keeps, for each unit, the operations since its last snapshot, and the
    operations committed so far in the order of the commits. The system is
    serializable: the shared value is what those committed operations give one
    after another, with the replies they had (`Explained`, `explained_of_run`).
-/

namespace Snapshots

open Runs

/-! ### Events and histories -/

/-- One event of a unit of work. -/
inductive Event (Op Reply : Type) where
  /-- The unit is created and takes its first snapshot, lock or no lock. -/
  | create
  /-- It acquires the lock and takes a new snapshot. -/
  | enter
  /-- It gives up waiting for the lock, or entering fails. -/
  | abandon
  /-- It performs an operation, which replies. -/
  | run (op : Op) (reply : Reply)
  | commit
  | rollback
  /-- It leaves its scope, normally, by an exception or by cancellation. -/
  | leave

variable {ι Op Reply σ : Type} [DecidableEq ι]

/-- An operation a unit performed and the reply it got. -/
structure Performed (ι Op Reply : Type) where
  unit : ι
  op : Op
  reply : Reply

/-- What a trace says: the committed operations in commit order, and for each unit
    those since its last snapshot. -/
structure History (ι Op Reply : Type) where
  committed : List (Performed ι Op Reply)
  pending : ι → List (Performed ι Op Reply)

namespace History

def start : History ι Op Reply := ⟨[], fun _ => []⟩

/-- The unit `u` takes a snapshot. -/
def snapshot (h : History ι Op Reply) (u : ι) : History ι Op Reply :=
  { h with pending := fun v => if v = u then [] else h.pending v }

def observe (h : History ι Op Reply) : ι × Event Op Reply → History ι Op Reply
  | (u, .create) | (u, .enter) | (u, .rollback) => h.snapshot u
  | (u, .run op reply) =>
    { h with pending := fun v => if v = u then h.pending v ++ [⟨u, op, reply⟩] else h.pending v }
  | (u, .commit) => { h.snapshot u with committed := h.committed ++ h.pending u }
  | (_, .abandon) | (_, .leave) => h

/-- The history after a trace. -/
def after (h : History ι Op Reply) (trace : List (ι × Event Op Reply)) : History ι Op Reply :=
  trace.foldl observe h

@[simp] theorem after_nil (h : History ι Op Reply) : h.after [] = h := rfl

@[simp] theorem after_cons (h : History ι Op Reply) (e : ι × Event Op Reply)
    (trace : List (ι × Event Op Reply)) : h.after (e :: trace) = (h.observe e).after trace := rfl

theorem after_append (h : History ι Op Reply) (t t' : List (ι × Event Op Reply)) :
    h.after (t ++ t') = (h.after t).after t' :=
  List.foldl_append

/-- No event takes back what was committed. -/
theorem committed_prefix_observe (h : History ι Op Reply) (e : ι × Event Op Reply) :
    h.committed <+: (h.observe e).committed := by
  obtain ⟨u, e⟩ := e
  cases e with
  | commit => exact List.prefix_append _ _
  | _ => exact List.prefix_rfl

theorem committed_prefix_after (h : History ι Op Reply) (t : List (ι × Event Op Reply)) :
    h.committed <+: (h.after t).committed := by
  induction t generalizing h with
  | nil => exact List.prefix_rfl
  | cons e t ih => exact (committed_prefix_observe h e).trans (ih (h.observe e))

end History

/-! ### The machine -/

/-- The shared value, and the open scope with its working copy. -/
structure Machine (ι σ : Type) where
  shared : σ
  scope : Option (ι × σ)

variable (exec : Op → σ → Reply × σ)

/-- One step of one unit. -/
def step (m : Machine ι σ) : ι × Event Op Reply → Machine ι σ → Prop
  | (u, .create), m' => (∀ w, m.scope ≠ some (u, w)) ∧ m' = m
  | (_, .abandon), m' => m' = m
  | (u, .enter), m' => m.scope = none ∧ m' = { m with scope := some (u, m.shared) }
  | (u, .run op reply), m' => ∃ w, m.scope = some (u, w) ∧ reply = (exec op w).1 ∧
      m' = { m with scope := some (u, (exec op w).2) }
  | (u, .commit), m' => ∃ w, m.scope = some (u, w) ∧ m' = ⟨w, some (u, w)⟩
  | (u, .rollback), m' => ∃ w, m.scope = some (u, w) ∧ m' = { m with scope := some (u, m.shared) }
  | (u, .leave), m' => ∃ w, m.scope = some (u, w) ∧ m' = { m with scope := none }

/-- The system of all units over one shared value. -/
def machine (initial : σ) : System (Machine ι σ) (ι × Event Op Reply) where
  init m := m = ⟨initial, none⟩
  step := step exec

/-! ### Serial execution -/

/-- Executed one after another from `s`, the operations give the replies they had
    and end in `s'`. -/
def Serial (s : σ) : List (Performed ι Op Reply) → σ → Prop
  | [], s' => s' = s
  | p :: rest, s' => (exec p.op s).1 = p.reply ∧ Serial (exec p.op s).2 rest s'

variable {exec}

omit [DecidableEq ι] in
theorem serial_append {s s' : σ} {l l' : List (Performed ι Op Reply)} :
    Serial exec s (l ++ l') s' ↔ ∃ t, Serial exec s l t ∧ Serial exec t l' s' := by
  induction l generalizing s with
  | nil => simp [Serial]
  | cons p l ih =>
    show _ ∧ Serial exec _ (l ++ l') s' ↔ ∃ t, (_ ∧ Serial exec _ l t) ∧ _
    rw [ih]
    constructor
    · intro h
      obtain ⟨hreply, t, hl, hl'⟩ := h
      exact ⟨t, ⟨hreply, hl⟩, hl'⟩
    · intro h
      obtain ⟨t, ⟨hreply, hl⟩, hl'⟩ := h
      exact ⟨hreply, t, hl, hl'⟩

omit [DecidableEq ι] in
/-- Serial execution has one result. -/
theorem serial_unique {s t t' : σ} {l : List (Performed ι Op Reply)} (h : Serial exec s l t)
    (h' : Serial exec s l t') : t = t' := by
  induction l generalizing s with
  | nil => exact h.trans h'.symm
  | cons p l ih => exact ih h.2 h'.2

/-- The shared value is the serial result of the committed operations, and the
    working copy of the open scope that of these and its own pending ones. -/
structure Explained (exec : Op → σ → Reply × σ) (initial : σ) (h : History ι Op Reply)
    (m : Machine ι σ) : Prop where
  shared : Serial exec initial h.committed m.shared
  working : ∀ u w, m.scope = some (u, w) → Serial exec initial (h.committed ++ h.pending u) w

/-- After a snapshot of `s` nothing is pending. -/
theorem working_snapshot {initial s : σ} {h : History ι Op Reply} {u : ι}
    (hs : Serial exec initial h.committed s) :
    ∀ v w, some (u, s) = some (v, w) →
      Serial exec initial ((h.snapshot u).committed ++ (h.snapshot u).pending v) w := by
  intro v w hscope
  obtain ⟨rfl, rfl⟩ := Prod.mk.inj (Option.some.inj hscope)
  show Serial exec initial (h.committed ++ (if u = u then [] else h.pending u)) s
  rw [if_pos rfl, List.append_nil]
  exact hs

/-- **One step keeps the machine explained.** -/
theorem explained_step {initial : σ} {h : History ι Op Reply} {m m' : Machine ι σ}
    {e : ι × Event Op Reply} (hm : Explained exec initial h m) (hstep : step exec m e m') :
    Explained exec initial (h.observe e) m' := by
  obtain ⟨u, e⟩ := e
  cases e with
  | create =>
    -- a unit without a scope has nothing pending
    obtain ⟨hclosed, rfl⟩ := hstep
    refine ⟨hm.shared, ?_⟩
    intro v w hscope
    have hne : v ≠ u := fun heq => hclosed w (heq ▸ hscope)
    show Serial exec initial (h.committed ++ (if v = u then [] else h.pending v)) w
    rw [if_neg hne]
    exact hm.working v w hscope
  | enter =>
    obtain ⟨-, rfl⟩ := hstep
    exact ⟨hm.shared, working_snapshot hm.shared⟩
  | abandon =>
    obtain rfl := hstep
    exact ⟨hm.shared, hm.working⟩
  | run op reply =>
    obtain ⟨w, hscope, rfl, rfl⟩ := hstep
    refine ⟨hm.shared, ?_⟩
    intro v w' hscope'
    obtain ⟨rfl, rfl⟩ := Prod.mk.inj (Option.some.inj hscope')
    show Serial exec initial (h.committed ++ (if u = u then h.pending u ++ [_] else _)) _
    rw [if_pos rfl, ← List.append_assoc, serial_append]
    exact ⟨w, hm.working u w hscope, rfl, rfl⟩
  | commit =>
    obtain ⟨w, hscope, rfl⟩ := hstep
    -- what the unit has done becomes the last of the serial order
    have hserial := hm.working u w hscope
    exact ⟨hserial, working_snapshot (h := { h with committed := _ }) hserial⟩
  | rollback =>
    obtain ⟨w, -, rfl⟩ := hstep
    exact ⟨hm.shared, working_snapshot hm.shared⟩
  | leave =>
    obtain ⟨w, -, rfl⟩ := hstep
    exact ⟨hm.shared, fun v w hscope => absurd hscope (by simp)⟩

/-- **Serializability**: at every point of every run. -/
theorem explained_of_run {initial : σ} {h : History ι Op Reply} {m m' : Machine ι σ}
    {trace : List (ι × Event Op Reply)} (hrun : Run (machine exec initial) m trace m')
    (hm : Explained exec initial h m) : Explained exec initial (h.after trace) m' := by
  induction hrun generalizing h with
  | nil => exact hm
  | cons hstep _ ih => exact ih (explained_step hm hstep)

omit [DecidableEq ι] in
theorem explained_start (initial : σ) :
    Explained exec initial (History.start : History ι Op Reply) ⟨initial, none⟩ :=
  ⟨rfl, fun _ _ hscope => absurd hscope (by simp)⟩

/-! ### Visibility -/

omit [DecidableEq ι] in
/-- Only a commit changes the shared value. -/
theorem shared_of_step {m m' : Machine ι σ} {u : ι} {e : Event Op Reply}
    (hstep : step exec m (u, e) m') (hcommit : e ≠ .commit) : m'.shared = m.shared := by
  cases e with
  | commit => exact absurd rfl hcommit
  | create =>
    obtain ⟨-, rfl⟩ := hstep
    rfl
  | abandon =>
    obtain rfl := hstep
    rfl
  | enter =>
    obtain ⟨-, rfl⟩ := hstep
    rfl
  | run op reply =>
    obtain ⟨w, -, -, rfl⟩ := hstep
    rfl
  | rollback =>
    obtain ⟨w, -, rfl⟩ := hstep
    rfl
  | leave =>
    obtain ⟨w, -, rfl⟩ := hstep
    rfl

/-- The operations of one unit in a list. -/
def ofUnit (u : ι) (l : List (Performed ι Op Reply)) : List (Performed ι Op Reply) :=
  l.filter fun p => p.unit = u

@[simp] theorem ofUnit_nil (u : ι) : ofUnit u ([] : List (Performed ι Op Reply)) = [] := rfl

@[simp] theorem ofUnit_append (u : ι) (l l' : List (Performed ι Op Reply)) :
    ofUnit u (l ++ l') = ofUnit u l ++ ofUnit u l' :=
  List.filter_append l l'

/-- The pending operations of a unit are its own. -/
def History.Own (h : History ι Op Reply) : Prop := ∀ v, ∀ p ∈ h.pending v, p.unit = v

theorem History.own_observe {h : History ι Op Reply} (hown : h.Own) (e : ι × Event Op Reply) :
    (h.observe e).Own := by
  obtain ⟨u, e⟩ := e
  have hsnapshot : (h.snapshot u).Own := by
    intro v p hp
    change p ∈ (if v = u then [] else h.pending v) at hp
    by_cases hv : v = u
    · rw [if_pos hv] at hp
      exact absurd hp List.not_mem_nil
    · rw [if_neg hv] at hp
      exact hown v p hp
  cases e with
  | create => exact hsnapshot
  | enter => exact hsnapshot
  | rollback => exact hsnapshot
  | commit => exact hsnapshot
  | abandon => exact hown
  | leave => exact hown
  | run op reply =>
    intro v p hp
    change p ∈ (if v = u then h.pending v ++ [_] else h.pending v) at hp
    by_cases hv : v = u
    · rw [if_pos hv] at hp
      rcases List.mem_append.mp hp with hp | hp
      · exact hown v p hp
      · rw [List.mem_singleton.mp hp, hv]
    · rw [if_neg hv] at hp
      exact hown v p hp

theorem History.own_after {h : History ι Op Reply} (hown : h.Own)
    (trace : List (ι × Event Op Reply)) : (h.after trace).Own := by
  induction trace generalizing h with
  | nil => exact hown
  | cons e trace ih => exact ih (own_observe hown e)

theorem ofUnit_pending {h : History ι Op Reply} (hown : h.Own) {u v : ι} (hv : v ≠ u) :
    ofUnit u (h.pending v) = [] := by
  apply List.filter_eq_nil_iff.mpr
  intro p hp
  simp [hown v p hp, hv]

/-- The events of another unit leave a unit's pending operations alone. -/
theorem pending_observe_ne (h : History ι Op Reply) {u v : ι} (hv : v ≠ u) (e : Event Op Reply) :
    (h.observe (v, e)).pending u = h.pending u := by
  cases e <;> first | rfl | exact if_neg (Ne.symm hv)

/-- Nothing but its own commits adds to the committed operations of a unit. -/
theorem ofUnit_committed_observe {h : History ι Op Reply} (hown : h.Own) {u v : ι}
    {e : Event Op Reply} (hne : (v, e) ≠ (u, .commit)) :
    ofUnit u (h.observe (v, e)).committed = ofUnit u h.committed := by
  cases e with
  | commit =>
    have hv : v ≠ u := fun heq => hne (by rw [heq])
    show ofUnit u (h.committed ++ h.pending v) = _
    rw [ofUnit_append, ofUnit_pending hown hv, List.append_nil]
  | _ => rfl

theorem ofUnit_committed_after {h : History ι Op Reply} (hown : h.Own) {u : ι}
    {trace : List (ι × Event Op Reply)} (hno : (u, .commit) ∉ trace) :
    ofUnit u (h.after trace).committed = ofUnit u h.committed := by
  induction trace generalizing h with
  | nil => rfl
  | cons e trace ih =>
    rw [List.mem_cons, not_or] at hno
    obtain ⟨hne, hrest⟩ := hno
    rw [History.after_cons, ih (History.own_observe hown e) hrest]
    exact ofUnit_committed_observe hown (Ne.symm hne)

/-- Two histories that agree on what a unit committed beyond `base` and, while its
    scope is open, on its pending operations. -/
structure SameUnit (u : ι) (base : List (Performed ι Op Reply)) (m : Machine ι σ)
    (h h' : History ι Op Reply) : Prop where
  committed : ofUnit u h.committed = base ++ ofUnit u h'.committed
  pending : (∃ w, m.scope = some (u, w)) → h.pending u = h'.pending u
  own : h.Own
  own' : h'.Own

theorem sameUnit_step {u : ι} {base : List (Performed ι Op Reply)} {m m' : Machine ι σ}
    {h h' : History ι Op Reply} {e : ι × Event Op Reply} (hsame : SameUnit u base m h h')
    (hstep : step exec m e m') : SameUnit u base m' (h.observe e) (h'.observe e) := by
  obtain ⟨v, e⟩ := e
  refine ⟨?_, ?_, History.own_observe hsame.own _, History.own_observe hsame.own' _⟩
  · by_cases hcommit : (v, e) = (u, .commit)
    · obtain ⟨rfl, rfl⟩ := Prod.mk.inj hcommit
      obtain ⟨w, hscope, -⟩ := hstep
      show ofUnit v (h.committed ++ h.pending v) = base ++ ofUnit v (h'.committed ++ h'.pending v)
      rw [ofUnit_append, ofUnit_append, hsame.committed, hsame.pending ⟨w, hscope⟩,
        List.append_assoc]
    · rw [ofUnit_committed_observe hsame.own hcommit, ofUnit_committed_observe hsame.own' hcommit]
      exact hsame.committed
  · intro hopen
    by_cases hv : v = u
    · subst hv
      -- a snapshot empties both, a run adds to both
      cases e with
      | create => exact (if_pos rfl).trans (if_pos rfl).symm
      | enter => exact (if_pos rfl).trans (if_pos rfl).symm
      | rollback => exact (if_pos rfl).trans (if_pos rfl).symm
      | commit => exact (if_pos rfl).trans (if_pos rfl).symm
      | abandon =>
        obtain rfl := hstep
        exact hsame.pending hopen
      | leave =>
        obtain ⟨w, -, rfl⟩ := hstep
        obtain ⟨w', hw'⟩ := hopen
        exact absurd hw' (by simp)
      | run op reply =>
        obtain ⟨w, hscope, -, -⟩ := hstep
        show (if v = v then h.pending v ++ _ else _) = if v = v then h'.pending v ++ _ else _
        rw [if_pos rfl, if_pos rfl, hsame.pending ⟨w, hscope⟩]
    · rw [pending_observe_ne h hv, pending_observe_ne h' hv]
      apply hsame.pending
      -- a scope another unit's step leaves open was open before
      obtain ⟨w, hw⟩ := hopen
      have hother : ∀ x, m'.scope ≠ some (v, x) := by
        intro x hx
        rw [hx] at hw
        exact hv (Prod.mk.inj (Option.some.inj hw)).1
      cases e with
      | create =>
        obtain ⟨-, rfl⟩ := hstep
        exact ⟨w, hw⟩
      | abandon =>
        obtain rfl := hstep
        exact ⟨w, hw⟩
      | enter =>
        obtain ⟨-, rfl⟩ := hstep
        exact absurd rfl (hother m.shared)
      | run op reply =>
        obtain ⟨w', -, -, rfl⟩ := hstep
        exact absurd rfl (hother _)
      | commit =>
        obtain ⟨w', -, rfl⟩ := hstep
        exact absurd rfl (hother w')
      | rollback =>
        obtain ⟨w', -, rfl⟩ := hstep
        exact absurd rfl (hother m.shared)
      | leave =>
        obtain ⟨w', -, rfl⟩ := hstep
        exact absurd hw (by simp)

theorem sameUnit_run {u : ι} {base : List (Performed ι Op Reply)} {initial : σ}
    {m m' : Machine ι σ} {trace : List (ι × Event Op Reply)} {h h' : History ι Op Reply}
    (hrun : Run (machine exec initial) m trace m') (hsame : SameUnit u base m h h') :
    SameUnit u base m' (h.after trace) (h'.after trace) := by
  induction hrun generalizing h h' with
  | nil => exact hsame
  | cons hstep _ ih => exact ih (sameUnit_step hsame hstep)

/-- **Operations without a commit never become visible**: a scope in which a unit
    does not commit adds nothing to what the unit commits in the whole run. -/
theorem uncommitted_scope {u : ι} {initial : σ} {m m' : Machine ι σ}
    {before scope rest : List (ι × Event Op Reply)}
    (hrun : Run (machine exec initial) m (before ++ scope ++ (u, .leave) :: rest) m')
    (hno : (u, .commit) ∉ scope) :
    ofUnit u (History.start.after (before ++ scope ++ (u, .leave) :: rest)).committed =
      ofUnit u (History.start.after before).committed ++
        ofUnit u (History.start.after rest).committed := by
  have hstart : (History.start : History ι Op Reply).Own := by
    intro v p hp
    exact absurd hp List.not_mem_nil
  obtain ⟨m₁, -, hlast⟩ := hrun.split
  cases hlast with
  | cons hleave hrest =>
    obtain ⟨w, -, rfl⟩ := hleave
    rw [History.after_append, History.after_cons]
    have hscope : ofUnit u (History.start.after (before ++ scope)).committed =
        ofUnit u (History.start.after before).committed := by
      rw [History.after_append]
      exact ofUnit_committed_after (History.own_after hstart before) hno
    apply (sameUnit_run hrest _).committed
    refine ⟨?_, ?_, History.own_after hstart _, hstart⟩
    · show ofUnit u (History.start.after (before ++ scope)).committed = _ ++ []
      rw [hscope, List.append_nil]
    · intro hopen
      obtain ⟨w', hw'⟩ := hopen
      exact absurd hw' (by simp)

end Snapshots
