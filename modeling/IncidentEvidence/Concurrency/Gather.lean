import Mathlib

/-! # Gathering coroutines under a semaphore

    `asyncio.gather` over coroutines that each run inside one semaphore. A coroutine runs
    without interruption from one suspension to the next, and the event loop may wake
    suspended tasks in any order. The results come back in the order of the tasks.

    Coroutines that share nothing give the results they give alone, whatever the order and
    the size of the semaphore (`gather_eq`), and the event loop always gets there
    (`exists_gather_of_run`). -/

namespace Gather

/-- A coroutine: it starts from a parameter, and goes on from a suspension. Each time it
    raises, returns or is suspended again. -/
structure Coroutine (π σ ε α : Type) where
  start : π → Except ε (σ ⊕ α)
  resume : σ → Except ε (σ ⊕ α)

/-- A task, as the event loop holds it. -/
inductive Task (π σ ε α : Type) where
  /-- Before the semaphore. -/
  | waiting (p : π)
  | suspended (s : σ)
  | done (r : Except ε α)

variable {π σ ε α : Type}

namespace Task

/-- The task after a coroutine ran up to its next suspension. -/
def of : Except ε (σ ⊕ α) → Task π σ ε α
  | .ok (.inl s) => .suspended s
  | .ok (.inr a) => .done (.ok a)
  | .error e => .done (.error e)

/-- The task is inside the semaphore. -/
def isSuspended : Task π σ ε α → Bool
  | .suspended _ => true
  | _ => false

/-- The value of a task that returned. -/
def value : Task π σ ε α → Option α
  | .done (.ok a) => some a
  | _ => none

/-- The event loop may wake the task, when `inFlight` others are inside a semaphore of this
    size. -/
def ready (limit inFlight : ℕ) : Task π σ ε α → Bool
  | .waiting _ => inFlight < limit
  | .suspended _ => true
  | .done _ => false

end Task

/-- The tasks inside the semaphore. -/
def inFlight (tasks : List (Task π σ ε α)) : ℕ := tasks.countP (·.isSuspended)

section loop
variable (C : Coroutine π σ ε α) (limit : ℕ)

/-- Run a task up to its next suspension. -/
def Coroutine.advance : Task π σ ε α → Task π σ ε α
  | .waiting p => .of (C.start p)
  | .suspended s => .of (C.resume s)
  | .done r => .done r

/-- Wake a task; `none` if it cannot be woken now. -/
def wake (tasks : List (Task π σ ε α)) (i : ℕ) : Option (List (Task π σ ε α)) :=
  match tasks[i]? with
  | some task =>
    if task.ready limit (inFlight tasks) then some (tasks.set i (C.advance task)) else none
  | none => none

/-- Wake tasks in this order. -/
def run (tasks : List (Task π σ ε α)) (schedule : List ℕ) : Option (List (Task π σ ε α)) :=
  schedule.foldlM (wake C limit) tasks

/-- `asyncio.gather`: the values in the order of the tasks, or the first exception in the order
    of the schedule. `none` if the schedule is not one, or leaves a task unfinished. -/
def gather (tasks : List (Task π σ ε α)) : List ℕ → Option (Except ε (List α))
  | [] => (tasks.mapM Task.value).map .ok
  | i :: schedule =>
    match wake C limit tasks i with
    | none => none
    | some tasks =>
      match tasks[i]? with
      | some (.done (.error e)) => some (.error e)
      | _ => gather tasks schedule

end loop

/-! ### Tasks that return -/

/-- Alone, the task returns this value after this many turns. -/
inductive Returns (C : Coroutine π σ ε α) : Task π σ ε α → ℕ → α → Prop where
  | done (a : α) : Returns C (.done (.ok a)) 0 a
  | waiting {p : π} {turns : ℕ} {a : α} :
      Returns C (.of (C.start p)) turns a → Returns C (.waiting p) (turns + 1) a
  | suspended {s : σ} {turns : ℕ} {a : α} :
      Returns C (.of (C.resume s)) turns a → Returns C (.suspended s) (turns + 1) a

/-- The tasks return these values, each after so many turns. -/
def Return (C : Coroutine π σ ε α) (tasks : List (Task π σ ε α)) (ends : List (ℕ × α)) : Prop :=
  List.Forall₂ (fun task e => Returns C task e.1 e.2) tasks ends

/-- The values of tasks that return. -/
def values (ends : List (ℕ × α)) : List α := ends.map Prod.snd

/-- The turns that are left. -/
def turnsLeft (ends : List (ℕ × α)) : ℕ := (ends.map Prod.fst).sum

section returns
variable {C : Coroutine π σ ε α} {limit : ℕ} {tasks tasks' : List (Task π σ ε α)}
  {ends : List (ℕ × α)}

theorem Returns.advance {task : Task π σ ε α} {turns : ℕ} {a : α} (h : Returns C task turns a)
    {inFlight : ℕ} (hready : task.ready limit inFlight = true) :
    ∃ left, turns = left + 1 ∧ Returns C (C.advance task) left a := by
  cases h with
  | done a => exact absurd hready (by simp [Task.ready])
  | waiting h => exact ⟨_, rfl, h⟩
  | suspended h => exact ⟨_, rfl, h⟩

/-- A task without turns left has returned. -/
theorem Returns.value_of_turns {task : Task π σ ε α} {a : α} (h : Returns C task 0 a) :
    task.value = some a := by
  cases h
  rfl

theorem Returns.not_failed {task : Task π σ ε α} {turns : ℕ} {a : α} (h : Returns C task turns a)
    (e : ε) : task ≠ .done (.error e) := by
  intro hfailed
  rw [hfailed] at h
  cases h

/-- One turn of one task takes one turn off what is left, and changes no value. -/
theorem Return.set (h : Return C tasks ends) {i : ℕ} {task : Task π σ ε α}
    (hget : tasks[i]? = some task) {inFlight : ℕ} (hready : task.ready limit inFlight = true) :
    ∃ ends', Return C (tasks.set i (C.advance task)) ends' ∧ values ends' = values ends ∧
      turnsLeft ends' + 1 = turnsLeft ends := by
  induction h generalizing i with
  | nil => exact absurd hget (by simp)
  | @cons head e tasks ends hhead hrest ih =>
    cases i with
    | zero =>
      obtain rfl : head = task := by simpa using hget
      obtain ⟨left, hturns, hleft⟩ := hhead.advance hready
      refine ⟨(left, e.2) :: ends, .cons hleft hrest, rfl, ?_⟩
      simp only [turnsLeft, List.map_cons, List.sum_cons, hturns]
      omega
    | succ i =>
      obtain ⟨ends', hreturn, hvalues, hturns⟩ := ih (by simpa using hget)
      refine ⟨e :: ends', .cons hhead hreturn, congrArg (List.cons e.2) hvalues, ?_⟩
      simp only [turnsLeft, List.map_cons, List.sum_cons] at hturns ⊢
      omega

theorem Return.wake (h : Return C tasks ends) {i : ℕ} (hwake : wake C limit tasks i = some tasks') :
    ∃ ends', Return C tasks' ends' ∧ values ends' = values ends ∧
      turnsLeft ends' + 1 = turnsLeft ends := by
  unfold Gather.wake at hwake
  cases hget : tasks[i]? with
  | none => simp [hget] at hwake
  | some task =>
    simp only [hget] at hwake
    by_cases hready : task.ready limit (inFlight tasks) = true
    · rw [if_pos hready] at hwake
      rw [← Option.some.inj hwake]
      exact h.set hget hready
    · rw [if_neg hready] at hwake
      exact absurd hwake (by simp)

/-- A run of the event loop: it takes a turn for each task it wakes. -/
theorem Return.run (h : Return C tasks ends) {schedule : List ℕ}
    (hrun : run C limit tasks schedule = some tasks') :
    ∃ ends', Return C tasks' ends' ∧ values ends' = values ends ∧
      turnsLeft ends' + schedule.length = turnsLeft ends := by
  induction schedule generalizing tasks ends with
  | nil =>
    obtain rfl : tasks = tasks' := by simpa [Gather.run] using hrun
    exact ⟨ends, h, rfl, rfl⟩
  | cons i schedule ih =>
    simp only [Gather.run, List.foldlM_cons, Option.bind_eq_bind, Option.bind_eq_some_iff] at hrun
    obtain ⟨next, hwake, hrest⟩ := hrun
    obtain ⟨ends₁, hreturn₁, hvalues₁, hturns₁⟩ := h.wake hwake
    obtain ⟨ends₂, hreturn₂, hvalues₂, hturns₂⟩ := ih hreturn₁ hrest
    refine ⟨ends₂, hreturn₂, hvalues₂.trans hvalues₁, ?_⟩
    rw [List.length_cons]
    omega

/-- No task fails on the way. -/
theorem Return.not_failed (h : Return C tasks ends) {i : ℕ} {e : ε} :
    tasks[i]? ≠ some (.done (.error e)) := by
  induction h generalizing i with
  | nil => simp
  | cons hhead _ ih =>
    cases i with
    | zero =>
      intro hget
      exact hhead.not_failed e (by simpa using hget)
    | succ i =>
      intro hget
      exact ih (by simpa using hget)

/-- With tasks that return, a schedule is a run with every value read at its end. -/
theorem gather_of_return (h : Return C tasks ends) {schedule : List ℕ} :
    gather C limit tasks schedule =
      (run C limit tasks schedule).bind fun tasks => (tasks.mapM Task.value).map .ok := by
  induction schedule generalizing tasks ends with
  | nil => rfl
  | cons i schedule ih =>
    simp only [gather, Gather.run, List.foldlM_cons, Option.bind_eq_bind]
    cases hwake : Gather.wake C limit tasks i with
    | none => rfl
    | some next =>
      obtain ⟨ends', hreturn, -, -⟩ := h.wake hwake
      simp only [Option.bind_some]
      rw [← Gather.run, ← ih hreturn]
      split
      · next e hfailed => exact absurd hfailed hreturn.not_failed
      · rfl

/-- The values that were read are the values of the tasks. -/
theorem Return.mapM_value (h : Return C tasks ends) {read : List α}
    (hread : tasks.mapM Task.value = some read) : read = values ends := by
  induction h generalizing read with
  | nil => simpa [values] using hread.symm
  | @cons task e tasks ends hhead _ ih =>
    simp only [List.mapM_cons, Option.bind_eq_bind, Option.bind_eq_some_iff, Option.pure_def,
      Option.some.injEq] at hread
    obtain ⟨a, ha, rest, hrest, rfl⟩ := hread
    obtain ⟨turns, b⟩ := e
    have hvalue : a = b := by
      cases hhead with
      | done b => exact (Option.some.inj ha).symm
      | waiting h => exact absurd ha (by simp [Task.value])
      | suspended h => exact absurd ha (by simp [Task.value])
    rw [hvalue, ih hrest]
    rfl

/-- **Every completed schedule gathers the same values**: those the tasks return alone. -/
theorem gather_eq (h : Return C tasks ends) {schedule : List ℕ} {result : Except ε (List α)}
    (hgather : gather C limit tasks schedule = some result) : result = .ok (values ends) := by
  rw [gather_of_return h, Option.bind_eq_some_iff] at hgather
  obtain ⟨last, hrun, hresult⟩ := hgather
  obtain ⟨ends', hreturn, hvalues, -⟩ := h.run hrun
  obtain ⟨read, hread, rfl⟩ := Option.map_eq_some_iff.mp hresult
  rw [hreturn.mapM_value hread, hvalues]

/-! ### Progress -/

theorem Return.mapM_of_turnsLeft (h : Return C tasks ends) (hturns : turnsLeft ends = 0) :
    tasks.mapM Task.value = some (values ends) := by
  induction h with
  | nil => rfl
  | @cons task e tasks ends hhead _ ih =>
    simp only [turnsLeft, List.map_cons, List.sum_cons, Nat.add_eq_zero_iff] at hturns
    obtain ⟨hzero, hrest⟩ := hturns
    rw [hzero] at hhead
    rw [List.mapM_cons, hhead.value_of_turns, ih hrest]
    rfl

/-- While turns are left, a task is suspended or one waits. -/
theorem Return.exists_unfinished (h : Return C tasks ends) (hturns : turnsLeft ends ≠ 0) :
    (∃ (i : ℕ) (s : σ), tasks[i]? = some (.suspended s)) ∨
      (∃ (i : ℕ) (p : π), tasks[i]? = some (.waiting p)) := by
  induction h with
  | nil => exact absurd rfl hturns
  | @cons task e tasks ends hhead _ ih =>
    obtain ⟨turns, a⟩ := e
    cases hhead with
    | waiting h => exact .inr ⟨0, _, rfl⟩
    | suspended h => exact .inl ⟨0, _, rfl⟩
    | done =>
      have hrest : turnsLeft ends ≠ 0 := by
        simpa [turnsLeft] using hturns
      rcases ih hrest with ⟨i, s, hget⟩ | ⟨i, p, hget⟩
      · exact .inl ⟨i + 1, s, hget⟩
      · exact .inr ⟨i + 1, p, hget⟩

/-- **The event loop is never stuck**: while turns are left, some task can be woken. -/
theorem Return.exists_wake (h : Return C tasks ends) (hlimit : 1 ≤ limit)
    (hturns : turnsLeft ends ≠ 0) : ∃ i tasks', Gather.wake C limit tasks i = some tasks' := by
  by_cases hsuspended : ∃ (i : ℕ) (s : σ), tasks[i]? = some (.suspended s)
  · obtain ⟨i, s, hget⟩ := hsuspended
    exact ⟨i, tasks.set i (C.advance (.suspended s)), by simp [Gather.wake, hget, Task.ready]⟩
  · -- nobody is inside the semaphore, so a waiting task may enter
    obtain ⟨i, p, hget⟩ := (h.exists_unfinished hturns).resolve_left hsuspended
    have hfree : inFlight tasks = 0 := by
      apply List.countP_eq_zero.mpr
      intro task htask
      cases task with
      | suspended s =>
        obtain ⟨j, hj⟩ := List.mem_iff_getElem?.mp htask
        exact absurd ⟨j, s, hj⟩ hsuspended
      | waiting p => simp [Task.isSuspended]
      | done r => simp [Task.isSuspended]
    have hready : (Task.waiting p : Task π σ ε α).ready limit (inFlight tasks) = true := by
      rw [hfree]
      exact decide_eq_true hlimit
    exact ⟨i, tasks.set i (C.advance (.waiting p)), by simp only [Gather.wake, hget, hready, if_true]⟩

/-- Tasks that return can be gathered. -/
theorem exists_gather (h : Return C tasks ends) (hlimit : 1 ≤ limit) :
    ∃ schedule, gather C limit tasks schedule = some (.ok (values ends)) := by
  induction hturns : turnsLeft ends generalizing tasks ends with
  | zero => exact ⟨[], by rw [gather, h.mapM_of_turnsLeft hturns]; rfl⟩
  | succ n ih =>
    obtain ⟨i, next, hwake⟩ := h.exists_wake hlimit (by omega)
    obtain ⟨ends', hreturn, hvalues, hleft⟩ := h.wake hwake
    obtain ⟨schedule, hgather⟩ := ih hreturn (by omega)
    refine ⟨i :: schedule, ?_⟩
    rw [gather_of_return hreturn] at hgather
    rw [gather_of_return h, ← hvalues, ← hgather]
    simp [Gather.run, hwake]

/-- **However the event loop began, it gets there**: a run takes no more turns than the tasks
    take alone, and goes on to gather their values. -/
theorem exists_gather_of_run (h : Return C tasks ends) (hlimit : 1 ≤ limit) {schedule : List ℕ}
    (hrun : run C limit tasks schedule = some tasks') :
    schedule.length ≤ turnsLeft ends ∧
      ∃ rest, gather C limit tasks (schedule ++ rest) = some (.ok (values ends)) := by
  obtain ⟨ends', hreturn, hvalues, hturns⟩ := h.run hrun
  obtain ⟨rest, hgather⟩ := exists_gather hreturn hlimit
  refine ⟨by omega, rest, ?_⟩
  rw [gather_of_return hreturn] at hgather
  rw [gather_of_return h, ← hvalues, ← hgather]
  unfold Gather.run at hrun ⊢
  rw [List.foldlM_append, hrun]
  rfl

end returns

/-! ### The semaphore -/

section semaphore
variable {C : Coroutine π σ ε α} {limit : ℕ} {tasks tasks' : List (Task π σ ε α)}

/-- Waking one task lets at most one more into the semaphore, and none beyond its size. -/
theorem inFlight_wake (h : inFlight tasks ≤ limit) {i : ℕ}
    (hwake : wake C limit tasks i = some tasks') : inFlight tasks' ≤ limit := by
  unfold wake at hwake
  cases hget : tasks[i]? with
  | none => simp [hget] at hwake
  | some task =>
    simp only [hget] at hwake
    by_cases hready : task.ready limit (inFlight tasks) = true
    · rw [if_pos hready] at hwake
      obtain ⟨hi, htask⟩ := List.getElem?_eq_some_iff.mp hget
      rw [← Option.some.inj hwake, inFlight, List.countP_set hi, htask]
      have hcount : tasks.countP (·.isSuspended) ≤ limit := h
      have hone : ∀ b : Bool, (if b = true then 1 else 0) ≤ 1 := by decide
      have hadded := hone (C.advance task).isSuspended
      cases task with
      | waiting p =>
        have hroom : inFlight tasks < limit := by
          simpa [Task.ready] using hready
        unfold inFlight at hroom
        omega
      | suspended s =>
        have hpositive : 0 < tasks.countP (·.isSuspended) :=
          List.countP_pos_iff.mpr ⟨_, List.mem_of_getElem? hget, rfl⟩
        have hself : (Task.suspended s : Task π σ ε α).isSuspended = true := rfl
        rw [if_pos hself]
        omega
      | done r => exact absurd hready (by simp [Task.ready])
    · rw [if_neg hready] at hwake
      exact absurd hwake (by simp)

/-- **The semaphore holds**: along every run at most `limit` tasks are inside it. -/
theorem inFlight_run (h : inFlight tasks ≤ limit) {schedule : List ℕ}
    (hrun : run C limit tasks schedule = some tasks') : inFlight tasks' ≤ limit := by
  induction schedule generalizing tasks with
  | nil =>
    obtain rfl : tasks = tasks' := by simpa [run] using hrun
    exact h
  | cons i schedule ih =>
    simp only [run, List.foldlM_cons, Option.bind_eq_bind, Option.bind_eq_some_iff] at hrun
    obtain ⟨next, hwake, hrest⟩ := hrun
    exact ih (inFlight_wake h hwake) hrest

end semaphore

end Gather
