import Mathlib.Logic.Function.Basic
import Mathlib.Data.List.Nodup
import IncidentEvidence.Concurrency.Runs
import IncidentEvidence.Py.Sorted
import IncidentEvidence.Py.Str

/-! # The migration runner

    `persistence/migrations/runner.py`, one step for each statement it sends, with
    any number of runners against one database. DDL is transactional, so what a
    transaction did is seen by the others when it commits and not before; a
    runner that fails or crashes loses its connection, and with it its
    transaction.

    `applied_versions` is read once, before the loop. What makes that enough is
    that a version read there is never taken back, and that the INSERT of a
    version and the statements of its file commit together (`migrations_exactly_once`).
-/

namespace IncidentEvidence

open Py

/-! ### Migration files -/

/-- A `*.sql` file: its stem, which is the version, and the statements of its text. -/
structure MigrationFile (Stmt : Type) where
  stem : Str
  statements : List Stmt

namespace MigrationFile

variable {Stmt : Type}

/-- `path.name`. -/
def name (f : MigrationFile Stmt) : Str := f.stem ++ str ".sql"

/-- What the file leaves in the database: its statements, each with the version it
    belongs to. -/
def took (f : MigrationFile Stmt) : List (Str × Stmt) := f.statements.map fun st => (f.stem, st)

end MigrationFile

/-- The directory of the package. Two of its files have different names. -/
structure MigrationsDir (Stmt : Type) where
  files : List (MigrationFile Stmt)
  distinct : (files.map MigrationFile.name).Nodup

/-- `_migration_files`. -/
def MigrationsDir.migrationFiles {Stmt : Type} (dir : MigrationsDir Stmt) :
    List (MigrationFile Stmt) :=
  sortedOn MigrationFile.name dir.files

/-! ### Database and runners -/

namespace Migrations

variable {ι Stmt : Type}

/-- What is committed: whether `schema_migrations` exists, its rows, and the statements
    that have taken effect. -/
structure Database (Stmt : Type) where
  table : Bool
  versions : List Str
  effects : List (Str × Stmt)

/-- What a connection has done since its last commit. -/
structure Pending (Stmt : Type) where
  creates : Bool
  versions : List Str
  effects : List (Str × Stmt)

/-- A connection with no open transaction. -/
def Pending.nothing : Pending Stmt := ⟨false, [], []⟩

/-- Where a run of `apply_migrations` is. -/
inductive Position (Stmt : Type) where
  /-- Nothing sent yet. -/
  | start
  /-- `CREATE TABLE IF NOT EXISTS` has been executed. -/
  | ensured
  /-- `SELECT version` has been executed and fetched. -/
  | selected (already : List Str)
  /-- At the head of the loop, with the files still to come. -/
  | loop (already : List Str) (rest : List (MigrationFile Stmt)) (newly : List Str)
  /-- Inside a file's script, with the statements still to come. -/
  | script (already : List Str) (file : MigrationFile Stmt) (rest : List (MigrationFile Stmt))
      (newly : List Str) (left : List Stmt)
  /-- The version has been inserted. -/
  | inserted (already : List Str) (file : MigrationFile Stmt) (rest : List (MigrationFile Stmt))
      (newly : List Str)
  /-- The file has been committed, and `newly` does not hold it yet. -/
  | committed (already : List Str) (file : MigrationFile Stmt) (rest : List (MigrationFile Stmt))
      (newly : List Str)
  | returned (newly : List Str)
  | failed

/-- One run: where it is, its transaction, and, for the statement only, the versions
    its commits have recorded so far. -/
structure Runner (Stmt : Type) where
  position : Position Stmt
  pending : Pending Stmt
  own : List Str

structure State (ι Stmt : Type) where
  database : Database Stmt
  runners : ι → Runner Stmt

variable [DecidableEq ι]

/-- A runner moves on with its transaction. -/
def State.goto (s : State ι Stmt) (i : ι) (position : Position Stmt) (pending : Pending Stmt) :
    State ι Stmt :=
  { s with runners := Function.update s.runners i ⟨position, pending, (s.runners i).own⟩ }

/-- `connection.commit()`. -/
def State.commit (s : State ι Stmt) (i : ι) (position : Position Stmt) : State ι Stmt :=
  let pending := (s.runners i).pending
  { database :=
      { table := s.database.table || pending.creates
        versions := s.database.versions ++ pending.versions
        effects := s.database.effects ++ pending.effects }
    runners := Function.update s.runners i
      ⟨position, .nothing, (s.runners i).own ++ pending.versions⟩ }

/-- One step of one runner. A step that waits is a step that is not there yet. -/
inductive Step (files : List (MigrationFile Stmt)) (s : State ι Stmt) (i : ι) :
    State ι Stmt → Prop where
  /-- Waits while another transaction is creating the table. -/
  | ensure : (s.runners i).position = .start →
      s.database.table = true ∨ (∀ j, (s.runners j).pending.creates = false) →
      Step files s i
        (s.goto i .ensured { (s.runners i).pending with creates := !s.database.table })
  | select : (s.runners i).position = .ensured →
      (s.database.table || (s.runners i).pending.creates) = true →
      Step files s i (s.goto i
        (.selected (s.database.versions ++ (s.runners i).pending.versions))
        (s.runners i).pending)
  | endRead {already : List Str} : (s.runners i).position = .selected already →
      Step files s i (s.commit i (.loop already files []))
  /-- `continue` -/
  | skip {already newly : List Str} {file : MigrationFile Stmt} {rest : List (MigrationFile Stmt)} :
      (s.runners i).position = .loop already (file :: rest) newly → file.stem ∈ already →
      Step files s i (s.goto i (.loop already rest newly) (s.runners i).pending)
  | read {already newly : List Str} {file : MigrationFile Stmt} {rest : List (MigrationFile Stmt)} :
      (s.runners i).position = .loop already (file :: rest) newly → file.stem ∉ already →
      Step files s i
        (s.goto i (.script already file rest newly file.statements) (s.runners i).pending)
  | execute {already newly : List Str} {file : MigrationFile Stmt}
      {rest : List (MigrationFile Stmt)} {st : Stmt} {left : List Stmt} :
      (s.runners i).position = .script already file rest newly (st :: left) →
      Step files s i (s.goto i (.script already file rest newly left)
        { (s.runners i).pending with
          effects := (s.runners i).pending.effects ++ [(file.stem, st)] })
  /-- Waits while another transaction has inserted the version, and fails once the
      version is committed. -/
  | insert {already newly : List Str} {file : MigrationFile Stmt}
      {rest : List (MigrationFile Stmt)} :
      (s.runners i).position = .script already file rest newly [] →
      (s.database.table || (s.runners i).pending.creates) = true →
      file.stem ∉ s.database.versions → (∀ j, file.stem ∉ (s.runners j).pending.versions) →
      Step files s i (s.goto i (.inserted already file rest newly)
        { (s.runners i).pending with
          versions := (s.runners i).pending.versions ++ [file.stem] })
  | endFile {already newly : List Str} {file : MigrationFile Stmt}
      {rest : List (MigrationFile Stmt)} :
      (s.runners i).position = .inserted already file rest newly →
      Step files s i (s.commit i (.committed already file rest newly))
  | append {already newly : List Str} {file : MigrationFile Stmt}
      {rest : List (MigrationFile Stmt)} :
      (s.runners i).position = .committed already file rest newly →
      Step files s i
        (s.goto i (.loop already rest (newly ++ [file.stem])) (s.runners i).pending)
  | finish {already newly : List Str} : (s.runners i).position = .loop already [] newly →
      Step files s i (s.goto i (.returned newly) (s.runners i).pending)
  /-- A statement or a commit raises, or the process dies: the connection is dropped. -/
  | fail : (∀ newly, (s.runners i).position ≠ .returned newly) →
      Step files s i (s.goto i .failed .nothing)

/-- No table, and no runner has started. -/
def State.empty : State ι Stmt := ⟨⟨false, [], []⟩, fun _ => ⟨.start, .nothing, []⟩⟩

/-- Runners against one database, any of which moves next. -/
def system (ι : Type) [DecidableEq ι] (files : List (MigrationFile Stmt)) :
    Runs.System (State ι Stmt) ι where
  init s := s = .empty
  step s i s' := Step files s i s'

/-! ### Lemmas on the steps -/

@[simp] theorem goto_database (s : State ι Stmt) (i : ι) (p : Position Stmt) (t : Pending Stmt) :
    (s.goto i p t).database = s.database := rfl

@[simp] theorem goto_self (s : State ι Stmt) (i : ι) (p : Position Stmt) (t : Pending Stmt) :
    (s.goto i p t).runners i = ⟨p, t, (s.runners i).own⟩ := by
  simp [State.goto]

@[simp] theorem goto_ne (s : State ι Stmt) {i j : ι} (p : Position Stmt) (t : Pending Stmt)
    (h : j ≠ i) : (s.goto i p t).runners j = s.runners j := by
  simp [State.goto, h]

@[simp] theorem commit_versions (s : State ι Stmt) (i : ι) (p : Position Stmt) :
    (s.commit i p).database.versions = s.database.versions ++ (s.runners i).pending.versions := rfl

@[simp] theorem commit_effects (s : State ι Stmt) (i : ι) (p : Position Stmt) :
    (s.commit i p).database.effects = s.database.effects ++ (s.runners i).pending.effects := rfl

@[simp] theorem commit_self (s : State ι Stmt) (i : ι) (p : Position Stmt) :
    (s.commit i p).runners i =
      ⟨p, .nothing, (s.runners i).own ++ (s.runners i).pending.versions⟩ := by
  simp [State.commit]

@[simp] theorem commit_ne (s : State ι Stmt) {i j : ι} (p : Position Stmt) (h : j ≠ i) :
    (s.commit i p).runners j = s.runners j := by
  simp [State.commit, h]

/-! ### Invariant -/

section Invariant

omit [DecidableEq ι]

/-- The files before `rest` are all recorded. -/
def Passed (files : List (MigrationFile Stmt)) (versions : List Str)
    (rest : List (MigrationFile Stmt)) : Prop :=
  ∃ ended, files = ended ++ rest ∧ ∀ f ∈ ended, f.stem ∈ versions

/-- A transaction that has changed no row and executed no script. -/
def Pending.Idle (t : Pending Stmt) : Prop := t.versions = [] ∧ t.effects = []

/-- What holds of a runner at each position, given the committed versions. -/
def Runner.Sound (files : List (MigrationFile Stmt)) (versions : List Str) (r : Runner Stmt) :
    Prop :=
  match r.position with
  | .start | .ensured => r.pending.Idle ∧ r.own = []
  | .selected already => r.pending.Idle ∧ r.own = [] ∧ already ⊆ versions
  | .loop already rest newly =>
    r.pending.Idle ∧ r.own = newly ∧ already ⊆ versions ∧ Passed files versions rest
  | .script already file rest newly left =>
    (r.pending.versions = [] ∧
      ∃ gone, file.statements = gone ++ left ∧
        r.pending.effects = gone.map fun st => (file.stem, st)) ∧
    r.own = newly ∧ already ⊆ versions ∧ Passed files versions (file :: rest)
  | .inserted already file rest newly =>
    (r.pending.versions = [file.stem] ∧ r.pending.effects = file.took) ∧
    r.own = newly ∧ already ⊆ versions ∧ Passed files versions (file :: rest)
  | .committed already file rest newly =>
    r.pending.Idle ∧ r.own = newly ++ [file.stem] ∧ already ⊆ versions ∧
      Passed files versions rest
  | .returned newly => r.pending.Idle ∧ r.own = newly ∧ Passed files versions []
  | .failed => r.pending.Idle

/-- The database holds the first files, each with its version and its statements. -/
def Database.Applied (files : List (MigrationFile Stmt)) (db : Database Stmt) : Prop :=
  ∃ done rest, files = done ++ rest ∧ db.versions = done.map MigrationFile.stem ∧
    db.effects = done.flatMap MigrationFile.took

/-- A version that a transaction has inserted is not recorded, and no other transaction
    has inserted it. -/
structure Exclusive (s : State ι Stmt) : Prop where
  fresh : ∀ i, ∀ v ∈ (s.runners i).pending.versions, v ∉ s.database.versions
  alone : ∀ i j, ∀ v ∈ (s.runners i).pending.versions, v ∈ (s.runners j).pending.versions → i = j

/-- The invariant of the system. -/
structure Inv (files : List (MigrationFile Stmt)) (s : State ι Stmt) : Prop where
  applied : s.database.Applied files
  sound : ∀ i, (s.runners i).Sound files s.database.versions
  exclusive : Exclusive s

theorem Passed.mono {files rest : List (MigrationFile Stmt)} {vs vs' : List Str} (hsub : vs ⊆ vs')
    (h : Passed files vs rest) : Passed files vs' rest := by
  obtain ⟨ended, hfiles, hall⟩ := h
  exact ⟨ended, hfiles, fun f hf => hsub (hall f hf)⟩

/-- The loop passes a file that is recorded. -/
theorem Passed.next {files rest : List (MigrationFile Stmt)} {file : MigrationFile Stmt}
    {vs : List Str} (h : Passed files vs (file :: rest)) (hfile : file.stem ∈ vs) :
    Passed files vs rest := by
  obtain ⟨ended, hfiles, hall⟩ := h
  refine ⟨ended ++ [file], by simp [hfiles], fun f hf => ?_⟩
  rcases List.mem_append.mp hf with hf | hf
  · exact hall f hf
  · rw [List.mem_singleton.mp hf]
    exact hfile

/-- More versions change nothing for a runner that did not move. -/
theorem Runner.Sound.mono {files : List (MigrationFile Stmt)} {vs vs' : List Str} {r : Runner Stmt}
    (hsub : vs ⊆ vs') (h : r.Sound files vs) : r.Sound files vs' := by
  unfold Runner.Sound at h ⊢
  cases hp : r.position with
  | start | ensured | failed =>
    rw [hp] at h
    exact h
  | selected already =>
    rw [hp] at h
    exact ⟨h.1, h.2.1, List.Subset.trans h.2.2 hsub⟩
  | loop already rest newly =>
    rw [hp] at h
    exact ⟨h.1, h.2.1, List.Subset.trans h.2.2.1 hsub, h.2.2.2.mono hsub⟩
  | script already file rest newly left =>
    rw [hp] at h
    exact ⟨h.1, h.2.1, List.Subset.trans h.2.2.1 hsub, h.2.2.2.mono hsub⟩
  | inserted already file rest newly =>
    rw [hp] at h
    exact ⟨h.1, h.2.1, List.Subset.trans h.2.2.1 hsub, h.2.2.2.mono hsub⟩
  | committed already file rest newly =>
    rw [hp] at h
    exact ⟨h.1, h.2.1, List.Subset.trans h.2.2.1 hsub, h.2.2.2.mono hsub⟩
  | returned newly =>
    rw [hp] at h
    exact ⟨h.1, h.2.1, h.2.2.mono hsub⟩

/-- A runner that has passed everything before a file that is not recorded stands
    exactly where the database does. -/
theorem Database.Applied.at_file {files rest : List (MigrationFile Stmt)}
    {file : MigrationFile Stmt} {db : Database Stmt}
    (hdistinct : (files.map MigrationFile.stem).Nodup) (h : db.Applied files)
    (hpassed : Passed files db.versions (file :: rest)) (hnew : file.stem ∉ db.versions) :
    ∃ done, files = done ++ file :: rest ∧ db.versions = done.map MigrationFile.stem ∧
      db.effects = done.flatMap MigrationFile.took := by
  obtain ⟨done, later, hfiles, hversions, heffects⟩ := h
  obtain ⟨ended, hsplit, hall⟩ := hpassed
  have hsame : ended = done := by
    rcases List.append_eq_append_iff.mp (hsplit.symm.trans hfiles) with ⟨a, ha, hl⟩ | ⟨a, ha, hl⟩
    · cases a with
      | nil => simpa using ha.symm
      | cons g a =>
        -- the database is past the file
        refine absurd ?_ hnew
        obtain ⟨rfl, -⟩ := List.cons.inj hl
        rw [hversions, ha]
        simp
    · cases a with
      | nil => simpa using ha
      | cons g a =>
        -- the runner is past a file that the database does not hold
        have hg := hall g (by rw [ha]; simp)
        rw [hversions] at hg
        rw [hfiles, hl, List.map_append, List.nodup_append] at hdistinct
        exact absurd rfl (hdistinct.2.2 _ hg g.stem (by simp))
  subst hsame
  exact ⟨ended, hsplit, hversions, heffects⟩

end Invariant

/-! ### Steps -/

variable {files : List (MigrationFile Stmt)} {s : State ι Stmt} {i : ι}

/-- A runner moves on: its own facts have to be shown, and that the versions it adds
    to its transaction are nobody else's. -/
theorem Inv.goto (h : Inv files s) {p : Position Stmt} {t : Pending Stmt}
    (hself : Runner.Sound files s.database.versions ⟨p, t, (s.runners i).own⟩)
    (hnew : ∀ v ∈ t.versions, v ∈ (s.runners i).pending.versions ∨
      (v ∉ s.database.versions ∧ ∀ j, v ∉ (s.runners j).pending.versions)) :
    Inv files (s.goto i p t) := by
  have hother : ∀ j, j ≠ i → ∀ v ∈ t.versions, v ∉ (s.runners j).pending.versions := by
    intro j hj v hv hmem
    rcases hnew v hv with hold | ⟨-, hnone⟩
    · exact hj (h.exclusive.alone j i v hmem hold)
    · exact hnone j hmem
  refine ⟨h.applied, fun j => ?_, fun j v hv => ?_, fun j k v hv hv' => ?_⟩
  · by_cases hj : j = i
    · subst hj
      simpa using hself
    · simpa [hj] using h.sound j
  · by_cases hj : j = i
    · subst hj
      rw [goto_self] at hv
      rcases hnew v hv with hold | ⟨hfresh, -⟩
      · exact h.exclusive.fresh j v hold
      · exact hfresh
    · rw [goto_ne s p t hj] at hv
      exact h.exclusive.fresh j v hv
  -- two runners with one version: the one that moved has it from before, or nobody else has
  · by_cases hj : j = i <;> by_cases hk : k = i
    · rw [hj, hk]
    · subst hj
      rw [goto_self] at hv
      rw [goto_ne s p t hk] at hv'
      exact absurd hv' (hother k hk v hv)
    · subst hk
      rw [goto_self] at hv'
      rw [goto_ne s p t hj] at hv
      exact absurd hv (hother j hj v hv')
    · rw [goto_ne s p t hj] at hv
      rw [goto_ne s p t hk] at hv'
      exact h.exclusive.alone j k v hv hv'

/-- A runner commits: its own facts have to be shown, and that the database is the
    first files again. -/
theorem Inv.commit (h : Inv files s) {p : Position Stmt}
    (happlied : (s.commit i p).database.Applied files)
    (hself : Runner.Sound files (s.database.versions ++ (s.runners i).pending.versions)
      ⟨p, .nothing, (s.runners i).own ++ (s.runners i).pending.versions⟩) :
    Inv files (s.commit i p) := by
  refine ⟨happlied, fun j => ?_, fun j v hv => ?_, fun j k v hv hv' => ?_⟩
  · by_cases hj : j = i
    · subst hj
      simpa using hself
    · rw [commit_ne s p hj, commit_versions]
      exact (h.sound j).mono (List.subset_append_left _ _)
  · by_cases hj : j = i
    · subst hj
      simp [Pending.nothing] at hv
    · rw [commit_ne s p hj] at hv
      rw [commit_versions, List.mem_append]
      intro hmem
      rcases hmem with hmem | hmem
      · exact h.exclusive.fresh j v hv hmem
      · exact hj (h.exclusive.alone j i v hv hmem)
  · by_cases hj : j = i
    · subst hj
      simp [Pending.nothing] at hv
    · by_cases hk : k = i
      · subst hk
        simp [Pending.nothing] at hv'
      · rw [commit_ne s p hj] at hv
        rw [commit_ne s p hk] at hv'
        exact h.exclusive.alone j k v hv hv'

/-- A commit of a transaction that changed nothing leaves the first files as they are. -/
theorem applied_idle {p : Position Stmt} (h : s.database.Applied files)
    (hidle : (s.runners i).pending.Idle) : (s.commit i p).database.Applied files := by
  obtain ⟨done, rest, hfiles, hversions, heffects⟩ := h
  exact ⟨done, rest, hfiles, by rw [commit_versions, hidle.1, List.append_nil, hversions],
    by rw [commit_effects, hidle.2, List.append_nil, heffects]⟩

/-- The commit of a file adds the next file, whole. -/
theorem applied_file {p : Position Stmt} {file : MigrationFile Stmt}
    {rest : List (MigrationFile Stmt)} (hdistinct : (files.map MigrationFile.stem).Nodup)
    (h : Inv files s) (hversions : (s.runners i).pending.versions = [file.stem])
    (heffects : (s.runners i).pending.effects = file.took)
    (hpassed : Passed files s.database.versions (file :: rest)) :
    (s.commit i p).database.Applied files := by
  have hnew : file.stem ∉ s.database.versions :=
    h.exclusive.fresh i file.stem (by rw [hversions]; exact List.mem_singleton_self _)
  obtain ⟨done, hfiles, hv, he⟩ := h.applied.at_file hdistinct hpassed hnew
  refine ⟨done ++ [file], rest, by simp [hfiles], ?_, ?_⟩
  · rw [commit_versions, hversions, hv, List.map_append, List.map_singleton]
  · rw [commit_effects, heffects, he, List.flatMap_append, List.flatMap_singleton]

/-- One step keeps the invariant. -/
theorem Inv.step (hdistinct : (files.map MigrationFile.stem).Nodup) (h : Inv files s)
    {s' : State ι Stmt} (hstep : Step files s i s') : Inv files s' := by
  have hi := h.sound i
  unfold Runner.Sound at hi
  cases hstep with
  | ensure hp _ =>
    rw [hp] at hi
    exact h.goto hi fun v hv => .inl hv
  | select hp _ =>
    rw [hp] at hi
    refine h.goto ⟨hi.1, hi.2, fun v hv => ?_⟩ fun v hv => .inl hv
    rw [hi.1.1, List.append_nil] at hv
    exact hv
  | endRead hp =>
    rw [hp] at hi
    obtain ⟨hidle, hown, halready⟩ := hi
    -- the reading transaction ends, and it has changed nothing
    refine h.commit (applied_idle h.applied hidle) ?_
    rw [hidle.1, hown]
    exact ⟨⟨rfl, rfl⟩, rfl, by simpa using halready, [], rfl, by simp⟩
  | skip hp hmem =>
    rw [hp] at hi
    obtain ⟨hidle, hown, halready, hpassed⟩ := hi
    exact h.goto ⟨hidle, hown, halready, hpassed.next (halready hmem)⟩ fun v hv => .inl hv
  | read hp _ =>
    rw [hp] at hi
    obtain ⟨hidle, hown, halready, hpassed⟩ := hi
    exact h.goto ⟨⟨hidle.1, [], rfl, hidle.2⟩, hown, halready, hpassed⟩ fun v hv => .inl hv
  | @execute already newly file rest st left hp =>
    rw [hp] at hi
    obtain ⟨⟨hversions, gone, hgone, heffects⟩, hown, halready, hpassed⟩ := hi
    refine h.goto ⟨⟨hversions, gone ++ [st], ?_, ?_⟩, hown, halready, hpassed⟩ fun v hv => .inl hv
    · rw [hgone, List.append_assoc]
      rfl
    · show (s.runners i).pending.effects ++ [(file.stem, st)] = _
      rw [heffects, List.map_append, List.map_singleton]
  | @insert already newly file rest hp _ hfresh hnone =>
    rw [hp] at hi
    obtain ⟨⟨hversions, gone, hgone, heffects⟩, hown, halready, hpassed⟩ := hi
    -- all statements of the file have run, so its effects are whole
    have htook : (s.runners i).pending.effects = file.took := by
      rw [MigrationFile.took, hgone, List.append_nil]
      exact heffects
    refine h.goto ⟨⟨?_, htook⟩, hown, halready, hpassed⟩ fun v hv => ?_
    · show (s.runners i).pending.versions ++ [file.stem] = [file.stem]
      rw [hversions, List.nil_append]
    · rcases List.mem_append.mp hv with hv | hv
      · exact .inl hv
      · rw [List.mem_singleton.mp hv]
        exact .inr ⟨hfresh, hnone⟩
  | @endFile already newly file rest hp =>
    rw [hp] at hi
    obtain ⟨⟨hversions, heffects⟩, hown, halready, hpassed⟩ := hi
    -- the file goes in with its version
    refine h.commit (applied_file hdistinct h hversions heffects hpassed) ?_
    have hsub : s.database.versions ⊆ s.database.versions ++ [file.stem] :=
      List.subset_append_left _ _
    rw [hversions, hown]
    exact ⟨⟨rfl, rfl⟩, rfl, List.Subset.trans halready hsub,
      (hpassed.mono hsub).next (by simp)⟩
  | append hp =>
    rw [hp] at hi
    exact h.goto hi fun v hv => .inl hv
  | finish hp =>
    rw [hp] at hi
    obtain ⟨hidle, hown, -, hpassed⟩ := hi
    exact h.goto ⟨hidle, hown, hpassed⟩ fun v hv => .inl hv
  | fail _ =>
    -- a failing statement or a crash drops the transaction
    exact h.goto ⟨rfl, rfl⟩ fun v hv => absurd hv (by simp [Pending.nothing])

omit [DecidableEq ι] in
theorem Inv.empty (files : List (MigrationFile Stmt)) : Inv files (State.empty : State ι Stmt) := by
  refine ⟨⟨[], files, rfl, rfl, rfl⟩, fun _ => ⟨⟨rfl, rfl⟩, rfl⟩, fun _ v hv => ?_,
    fun _ _ v hv => ?_⟩ <;> exact absurd hv (by simp [State.empty, Pending.nothing])

end Migrations

/-! ### Every migration once -/

variable {ι Stmt : Type}

theorem MigrationsDir.distinct_stems (dir : MigrationsDir Stmt) :
    (dir.migrationFiles.map MigrationFile.stem).Nodup := by
  have hnames : (dir.migrationFiles.map MigrationFile.name).Nodup :=
    ((perm_sortedOn MigrationFile.name dir.files).map _).nodup_iff.mpr dir.distinct
  refine List.Nodup.of_map (fun stem => stem ++ str ".sql") ?_
  rw [List.map_map]
  exact hnames

/-- What the database holds, and what a run that returns has done: the recorded
    versions are the first files', each once; exactly the statements of these files
    have taken effect, each once and in order; and a run that has returned leaves every
    file recorded and returns the versions it committed. -/
structure Migrations.ExactlyOnce (files : List (MigrationFile Stmt)) (s : State ι Stmt) : Prop where
  once : s.database.versions.Nodup
  ordered : s.database.versions <+: files.map MigrationFile.stem
  effects : s.database.effects =
    (files.filter fun f => decide (f.stem ∈ s.database.versions)).flatMap MigrationFile.took
  returned : ∀ i newly, (s.runners i).position = .returned newly →
    s.database.versions = files.map MigrationFile.stem ∧ newly = (s.runners i).own

theorem Migrations.Inv.exactlyOnce {files : List (MigrationFile Stmt)} {s : State ι Stmt}
    (hdistinct : (files.map MigrationFile.stem).Nodup) (h : Inv files s) :
    ExactlyOnce files s := by
  obtain ⟨done, rest, hfiles, hversions, heffects⟩ := h.applied
  have hsplit : files.map MigrationFile.stem =
      s.database.versions ++ rest.map MigrationFile.stem := by
    rw [hfiles, List.map_append, hversions]
  have hnodup : (s.database.versions ++ rest.map MigrationFile.stem).Nodup := hsplit ▸ hdistinct
  have hapart := (List.nodup_append.mp hnodup).2.2
  refine ⟨(List.nodup_append.mp hnodup).1, ⟨_, hsplit.symm⟩, ?_, fun i newly hp => ?_⟩
  · -- the recorded files are `done`, and no file of `rest`
    have hdone : (done.filter fun f => decide (f.stem ∈ s.database.versions)) = done := by
      refine List.filter_eq_self.mpr fun f hf => ?_
      rw [hversions]
      simpa using ⟨f, hf, rfl⟩
    have hrest : (rest.filter fun f => decide (f.stem ∈ s.database.versions)) = [] := by
      refine List.filter_eq_nil_iff.mpr fun f hf hmem => ?_
      exact hapart _ (of_decide_eq_true hmem) _ (List.mem_map_of_mem hf) rfl
    rw [heffects, hfiles, List.filter_append, hdone, hrest, List.append_nil]
  · have hi := h.sound i
    unfold Runner.Sound at hi
    rw [hp] at hi
    obtain ⟨-, hown, ended, hended, hall⟩ := hi
    rw [List.append_nil] at hended
    have hrest : rest = [] := by
      refine List.eq_nil_iff_forall_not_mem.mpr fun f hf => ?_
      have hf' : f ∈ ended := by
        rw [← hended, hfiles]
        exact List.mem_append_right _ hf
      exact hapart _ (hall f hf') _ (List.mem_map_of_mem hf) rfl
    exact ⟨by rw [hsplit, hrest, List.map_nil, List.append_nil], hown.symm⟩

/-- **Every migration takes effect once.** However many runs interleave, and wherever
    they crash, the database holds the first files of the directory, each whole and
    once; and a run that returns has seen to it that it holds them all. -/
theorem migrations_exactly_once [DecidableEq ι] (dir : MigrationsDir Stmt)
    {s : Migrations.State ι Stmt}
    (h : Runs.Reachable (Migrations.system ι dir.migrationFiles) s) :
    Migrations.ExactlyOnce dir.migrationFiles s := by
  have hinv : Migrations.Inv dir.migrationFiles s := by
    refine h.invariant ?_ fun s i s' hs hstep => hs.step dir.distinct_stems hstep
    intro s₀ h₀
    have h₀ : s₀ = .empty := h₀
    rw [h₀]
    exact .empty dir.migrationFiles
  exact hinv.exactlyOnce dir.distinct_stems

namespace Demo

/-- One file of one statement. -/
def migrationsDir : MigrationsDir Unit := ⟨[⟨str "0001_initial", [()]⟩], by decide⟩

/-- Two runners read that nothing is applied; the first inserts the version, the second
    has run the script by then and fails once the first has committed; the first
    returns. -/
theorem twoRunners_reachable : ∃ s,
    Runs.Reachable (Migrations.system Bool migrationsDir.migrationFiles) s ∧
      (s.runners true).position = .returned [str "0001_initial"] ∧
      (s.runners false).position = .failed := by
  have h : Runs.Reachable (Migrations.system Bool migrationsDir.migrationFiles) .empty :=
    ⟨.empty, [], rfl, .nil _⟩
  have h := h.step (.ensure (i := true) rfl (.inr fun _ => rfl))
  have h := h.step (.select (i := true) rfl rfl)
  have h := h.step (.endRead (i := true) rfl)
  have h := h.step (.ensure (i := false) rfl (.inl rfl))
  have h := h.step (.select (i := false) rfl rfl)
  have h := h.step (.endRead (i := false) rfl)
  have h := h.step (.read (i := true) rfl (by decide))
  have h := h.step (.read (i := false) rfl (by decide))
  have h := h.step (.execute (i := true) rfl)
  have h := h.step (.execute (i := false) rfl)
  have h := h.step (.insert (i := true) rfl rfl (by decide) (by decide))
  have h := h.step (.endFile (i := true) rfl)
  have h := h.step (.fail (i := false) fun _ hreturned => nomatch hreturned)
  have h := h.step (.append (i := true) rfl)
  have h := h.step (.finish (i := true) rfl)
  exact ⟨_, h, rfl, rfl⟩

theorem migrations_exactly_once_two : ∃ s : Migrations.State Bool Unit,
    Migrations.ExactlyOnce migrationsDir.migrationFiles s ∧
      (s.runners true).position = .returned [str "0001_initial"] := by
  obtain ⟨s, h, hreturned, -⟩ := twoRunners_reachable
  exact ⟨s, migrations_exactly_once migrationsDir h, hreturned⟩

end Demo

end IncidentEvidence
