import Mathlib

/-! # Tables with unique indexes

    A table is a list of rows, in the order of their insertion. A unique index is
    given by the pairs of rows it does not allow together, so a partial index and
    one on several columns look alike. `insert` is `INSERT`, which a violation
    makes fail; `insertOrNothing` is `INSERT ... ON CONFLICT (arbiter) DO NOTHING`,
    where a conflict on the arbiter index inserts nothing and any other violation
    fails. Both keep the indexes satisfied.
-/

namespace Sql

variable {Row : Type}

/-- A unique index: which two rows it does not allow together. -/
abbrev Index (Row : Type) := Row → Row → Bool

/-- `UNIQUE (columns)`, the columns being `NOT NULL`. -/
def uniqueOn {K : Type} [DecidableEq K] (columns : Row → K) : Index Row := fun a b => columns a = columns b

/-- A partial unique index; rows without a key are not in it. -/
def uniqueWhere {K : Type} [DecidableEq K] (key : Row → Option K) : Index Row := fun a b => (key a).isSome && key a = key b

/-- No two rows clash on one of the indexes. -/
def Satisfies (indexes : List (Index Row)) (rows : List Row) : Prop :=
  ∀ ix ∈ indexes, rows.Pairwise fun a b => ix a b = false

/-- A new row would clash with one of the table. -/
def violates (indexes : List (Index Row)) (rows : List Row) (row : Row) : Bool :=
  indexes.any fun ix => rows.any fun old => ix old row

/-- `INSERT`; `none` is a unique violation. -/
def insert (indexes : List (Index Row)) (rows : List Row) (row : Row) : Option (List Row) :=
  if violates indexes rows row then none else some (rows ++ [row])

/-- `INSERT ... ON CONFLICT (arbiter) DO NOTHING RETURNING`: the row when it was
    inserted, and the table. -/
def insertOrNothing (arbiter : Index Row) (indexes : List (Index Row)) (rows : List Row)
    (row : Row) : Option (Option Row × List Row) :=
  if rows.any (fun old => arbiter old row) then some (none, rows)
  else (insert indexes rows row).map fun rows' => (some row, rows')

theorem violates_iff {indexes : List (Index Row)} {rows : List Row} {row : Row} :
    violates indexes rows row = true ↔ ∃ ix ∈ indexes, ∃ old ∈ rows, ix old row = true := by
  simp [violates]

theorem violates_eq_false {indexes : List (Index Row)} {rows : List Row} {row : Row} :
    violates indexes rows row = false ↔ ∀ ix ∈ indexes, ∀ old ∈ rows, ix old row = false := by
  simp [violates]

@[simp] theorem uniqueOn_iff {K : Type} [DecidableEq K] {columns : Row → K} {a b : Row} :
    uniqueOn columns a b = true ↔ columns a = columns b := by
  simp [uniqueOn]

theorem uniqueWhere_iff {K : Type} [DecidableEq K] {key : Row → Option K} {a b : Row} :
    uniqueWhere key a b = true ↔ ∃ k, key a = some k ∧ key b = some k := by
  unfold uniqueWhere
  cases h : key a with
  | none => simp
  | some k => simp [eq_comm]

/-- **An accepted row keeps every index satisfied.** -/
theorem satisfies_append {indexes : List (Index Row)} {rows : List Row} {row : Row}
    (h : Satisfies indexes rows) (hrow : violates indexes rows row = false) :
    Satisfies indexes (rows ++ [row]) := by
  intro ix hix
  rw [List.pairwise_append]
  refine ⟨h ix hix, List.pairwise_singleton _ _, ?_⟩
  intro old hold new hnew
  rw [List.mem_singleton.mp hnew]
  by_contra hclash
  have hviolates : violates indexes rows row = true :=
    violates_iff.mpr ⟨ix, hix, old, hold, by simpa using hclash⟩
  rw [hrow] at hviolates
  exact absurd hviolates Bool.false_ne_true

theorem insert_of_violates {indexes : List (Index Row)} {rows : List Row} {row : Row}
    (h : violates indexes rows row = true) : insert indexes rows row = none :=
  if_pos h

theorem insert_of_free {indexes : List (Index Row)} {rows : List Row} {row : Row}
    (h : violates indexes rows row = false) : insert indexes rows row = some (rows ++ [row]) :=
  if_neg (by simp [h])

theorem insertOrNothing_of_conflict {arbiter : Index Row} (indexes : List (Index Row))
    {rows : List Row} {row : Row} (h : rows.any (fun old => arbiter old row) = true) :
    insertOrNothing arbiter indexes rows row = some (none, rows) :=
  if_pos h

theorem insertOrNothing_of_free {arbiter : Index Row} (indexes : List (Index Row))
    {rows : List Row} {row : Row} (h : rows.any (fun old => arbiter old row) = false) :
    insertOrNothing arbiter indexes rows row =
      (insert indexes rows row).map fun rows' => (some row, rows') :=
  if_neg (by simp [h])

theorem insert_eq_some {indexes : List (Index Row)} {rows rows' : List Row} {row : Row} :
    insert indexes rows row = some rows' ↔
      violates indexes rows row = false ∧ rows' = rows ++ [row] := by
  unfold insert
  by_cases h : violates indexes rows row = true
  · simp [h]
  · simp [h, eq_comm]

end Sql
