import CilLoader.Table.Row

/-!
# Tables

A table is a run of rows of one kind, all of the same size. A row can be asked for by its number,
or the rows can be walked through in order. A row whose bytes are missing or damaged is absent; a
walk ends there, since what the damaged row has consumed is not what its size says.
-/

namespace CilLoader

/-- The rows of one kind that start at a position of the data. -/
structure Table (ρ : Type) where
  data : Bytes
  start : Nat
  rowCount : Nat
  layout : Layout
deriving DecidableEq, Repr

namespace Table

variable {ρ : Type} [Row ρ]

def rowSize (table : Table ρ) : Nat :=
  table.layout.rowSize (Row.table ρ)

def size (table : Table ρ) : Nat :=
  table.rowCount * table.rowSize

/-- The row with the given number, counted from one. -/
def get? (table : Table ρ) (rid : Nat) : Option ρ :=
  if rid = 0 ∨ table.rowCount < rid then none
  else
    match Row.decoder ρ table.layout rid table.data (table.start + (rid - 1) * table.rowSize) with
    | (.ok row, _) => some row
    | (.error _, _) => none

theorem rid_of_get? {table : Table ρ} {rid : Nat} {row : ρ} (found : table.get? rid = some row) :
    1 ≤ rid ∧ rid ≤ table.rowCount := by
  rw [get?] at found
  split at found
  · cases found
  · omega

/-- A place in a walk through the rows: how many have been passed, and where the next is read. -/
structure Iterator (ρ : Type) where
  table : Table ρ
  passed : Nat
  position : Nat
deriving DecidableEq, Repr

def iterator (table : Table ρ) : Iterator ρ :=
  ⟨table, 0, table.start⟩

/-- The next row of a walk. A damaged row is not passed, but its bytes are consumed as far as they
were read. -/
def Iterator.next (iterator : Iterator ρ) : Option ρ × Iterator ρ :=
  if iterator.table.rowCount ≤ iterator.passed then (none, iterator)
  else
    match Row.decoder ρ iterator.table.layout (iterator.passed + 1) iterator.table.data
        iterator.position with
    | (.ok row, position) => (some row, { iterator with passed := iterator.passed + 1, position })
    | (.error _, position) => (none, { iterator with position })

def Iterator.collect : (count : Nat) → Iterator ρ → List ρ → List ρ
  | 0, _, reversed => reversed
  | count + 1, iterator, reversed =>
    match iterator.next with
    | (some row, iterator) => collect count iterator (row :: reversed)
    | (none, _) => reversed

/-- The rows of a walk until it ends for the first time. -/
def rows (table : Table ρ) : List ρ :=
  (table.iterator.collect table.rowCount []).reverse

end Table

end CilLoader
