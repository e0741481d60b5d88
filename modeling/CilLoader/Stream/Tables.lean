import CilLoader.Table

/-!
# The stream of tables

The tables that are present are flagged in a mask. Their row counts follow the header in order of
table number, and the rows of all tables follow the counts without gaps. An image of debug symbols
also knows the row counts of tables that are elsewhere; they matter for the widths of columns only.
-/

namespace CilLoader

structure TablesStream where
  data : Bytes
  major : Nat
  minor : Nat
  /-- The mask of the tables that are present. -/
  present : Nat
  /-- The mask of the tables that are sorted. -/
  sorted : Nat
  layout : Layout
  rowsStart : Nat
deriving DecidableEq, Repr

namespace TablesStream

def headerSize : Nat := 24

def isPresent (stream : TablesStream) (table : TableId) : Bool :=
  stream.present.testBit table.number

/-- How many rows a table has in this stream. -/
def rowCount (stream : TablesStream) (table : TableId) : Nat :=
  if stream.isPresent table then stream.layout.rows.of table else 0

def tableSize (stream : TablesStream) (table : TableId) : Nat :=
  stream.rowCount table * stream.layout.rowSize table

/-- Where the rows of a table start: behind those of all tables with smaller numbers. -/
def tableStart (stream : TablesStream) (table : TableId) : Nat :=
  stream.rowsStart +
    Bytes.total ((TableId.all.takeWhile (· != table)).map stream.tableSize)

def rowsEnd (stream : TablesStream) : Nat :=
  stream.rowsStart + Bytes.total (TableId.all.map stream.tableSize)

def table? (stream : TablesStream) (ρ : Type) [Row ρ] : Option (Table ρ) :=
  if stream.isPresent (Row.table ρ) then
    some ⟨stream.data, stream.tableStart (Row.table ρ), stream.rowCount (Row.table ρ),
      stream.layout⟩
  else none

/-- Reads the stream. `external` gives the row counts of tables that are elsewhere. -/
def read (data : Bytes) (external : Option RowCounts) : Except Error TablesStream :=
  if data.size < headerSize then .error .outOfBounds
  else
    let present := data.number 8 8
    match RowCounts.decoder present data headerSize with
    | (.error error, _) => .error error
    | (.ok stored, rowsStart) =>
      let rows := RowCounts.ofFn fun slot =>
        if present.testBit slot then stored.atSlot slot
        else (external.getD RowCounts.none).atSlot slot
      let unknown := present &&& (UInt64.size - 1 - TableId.knownMask)
      let stream : TablesStream := {
        data
        major := data.number 4 1
        minor := data.number 5 1
        present
        sorted := data.number 16 8
        layout := ⟨data.number 6 1, rows⟩
        rowsStart }
      if unknown ≠ 0 then .error (.malformed (.unknownTables unknown))
      else if data.size < stream.rowsEnd then .error .outOfBounds
      else .ok stream

end TablesStream

end CilLoader
