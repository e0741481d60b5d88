import CilLoader.Proofs.Strict.Root
import CilLoader.Proofs.Strict.Rows
import CilLoader.Stream.Tables

/-!
# Strict reading of tables

The stream of tables and its rows, read with strict slices, sums and products. The strict reader
does not fault as long as row counts are words of 32 bits, which those that are read from data are.
The tables it finds lie inside the stream. Since every row has at least two bytes, a stream whose
size is a word of 32 bits has no table whose row count takes more than 31 bits.
-/

namespace CilLoader

/-! ## Sizes -/

namespace RowCounts

def AreWords (rows : RowCounts) : Prop :=
  ∀ slot, rows.atSlot slot < UInt32.size

theorem areWords_of_forall {counts : Array Nat} (each : ∀ count ∈ counts, count < UInt32.size) :
    AreWords ⟨counts⟩ := by
  intro slot
  rw [atSlot, Array.getD_eq_getD_getElem?]
  cases found : counts[slot]? with
  | none => decide
  | some count => exact each count (Array.mem_of_getElem? found)

theorem areWords_none : none.AreWords :=
  areWords_of_forall fun _ member => absurd member (Array.not_mem_empty _)

theorem areWords_ofFn {count : Nat → Nat} (each : ∀ slot, count slot < UInt32.size) :
    (ofFn count).AreWords := by
  refine areWords_of_forall fun value member => ?_
  obtain ⟨slot, _, rfl⟩ := List.mem_map.mp (List.mem_toArray.mp member)
  exact each slot

/-- Counts that are taken from two places, depending on a mask. -/
theorem areWords_merge (mask : Nat) {stored : RowCounts} {external : Option RowCounts}
    (storedWords : stored.AreWords) (words : ∀ rows, external = some rows → rows.AreWords) :
    (ofFn fun slot =>
      if mask.testBit slot then stored.atSlot slot
      else (external.getD none).atSlot slot).AreWords := by
  refine areWords_ofFn fun slot => ?_
  split
  · exact storedWords slot
  · cases external with
    | none => exact areWords_none slot
    | some rows => exact words rows rfl slot

theorem areWords_returned (mask : Nat) : (decoder mask).Returns AreWords := by
  have each (slot : Nat) :
      (if mask.testBit slot then Decoder.number 4 else Decoder.succeed 0).Returns
        (· < UInt32.size) := by
    split
    · exact .number 4
    · exact .succeed (by decide)
  refine .bind (.mapM each) fun counts words => ?_
  exact .succeed (areWords_of_forall fun count member => words count (List.mem_toArray.mp member))

end RowCounts

theorem PdbStream.areWords_returned : decoder.Returns fun pdb => pdb.rows.AreWords :=
  .next fun _ => .next fun _ => .next fun mask =>
    .bind (RowCounts.areWords_returned mask) fun _ words => .succeed words

namespace Layout

variable {layout : Layout}

theorem width_eq_or (isLarge : Bool) : width isLarge = 2 ∨ width isLarge = 4 := by
  cases isLarge
  · exact .inl rfl
  · exact .inr rfl

theorem columnWidth_eq_or (layout : Layout) (column : Column) :
    column.width layout = 2 ∨ column.width layout = 4 := by
  cases column with
  | number storage =>
      cases storage with
      | word => exact .inl rfl
      | long => exact .inr rfl
      | string | guid | blob | row => exact width_eq_or _
  | coded kind => exact width_eq_or _

theorem total_widths_le (layout : Layout) (columns : List Column) :
    Bytes.total (columns.map (·.width layout)) ≤ 4 * columns.length := by
  induction columns with
  | nil => exact Nat.le_refl 0
  | cons column columns induction =>
      have width := columnWidth_eq_or layout column
      simp only [List.map_cons, Bytes.total, List.length_cons]
      omega

theorem rowSize_le (layout : Layout) (table : TableId) : layout.rowSize table ≤ 36 := by
  have columns : table.columns.length ≤ 9 := by cases table <;> decide
  have total := total_widths_le layout table.columns
  rw [rowSize]
  omega

theorem two_le_rowSize (layout : Layout) (table : TableId) : 2 ≤ layout.rowSize table := by
  rw [rowSize]
  cases columns : table.columns with
  | nil => exact absurd columns table.columns_ne_nil
  | cons column rest =>
      have width := columnWidth_eq_or layout column
      simp only [List.map_cons, Bytes.total]
      omega

theorem rowBits_le (words : layout.rows.AreWords) (table : TableId) :
    layout.rowBits table ≤ 32 := by
  rw [rowBits, bitLength]
  split
  · decide
  · rename_i nonzero
    exact (Nat.log2_lt nonzero).mpr (words table.number)

theorem codedBits_le (words : layout.rows.AreWords) (kind : CodedKind) :
    layout.codedBits kind ≤ 37 := by
  have most : ∀ (tables : List TableId) (bits : Nat), bits ≤ 32 →
      tables.foldl (fun bits table => max bits (layout.rowBits table)) bits ≤ 32 := by
    intro tables
    induction tables with
    | nil => exact fun _ bound => bound
    | cons table tables induction =>
        exact fun bits bound => induction _ (Nat.max_le.mpr ⟨bound, rowBits_le words table⟩)
  exact Nat.add_le_add (most kind.tables 0 (by decide)) kind.tagBits_le

end Layout

/-! ## The stream -/

namespace TablesStream

/-- The tables of a stream lie inside it, and all sizes are words of 32 bits. -/
structure Inside (stream : TablesStream) : Prop where
  size : stream.data.size < UInt32.size
  counts : stream.layout.rows.AreWords
  tables : ∀ table, stream.isPresent table = true →
    stream.tableStart table + stream.rowCount table * stream.layout.rowSize table ≤
      stream.data.size

theorem tableStart_add_le (stream : TablesStream) (table : TableId) :
    stream.tableStart table + stream.tableSize table ≤ stream.rowsEnd := by
  have before : ∀ tables : List TableId, table ∈ tables →
      Bytes.total ((tables.takeWhile (· != table)).map stream.tableSize) +
        stream.tableSize table ≤ Bytes.total (tables.map stream.tableSize) := by
    intro tables member
    induction tables with
    | nil => cases member
    | cons first tables induction =>
        by_cases same : first = table
        · subst same
          simp only [List.takeWhile_cons, bne_self_eq_false, Bool.false_eq_true, if_false,
            List.map_nil, List.map_cons, Bytes.total]
          omega
        · have rest := induction ((List.mem_cons.mp member).resolve_left (Ne.symm same))
          simp only [List.takeWhile_cons, bne_iff_ne.mpr same, if_true, List.map_cons, Bytes.total]
          omega
  have bound := before TableId.all table.mem_all
  rw [tableStart, rowsEnd]
  omega

variable {stream : TablesStream}

/-- Every row takes two bytes, so the row counts leave room for one more row, and then some. -/
theorem Inside.rowCount_lt (inside : stream.Inside) (table : TableId) :
    stream.rowCount table < 0x80000000 := by
  by_cases present : stream.isPresent table = true
  · have bound := inside.tables table present
    have rows := Nat.mul_le_mul_left (stream.rowCount table) (stream.layout.two_le_rowSize table)
    have size : stream.data.size < 0x100000000 := inside.size
    omega
  · rw [rowCount, if_neg present]
    decide

/-- What is read, when reading succeeds. -/
theorem parts_of_read {data : Bytes} {external : Option RowCounts}
    (found : read data external = .ok stream) :
    stream.data = data ∧ stream.rowsEnd ≤ stream.data.size ∧
      ∃ stored stop, RowCounts.decoder stream.present data headerSize = (.ok stored, stop) ∧
        stream.layout.rows = RowCounts.ofFn fun slot =>
          if stream.present.testBit slot then stored.atSlot slot
          else (external.getD RowCounts.none).atSlot slot := by
  rw [read] at found
  split at found
  · cases found
  dsimp only at found
  split at found
  · cases found
  rename_i stored stop counted
  split at found
  · cases found
  split at found
  · cases found
  rename_i ends
  cases found
  exact ⟨rfl, Nat.not_lt.mp ends, stored, stop, counted, rfl⟩

theorem inside_of_read {data : Bytes} {external : Option RowCounts}
    (size : data.size < UInt32.size) (words : ∀ rows, external = some rows → rows.AreWords)
    (found : read data external = .ok stream) : stream.Inside := by
  obtain ⟨sameData, ends, stored, _, counted, rows⟩ := parts_of_read found
  exact {
    size := sameData ▸ size
    counts := rows ▸ RowCounts.areWords_merge _ (RowCounts.areWords_returned _ counted) words
    tables := fun table _ => Nat.le_trans (stream.tableStart_add_le table) ends }

end TablesStream

namespace Strict

/-- The width of a column. The bits of a coded index are counted in a byte. -/
def columnWidth (layout : Layout) : Column → Strict Nat
  | .number storage => return storage.width layout
  | .coded kind => return Layout.width (16 < (← fit UInt8.size (layout.codedBits kind)))

/-- The size of a row, which is counted in a byte. -/
def rowSize (layout : Layout) (table : TableId) : Strict Nat := do
  fit UInt8.size (Bytes.total (← table.columns.mapM (columnWidth layout)))

/-- Finds the place of one table after the other. Fails if one of them exceeds the stream. -/
def place (stream : TablesStream) : List TableId → (offset : Nat) → Attempt Unit
  | [], _ => return ()
  | table :: tables, offset =>
    if stream.isPresent table then do
      let rowSize ← rowSize stream.layout table
      let size ← fit UInt64.size (stream.rowCount table * rowSize)
      if stream.data.size < offset + size then throw .outOfBounds
      else place stream tables (offset + size)
    else place stream tables offset

def tables (data : Bytes) (external : Option RowCounts) : Attempt TablesStream :=
  if data.size < TablesStream.headerSize then throw .outOfBounds
  else do
    let present ← number (← tail data 8) 0 8
    match ← (Decoder.Guarded.rowCounts present).strictly data TablesStream.headerSize with
    | (.error error, _) => throw error
    | (.ok stored, rowsStart) =>
      let rows := RowCounts.ofFn fun slot =>
        if present.testBit slot then stored.atSlot slot
        else (external.getD RowCounts.none).atSlot slot
      let unknown := present &&& (UInt64.size - 1 - TableId.knownMask)
      if unknown ≠ 0 then throw (.malformed (.unknownTables unknown))
      else do
        let heapSizes ← number (← tail data 6) 0 1
        let major ← number data 4 1
        let minor ← number data 5 1
        let sorted ← number (← tail data 16) 0 8
        let layout := ⟨heapSizes, rows⟩
        let stream := { data, major, minor, present, sorted, layout, rowsStart }
        let _ ← place stream TableId.all rowsStart
        return stream

/-- The rows of a table, from the first of them to the end of the stream. -/
def table? (stream : TablesStream) (ρ : Type) [Row ρ] : Strict (Option (Table ρ)) :=
  if stream.isPresent (Row.table ρ) then do
    let rows ← tail stream.data (stream.tableStart (Row.table ρ))
    return some ⟨rows, 0, stream.rowCount (Row.table ρ), stream.layout⟩
  else return none

/-- The row with the given number in data that start with the rows. -/
def row? {ρ : Type} [Row ρ] (table : Table ρ) (rid : Nat) : Strict (Option ρ) :=
  if rid = 0 ∨ table.rowCount < rid then return none
  else do
    let position ← fit UInt64.size ((← minus rid 1) * (← rowSize table.layout (Row.table ρ)))
    let (outcome, _) ← (Decoder.Guarded.row ρ table.layout rid).strictly table.data position
    return outcome.toOption

section Sizes

variable {layout : Layout}

theorem columnWidth_eq (words : layout.rows.AreWords) (column : Column) :
    columnWidth layout column = .ok (column.width layout) := by
  cases column with
  | number storage => rfl
  | coded kind =>
      have bits := Layout.codedBits_le words kind
      rw [columnWidth, fit_of_lt (Nat.lt_of_le_of_lt bits (by decide))]
      rfl

theorem rowSize_eq (words : layout.rows.AreWords) (table : TableId) :
    rowSize layout table = .ok (layout.rowSize table) := by
  have size := layout.rowSize_le table
  rw [rowSize, mapM_eq_ok fun column _ => columnWidth_eq words column]
  exact fit_of_lt (Nat.lt_of_le_of_lt size (by decide))

theorem fit_rows {count : Nat} (word : count < UInt32.size) (table : TableId) :
    fit UInt64.size (count * layout.rowSize table) = .ok (count * layout.rowSize table) := by
  have product := Nat.mul_le_mul (Nat.le_of_lt word) (layout.rowSize_le table)
  exact fit_of_lt (Nat.lt_of_le_of_lt product (by decide))

end Sizes

section Stream

variable {stream : TablesStream} {ρ : Type} [Row ρ]

/-- The tables are found, one behind the other, exactly if they end inside the stream. -/
theorem place_yields (words : stream.layout.rows.AreWords) (tables : List TableId) {offset : Nat}
    (inside : offset ≤ stream.data.size) :
    (place stream tables offset).Yields
      (if stream.data.size < offset + Bytes.total (tables.map stream.tableSize) then
        .error .outOfBounds
      else .ok ()) := by
  induction tables generalizing offset with
  | nil =>
      rw [List.map_nil, Bytes.total, Nat.add_zero, if_neg (Nat.not_lt.mpr inside)]
      exact .pure ()
  | cons table tables induction =>
      rw [place, List.map_cons, Bytes.total, ← Nat.add_assoc]
      split
      · rename_i present
        have count : stream.rowCount table = stream.layout.rows.of table := if_pos present
        refine .step (rowSize_eq words table)
          (.step (fit_rows (count ▸ words table.number) table) ?_)
        rw [← TablesStream.tableSize]
        split
        · rw [if_pos (by omega)]
          exact .throw _
        · exact induction (by omega)
      · rename_i absent
        have size : stream.tableSize table = 0 := by
          rw [TablesStream.tableSize, TablesStream.rowCount, if_neg absent, Nat.zero_mul]
        rw [size, Nat.add_zero]
        exact induction inside

theorem place_all_yields (words : stream.layout.rows.AreWords)
    (inside : stream.rowsStart ≤ stream.data.size) :
    (do let _ ← place stream TableId.all stream.rowsStart; return stream : Attempt _).Yields
      (if stream.data.size < stream.rowsEnd then .error .outOfBounds else .ok stream) := by
  have placed := place_yields words TableId.all inside
  rw [TablesStream.rowsEnd]
  split at placed
  · rename_i beyond
    rw [if_pos beyond]
    exact placed.bind fun _ _ => .pure stream
  · rename_i within
    rw [if_neg within]
    exact placed.bind fun _ _ => .pure stream

theorem tables_yields (data : Bytes) {external : Option RowCounts}
    (words : ∀ rows, external = some rows → rows.AreWords) :
    (tables data external).Yields (TablesStream.read data external) := by
  rw [tables, TablesStream.read]
  dsimp only
  split
  · exact .throw _
  rename_i header
  have header : TablesStream.headerSize ≤ data.size := Nat.not_lt.mp header
  have sizes : 24 ≤ data.size := header
  refine .step (tail_of_le (by omega)) (.andThen (number_tail_yields (by omega)) ?_)
  refine .step (Decoder.Guarded.strictly_eq _ data _) ?_
  have starts := (Decoder.Guarded.rowCounts (data.number 8 8)).stop_le header
  cases counted : RowCounts.decoder (data.number 8 8) data TablesStream.headerSize with
  | mk outcome rowsStart =>
      rw [counted] at starts
      cases outcome with
      | error error => exact .throw error
      | ok stored =>
          dsimp only
          split
          · exact .throw _
          refine .step (tail_of_le (by omega)) (.andThen (number_tail_yields (by omega)) ?_)
          refine .andThen (number_yields (by omega)) (.andThen (number_yields (by omega)) ?_)
          refine .step (tail_of_le (by omega)) (.andThen (number_tail_yields (by omega)) ?_)
          have merged := RowCounts.areWords_merge (data.number 8 8)
            (RowCounts.areWords_returned _ counted) words
          exact place_all_yields merged starts

end Stream

end Strict

/-! ## Rows -/

namespace Table

variable {ρ : Type} [Row ρ] {table : Table ρ}

/-- The table starts inside the data, and there is room for the numbers of its rows. -/
structure Inside (table : Table ρ) : Prop where
  start : table.start ≤ table.data.size
  counts : table.layout.rows.AreWords
  rowCount : table.rowCount < 0x80000000

/-- The same table in the data from its first row on. -/
def rest (table : Table ρ) : Table ρ :=
  { table with data := table.data.slice table.start table.data.size, start := 0 }

theorem get?_rest (inside : table.Inside) (rid : Nat) : table.rest.get? rid = table.get? rid := by
  have same := (Decoder.Guarded.row ρ table.layout rid).apply_add inside.start
    ((rid - 1) * table.rowSize)
  rw [get?, get?, same]
  simp only [rest, rowSize, Nat.zero_add]
  split
  · rfl
  · rcases Row.decoder ρ table.layout rid (table.data.slice table.start table.data.size)
      ((rid - 1) * table.layout.rowSize (Row.table ρ)) with ⟨_ | row, _⟩ <;> rfl

end Table

theorem TablesStream.Inside.table {stream : TablesStream} (inside : stream.Inside) {ρ : Type}
    [Row ρ] {table : Table ρ} (found : stream.table? ρ = some table) : table.Inside := by
  rw [TablesStream.table?] at found
  split at found
  · rename_i present
    cases found
    have bound := inside.tables (Row.table ρ) present
    exact {
      start := Nat.le_trans (Nat.le_add_right _ _) bound
      counts := inside.counts
      rowCount := inside.rowCount_lt (Row.table ρ) }
  · cases found

namespace Strict

variable {ρ : Type} [Row ρ]

theorem table?_eq {stream : TablesStream} (inside : stream.Inside) :
    table? stream ρ = .ok ((stream.table? ρ).map Table.rest) := by
  rw [table?]
  cases found : stream.table? ρ with
  | none =>
      rw [TablesStream.table?] at found
      split at found
      · cases found
      · rename_i absent
        rw [if_neg absent]
        rfl
  | some table =>
      have start := (inside.table found).start
      rw [TablesStream.table?] at found
      split at found
      · rename_i present
        cases found
        rw [if_pos present, tail_of_le start]
        rfl
      · cases found

theorem row?_eq (table : Table ρ) (words : table.layout.rows.AreWords)
    (rowCount : table.rowCount < UInt32.size) (start : table.start = 0) (rid : Nat) :
    row? table rid = .ok (table.get? rid) := by
  rw [row?, Table.get?, start, Nat.zero_add]
  split
  · rfl
  · have before : rid - 1 < UInt32.size := by omega
    rw [bind_of_ok (minus_of_le (by omega)), bind_of_ok (rowSize_eq words _),
      bind_of_ok (fit_rows before _), bind_of_ok (Decoder.Guarded.strictly_eq _ _ _), Table.rowSize]
    rcases Row.decoder ρ table.layout rid table.data
      ((rid - 1) * table.layout.rowSize (Row.table ρ)) with ⟨_ | row, _⟩ <;> rfl

theorem row?_rest {table : Table ρ} (inside : table.Inside) (rid : Nat) :
    row? table.rest rid = .ok (table.get? rid) := by
  have word : table.rest.rowCount < UInt32.size := Nat.lt_trans inside.rowCount (by decide)
  rw [row?_eq table.rest inside.counts word rfl, Table.get?_rest inside]

end Strict

end CilLoader
