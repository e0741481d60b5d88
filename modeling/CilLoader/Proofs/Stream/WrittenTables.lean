import Mathlib.Data.Nat.Bitwise
import CilLoader.Stream.Tables
import CilLoader.Proofs.Table.Entries

/-!
# Written tables

How the stream of tables is written: a header, the row counts of the tables that are present, and
their rows, both in order of table number. Reading it gives back every table.
-/

namespace CilLoader

/-- What is written into a table: rows, or bytes that are taken for some number of rows. -/
inductive TableContents (table : TableId) where
  | rows (written : List (Entries table.columns))
  | raw (count : Nat) (bytes : List UInt8)

namespace TableContents

variable {table : TableId}

def count : TableContents table → Nat
  | rows written => written.length
  | raw count _ => count

def encode (layout : Layout) : TableContents table → List UInt8
  | rows written => written.flatMap (·.encode layout)
  | raw _ bytes => bytes

/-- All entries fit their columns, and bytes are as many as the rows take. -/
def Fits (layout : Layout) : TableContents table → Prop
  | rows written => ∀ entries ∈ written, entries.Fit layout
  | raw count bytes => bytes.length = count * layout.rowSize table

instance (layout : Layout) : (contents : TableContents table) → Decidable (contents.Fits layout)
  | rows written => inferInstanceAs (Decidable (∀ entries ∈ written, entries.Fit layout))
  | raw count bytes => inferInstanceAs (Decidable (bytes.length = count * layout.rowSize table))

theorem length_encode {layout : Layout} {contents : TableContents table}
    (fits : contents.Fits layout) :
    (contents.encode layout).length = contents.count * layout.rowSize table := by
  cases contents with
  | rows written =>
      rw [encode, count]
      induction written with
      | nil => simp
      | cons entries written induction =>
          have fitsRest : (rows written).Fits layout := fun other member =>
            fits other (List.mem_cons_of_mem entries member)
          rw [List.flatMap_cons, List.length_append, induction fitsRest, entries.length_encode,
            List.length_cons, Nat.succ_mul, Nat.add_comm, Layout.rowSize]
  | raw count bytes => exact fits

end TableContents

structure TablesContents where
  major : UInt8
  minor : UInt8
  heapSizes : UInt8
  sorted : UInt64
  /-- Two unused fields of the header. -/
  reserved : UInt32 × UInt8
  tables : (table : TableId) → Option (TableContents table)

namespace TablesContents

variable (contents : TablesContents)

def count? (table : TableId) : Option Nat :=
  (contents.tables table).map (·.count)

def countAt? (slot : Nat) : Option Nat :=
  (TableId.ofNumber? slot).bind contents.count?

/-- The tables that are not present may have rows elsewhere. -/
def layout (external : Option RowCounts) : Layout where
  heapSizes := contents.heapSizes.toNat
  rows := .ofFn fun slot => (contents.countAt? slot).getD ((external.getD .none).atSlot slot)

def present : Nat :=
  Nat.ofBits fun slot : Fin TableId.slots => (contents.countAt? slot).isSome

def header : List UInt8 :=
  Bytes.ofNumber 4 contents.reserved.1.toNat ++ Bytes.ofNumber 1 contents.major.toNat ++
    Bytes.ofNumber 1 contents.minor.toNat ++ Bytes.ofNumber 1 contents.heapSizes.toNat ++
    Bytes.ofNumber 1 contents.reserved.2.toNat ++ Bytes.ofNumber 8 contents.present ++
    Bytes.ofNumber 8 contents.sorted.toNat

def encodeCount (table : TableId) : List UInt8 :=
  match contents.count? table with
  | some count => Bytes.ofNumber 4 count
  | none => []

def encodeTable (layout : Layout) (table : TableId) : List UInt8 :=
  match contents.tables table with
  | some table => table.encode layout
  | none => []

def encode (external : Option RowCounts) (trailing : List UInt8) : Bytes :=
  (contents.header ++ TableId.all.flatMap contents.encodeCount ++
    TableId.all.flatMap (contents.encodeTable (contents.layout external)) ++ trailing).toArray

/-- Row counts fit four bytes, and what is in the tables fits the layout that these counts make. -/
structure Fits (external : Option RowCounts) : Prop where
  counts : ∀ table count, contents.count? table = some count → count < UInt32.size
  tables : ∀ table tableContents, contents.tables table = some tableContents →
    tableContents.Fits (contents.layout external)

variable {contents : TablesContents} {external : Option RowCounts}

/-! ## The mask -/

theorem testBit_present {slot : Nat} (bound : slot < TableId.slots) :
    contents.present.testBit slot = (contents.countAt? slot).isSome :=
  Nat.testBit_ofBits_lt _ slot bound

theorem countAt?_number (table : TableId) :
    contents.countAt? table.number = contents.count? table := by
  rw [countAt?, TableId.ofNumber?_number]
  rfl

theorem testBit_present_number (table : TableId) :
    contents.present.testBit table.number = (contents.tables table).isSome := by
  rw [testBit_present table.number_lt_slots, countAt?_number, count?, Option.isSome_map]

/-- No bits are set but those of the tables. -/
theorem present_known :
    contents.present &&& (UInt64.size - 1 - TableId.knownMask) = 0 := by
  apply Nat.eq_of_testBit_eq
  intro slot
  rw [Nat.testBit_and, Nat.zero_testBit]
  by_cases bound : slot < TableId.slots
  · rw [testBit_present bound, countAt?]
    cases named : TableId.ofNumber? slot with
    | none => rfl
    | some table =>
        have sameNumber : table.number = slot := by
          have found := List.find?_some named
          simpa using found
        have known : (UInt64.size - 1 - TableId.knownMask).testBit table.number = false := by
          cases table <;> decide
        rw [← sameNumber, known, Bool.and_false]
  · have beyond : contents.present.testBit slot = false :=
      Nat.testBit_ofBits_ge _ slot (Nat.le_of_not_lt bound)
    rw [beyond, Bool.false_and]

/-! ## The row counts -/

theorem count?_of_countAt? {slot count : Nat} (found : contents.countAt? slot = some count) :
    ∃ table, contents.count? table = some count := by
  rcases Option.bind_eq_some_iff.mp found with ⟨table, _, counted⟩
  exact ⟨table, counted⟩

theorem flatMap_encodeCount :
    TableId.all.flatMap contents.encodeCount =
      (List.range TableId.slots).flatMap fun slot =>
        ((contents.countAt? slot).map (Bytes.ofNumber 4)).getD [] := by
  have inOrder : TableId.all = (List.range TableId.slots).filterMap TableId.ofNumber? := by decide
  rw [inOrder]
  induction List.range TableId.slots with
  | nil => rfl
  | cons slot slots induction =>
      rw [List.flatMap_cons, ← induction, List.filterMap_cons, countAt?]
      cases TableId.ofNumber? slot with
      | none => rfl
      | some table =>
          rw [List.flatMap_cons, encodeCount, Option.bind_some]
          cases contents.count? table <;> rfl

theorem recovers_rowCounts (fits : contents.Fits external) :
    (RowCounts.decoder contents.present).Recovers (TableId.all.flatMap contents.encodeCount)
      (RowCounts.ofFn fun slot => (contents.countAt? slot).getD 0) := by
  rw [flatMap_encodeCount]
  refine Decoder.Recovers.map (fun counts : List Nat => RowCounts.mk counts.toArray) ?_
  apply Decoder.recovers_mapM
  intro slot member
  rw [testBit_present (List.mem_range.mp member)]
  cases found : contents.countAt? slot with
  | none => exact Decoder.recovers_succeed 0
  | some count =>
      rcases count?_of_countAt? found with ⟨table, counted⟩
      exact Decoder.recovers_number (fits.counts table count counted)

/-! ## The pieces of the stream -/

theorem length_header : contents.header.length = TablesStream.headerSize := by
  simp only [header, List.length_append, Bytes.length_ofNumber]
  rfl

theorem holdsAt_encode (contents : TablesContents) (external : Option RowCounts)
    (trailing : List UInt8) :
    let data := contents.encode external trailing
    let counts := TableId.all.flatMap contents.encodeCount
    data.HoldsAt 0 contents.header ∧ data.HoldsAt TablesStream.headerSize counts ∧
      data.HoldsAt (TablesStream.headerSize + counts.length)
        (TableId.all.flatMap (contents.encodeTable (contents.layout external))) := by
  intro data counts
  have whole := Bytes.holdsAt_toArray [] (contents.header ++ counts ++
    TableId.all.flatMap (contents.encodeTable (contents.layout external)) ++ trailing)
  rw [List.nil_append, List.length_nil] at whole
  rcases (Bytes.holdsAt_append.mp whole).imp_left fun rest =>
      (Bytes.holdsAt_append.mp rest).imp_left Bytes.holdsAt_append.mp with
      ⟨⟨⟨holdsHeader, holdsCounts⟩, holdsTables⟩, _⟩
  rw [Nat.zero_add, length_header] at holdsCounts
  rw [Nat.zero_add, List.length_append, length_header] at holdsTables
  exact ⟨holdsHeader, holdsCounts, holdsTables⟩

theorem numbers_encode (contents : TablesContents) (external : Option RowCounts)
    (trailing : List UInt8) :
    let data := contents.encode external trailing
    data.number 4 1 = contents.major.toNat ∧ data.number 5 1 = contents.minor.toNat ∧
      data.number 6 1 = contents.heapSizes.toNat ∧ data.number 8 8 = contents.present ∧
      data.number 16 8 = contents.sorted.toNat := by
  intro data
  have holds := (holdsAt_encode contents external trailing).1
  simp only [header, Bytes.holdsAt_append, List.length_append, Bytes.length_ofNumber] at holds
  rcases holds with ⟨⟨⟨⟨⟨⟨_, major⟩, minor⟩, heapSizes⟩, _⟩, present⟩, sorted⟩
  have presentFits : contents.present < Bytes.limit 8 := Nat.ofBits_lt_two_pow _
  exact ⟨Bytes.number_of_holdsAt major contents.major.toNat_lt,
    Bytes.number_of_holdsAt minor contents.minor.toNat_lt,
    Bytes.number_of_holdsAt heapSizes contents.heapSizes.toNat_lt,
    Bytes.number_of_holdsAt present presentFits,
    Bytes.number_of_holdsAt sorted contents.sorted.toNat_lt⟩

/-! ## The stream as it is read -/

def stream (contents : TablesContents) (external : Option RowCounts) (trailing : List UInt8) :
    TablesStream where
  data := contents.encode external trailing
  major := contents.major.toNat
  minor := contents.minor.toNat
  present := contents.present
  sorted := contents.sorted.toNat
  layout := contents.layout external
  rowsStart := TablesStream.headerSize + (TableId.all.flatMap contents.encodeCount).length

theorem isPresent_stream (trailing : List UInt8) (table : TableId) :
    (contents.stream external trailing).isPresent table = (contents.tables table).isSome :=
  testBit_present_number table

theorem rowCount_stream (trailing : List UInt8) (table : TableId) :
    (contents.stream external trailing).rowCount table = (contents.count? table).getD 0 := by
  rw [TablesStream.rowCount, isPresent_stream, stream, layout, RowCounts.of,
    RowCounts.atSlot_ofFn table.number_lt_slots, countAt?_number, count?]
  cases contents.tables table <;> rfl

theorem tableSize_stream (fits : contents.Fits external) (trailing : List UInt8)
    (table : TableId) :
    (contents.stream external trailing).tableSize table =
      (contents.encodeTable (contents.layout external) table).length := by
  rw [TablesStream.tableSize, rowCount_stream, encodeTable, count?]
  cases found : contents.tables table with
  | none => exact Nat.zero_mul _
  | some tableContents =>
      exact (TableContents.length_encode (fits.tables table tableContents found)).symm

theorem total_tableSize_stream (fits : contents.Fits external) (trailing : List UInt8)
    (tables : List TableId) :
    Bytes.total (tables.map (contents.stream external trailing).tableSize) =
      (tables.flatMap (contents.encodeTable (contents.layout external))).length := by
  have sameSizes := List.map_congr_left fun table (_ : table ∈ tables) =>
    tableSize_stream fits trailing table
  rw [Bytes.length_flatMap_eq_total, sameSizes]

/-- The rows of each table stand where the stream looks for them. -/
theorem holdsAt_tableStart (fits : contents.Fits external) (trailing : List UInt8)
    (table : TableId) :
    (contents.encode external trailing).HoldsAt
      ((contents.stream external trailing).tableStart table)
      (contents.encodeTable (contents.layout external) table) := by
  have holds := (holdsAt_encode contents external trailing).2.2
  have inOrder : TableId.all = TableId.all.takeWhile (· != table) ++
      table :: (TableId.all.dropWhile (· != table)).tail := by
    cases table <;> decide
  have pieces := congrArg (List.flatMap (contents.encodeTable (contents.layout external))) inOrder
  rw [pieces, List.flatMap_append, Bytes.holdsAt_append, List.flatMap_cons,
    Bytes.holdsAt_append] at holds
  rw [TablesStream.tableStart, total_tableSize_stream fits]
  exact holds.2.1

theorem read_encode_eq_stream (fits : contents.Fits external) (trailing : List UInt8) :
    TablesStream.read (contents.encode external trailing) external =
      .ok (contents.stream external trailing) := by
  rcases numbers_encode contents external trailing with ⟨major, minor, heapSizes, present, sorted⟩
  rcases holdsAt_encode contents external trailing with ⟨holdsHeader, holdsCounts, holdsTables⟩
  have longEnough : TablesStream.headerSize ≤ (contents.encode external trailing).size := by
    have inside := holdsHeader.le_size
    rwa [Nat.zero_add, length_header] at inside
  have counted := recovers_rowCounts fits _ _ holdsCounts
  have sameRows : (RowCounts.ofFn fun slot =>
      if contents.present.testBit slot then
        (RowCounts.ofFn fun slot => (contents.countAt? slot).getD 0).atSlot slot
      else (external.getD .none).atSlot slot) = (contents.layout external).rows := by
    apply RowCounts.ofFn_congr
    intro slot bound
    rw [testBit_present bound, RowCounts.atSlot_ofFn bound]
    cases contents.countAt? slot <;> rfl
  have rowsFit : (contents.stream external trailing).rowsEnd ≤
      (contents.encode external trailing).size := by
    have inside := holdsTables.le_size
    rw [TablesStream.rowsEnd, total_tableSize_stream fits]
    exact inside
  rw [TablesStream.read, if_neg (Nat.not_lt.mpr longEnough)]
  simp only [major, minor, heapSizes, present, sorted, counted, sameRows, present_known]
  rw [if_neg (not_not_intro rfl)]
  exact if_neg (Nat.not_lt.mpr rowsFit)

/-- A stream of tables that was written is read, whatever bytes stand behind it. It has the row
counts that were written, and its tables answer the rows that were written, by their numbers. -/
theorem read_encode (fits : contents.Fits external) (trailing : List UInt8) :
    ∃ stream, TablesStream.read (contents.encode external trailing) external = .ok stream ∧
      (∀ table, stream.rowCount table = (contents.count? table).getD 0) ∧
      (∀ (ρ : Type) [Row ρ], contents.tables (Row.table ρ) = none → stream.table? ρ = none) ∧
      ∀ (ρ : Type) [Row ρ] written, contents.tables (Row.table ρ) = some (.rows written) →
        ∃ table, stream.table? ρ = some table ∧ table.rowCount = written.length ∧
          ∀ rid, table.get? rid =
            if rid = 0 then none
            else written[rid - 1]?.map fun entries => Row.ofCells rid entries.cells := by
  refine ⟨contents.stream external trailing, read_encode_eq_stream fits trailing,
    rowCount_stream trailing, ?_, ?_⟩
  · intro ρ _ absent
    rw [TablesStream.table?, isPresent_stream, absent]
    rfl
  · intro ρ _ written found
    have present : (contents.stream external trailing).isPresent (Row.table ρ) = true := by
      rw [isPresent_stream, found]
      rfl
    have count : (contents.stream external trailing).rowCount (Row.table ρ) = written.length := by
      rw [rowCount_stream, count?, found]
      rfl
    have holds := holdsAt_tableStart fits trailing (Row.table ρ)
    rw [encodeTable, found] at holds
    refine ⟨_, if_pos present, count, ?_⟩
    exact Table.get?_of_holdsAt count holds (fits.tables _ _ found)

/-- Two implemented interfaces and a table of fields, over type definitions that stand elsewhere. -/
def implementations : TablesContents where
  major := 2
  minor := 0
  heapSizes := 1
  sorted := 0
  reserved := (0, 1)
  tables
    | .field => some (.raw 1 [6, 0, 7, 0, 0, 0, 8, 0])
    | .interfaceImpl => some (.rows [(69999, ((0 : Fin 3), 70000), ()), (1, ((1 : Fin 3), 0), ())])
    | _ => none

def definitionsElsewhere : RowCounts :=
  .ofFn fun slot => if slot = TableId.typeDef.number then 70000 else 0

theorem read_encode_implementations :
    implementations.Fits (some definitionsElsewhere) ∧
      ∃ stream table, TablesStream.read
          (implementations.encode (some definitionsElsewhere) [0xFF]) (some definitionsElsewhere) =
            .ok stream ∧
        stream.rowCount .typeDef = 0 ∧ stream.table? InterfaceImplRow = some table ∧
        table.get? 1 = some ⟨1, 69999, ⟨.typeDef, 70000⟩⟩ ∧ table.get? 3 = none := by
  have fits : implementations.Fits (some definitionsElsewhere) := by
    constructor
    · intro table count found
      cases table <;> cases found <;> decide
    · intro table tableContents found
      cases table <;> cases found <;> decide +kernel
  rcases read_encode fits [0xFF] with ⟨stream, read, counts, _, rows⟩
  rcases rows InterfaceImplRow _ rfl with ⟨table, present, _, get⟩
  refine ⟨fits, stream, table, read, counts .typeDef, present, ?_, ?_⟩
  · rw [get]
    rfl
  · rw [get]
    rfl

end TablesContents

end CilLoader
