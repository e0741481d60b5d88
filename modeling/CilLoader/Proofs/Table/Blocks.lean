import CilLoader.Proofs.Strict.Tables
import CilLoader.Proofs.Table.CodedTokens

/-!
# Rows and their blocks

The sizes of rows can be listed table by table, without regard to how rows are read. A row is read
exactly if its block of that size is there and the tags of its coded indexes stand for tables. It
takes the whole block, and nothing but the block and the number of the row decides what is read.
-/

namespace CilLoader

/-! ## Sizes -/

/-- The size of a row, for every table by itself. -/
def Layout.listedSize (layout : Layout) (table : TableId) : Nat :=
  let s := layout.stringWidth
  let g := layout.guidWidth
  let b := layout.blobWidth
  let t := layout.rowWidth
  let c := layout.codedWidth
  match table with
  | .module => 2 + s + g + g + g
  | .typeRef => c .resolutionScope + s + s
  | .typeDef => 4 + s + s + c .typeDefOrRef + t .field + t .methodDef
  | .fieldPtr => t .field
  | .field => 2 + s + b
  | .methodPtr => t .methodDef
  | .methodDef => 4 + 2 + 2 + s + b + t .param
  | .paramPtr => t .param
  | .param => 2 + 2 + s
  | .interfaceImpl => t .typeDef + c .typeDefOrRef
  | .memberRef => c .memberRefParent + s + b
  | .constant => 2 + c .hasConstant + b
  | .customAttribute => c .hasCustomAttribute + c .customAttributeType + b
  | .fieldMarshal => c .hasFieldMarshal + b
  | .declSecurity => 2 + c .hasDeclSecurity + b
  | .classLayout => 2 + 4 + t .typeDef
  | .fieldLayout => 4 + t .field
  | .standAloneSig => b
  | .eventMap => t .typeDef + t .event
  | .eventPtr => t .event
  | .event => 2 + s + c .typeDefOrRef
  | .propertyMap => t .typeDef + t .property
  | .propertyPtr => t .property
  | .property => 2 + s + b
  | .methodSemantics => 2 + t .methodDef + c .hasSemantics
  | .methodImpl => t .typeDef + c .methodDefOrRef * 2
  | .moduleRef => s
  | .typeSpec => b
  | .implMap => 2 + c .memberForwarded + s + t .moduleRef
  | .fieldRva => 4 + t .field
  | .encLog => 4 + 4
  | .encMap => 4
  | .assembly => 4 + 2 * 4 + 4 + b + s + s
  | .assemblyProcessor => 4
  | .assemblyOs => 4 + 4 + 4
  | .assemblyRef => 2 * 4 + 4 + b + s + s + b
  | .assemblyRefProcessor => 4 + t .assemblyRef
  | .assemblyRefOs => 4 + 4 + 4 + t .assemblyRef
  | .file => 4 + s + b
  | .exportedType => 4 + 4 + s + s + c .implementation
  | .manifestResource => 4 + 4 + s + c .implementation
  | .nestedClass => t .typeDef * 2
  | .genericParam => 2 + 2 + c .typeOrMethodDef + s
  | .methodSpec => c .methodDefOrRef + b
  | .genericParamConstraint => t .genericParam + c .typeDefOrRef
  | .document => b + g + b + g
  | .methodDebugInformation => t .document + b
  | .localScope =>
    t .methodDef + t .importScope + t .localVariable + t .localConstant + 4 + 4
  | .localVariable => 2 + 2 + s
  | .localConstant => s + b
  | .importScope => t .importScope + b
  | .stateMachineMethod => t .methodDef * 2
  | .customDebugInformation => c .hasCustomDebugInformation + g + b

theorem Layout.rowSize_eq_listedSize (layout : Layout) (table : TableId) :
    layout.rowSize table = layout.listedSize table := by
  cases table <;>
    simp only [rowSize, listedSize, TableId.columns, List.map_cons, List.map_nil, Bytes.total,
      Column.width, Storage.width] <;>
    omega

/-! ## What a decoder depends on -/

namespace Decoder

variable {α β : Type}

/-- Succeeds exactly where so many bytes are left and what stands there is accepted. -/
def SucceedsOn (decoder : Decoder α) (size : Nat) (accepts : Bytes → Nat → Prop) : Prop :=
  ∀ data position, (∃ value stop, decoder data position = (.ok value, stop)) ↔
    position + size ≤ data.size ∧ accepts data position

/-- What is read is decided by a block of so many bytes, wherever the block stands. -/
def ReadsBlock (decoder : Decoder α) (size : Nat) : Prop :=
  ∀ data position other there, position + size ≤ data.size → there + size ≤ other.size →
    data.slice position (position + size) = other.slice there (there + size) →
    (decoder data position).1 = (decoder other there).1

theorem number_eq_ok {width value stop : Nat} {data : Bytes} {position : Nat} :
    number width data position = (.ok value, stop) ↔
      position + width ≤ data.size ∧ data.number position width = value ∧
        position + width = stop := by
  rw [number]
  split
  · rename_i inside
    simp [inside]
  · rename_i outside
    simp [outside]

theorem succeedsOn_number (width : Nat) : (number width).SucceedsOn width fun _ _ => True := by
  intro data position
  simp only [number_eq_ok, and_true]
  exact ⟨fun ⟨_, _, inside, _⟩ => inside, fun inside => ⟨_, _, inside, rfl, rfl⟩⟩

theorem ofExcept_eq_ok {result : Except Error α} {value : α} {data : Bytes} {position stop : Nat} :
    ofExcept result data position = (.ok value, stop) ↔ result = .ok value ∧ position = stop := by
  cases result <;> simp [ofExcept, succeed, fail]

theorem SucceedsOn.bind {first : Decoder α} {next : α → Decoder β} {size rest : Nat}
    {accepts acceptsRest : Bytes → Nat → Prop} (succeeds : first.SucceedsOn size accepts)
    (advances : first.Advances size)
    (succeedsNext : ∀ value, (next value).SucceedsOn rest acceptsRest) :
    (first >>= next).SucceedsOn (size + rest) fun data position =>
      accepts data position ∧ acceptsRest data (position + size) := by
  intro data position
  constructor
  · rintro ⟨result, stop, read⟩
    rcases bind_eq_ok.mp read with ⟨value, middle, begun, ended⟩
    have acceptedFirst := (succeeds data position).mp ⟨value, middle, begun⟩
    have acceptedNext := (succeedsNext value data middle).mp ⟨result, stop, ended⟩
    rw [advances data position value middle begun] at acceptedNext
    exact ⟨by omega, acceptedFirst.2, acceptedNext.2⟩
  · rintro ⟨inside, accepted, acceptedRest⟩
    rcases (succeeds data position).mpr ⟨by omega, accepted⟩ with ⟨value, middle, begun⟩
    have place := advances data position value middle begun
    rcases (succeedsNext value data middle).mpr ⟨by omega, place ▸ acceptedRest⟩ with
      ⟨result, stop, ended⟩
    exact ⟨result, stop, bind_eq_ok.mpr ⟨value, middle, begun, ended⟩⟩

theorem SucceedsOn.map {decoder : Decoder α} {size : Nat} {accepts : Bytes → Nat → Prop}
    (succeeds : decoder.SucceedsOn size accepts) (transform : α → β) :
    (decoder >>= fun value => succeed (transform value)).SucceedsOn size accepts := by
  intro data position
  rw [← succeeds data position]
  constructor
  · rintro ⟨_, _, read⟩
    rcases bind_eq_ok.mp read with ⟨value, stop, begun, _⟩
    exact ⟨value, stop, begun⟩
  · rintro ⟨value, stop, begun⟩
    exact ⟨transform value, stop, bind_eq_ok.mpr ⟨value, stop, begun, rfl⟩⟩

theorem readsBlock_succeed (value : α) (size : Nat) : (succeed value).ReadsBlock size :=
  fun _ _ _ _ _ _ _ => rfl

theorem readsBlock_ofExcept (result : Except Error α) (size : Nat) :
    (ofExcept result).ReadsBlock size := by
  intro data position other there _ _ _
  cases result <;> rfl

theorem readsBlock_number (width : Nat) : (number width).ReadsBlock width := by
  intro data position other there inside insideOther same
  have sameNumber : data.number position width = other.number there width := by
    rw [← Bytes.number_window inside, same, Bytes.number_window insideOther]
  rw [number, number, if_pos inside, if_pos insideOther, sameNumber]

theorem ReadsBlock.bind {first : Decoder α} {next : α → Decoder β} {size rest : Nat}
    (reads : first.ReadsBlock size) (advances : first.Advances size)
    (readsNext : ∀ value, (next value).ReadsBlock rest) :
    (first >>= next).ReadsBlock (size + rest) := by
  intro data position other there inside insideOther same
  -- Both parts of the block are the same, because they are the same slices of it.
  have sameFirst := congrArg (Bytes.slice · 0 size) same
  have sameRest := congrArg (Bytes.slice · size (size + rest)) same
  simp only [Bytes.slice_slice (Nat.le_refl _), Bytes.slice_slice (Nat.add_le_add_left
    (Nat.le_add_right size rest) _), Nat.add_zero] at sameFirst sameRest
  have begun := reads data position other there (by omega) (by omega) sameFirst
  rw [bind_apply, bind_apply]
  cases read : first data position with
  | mk result middle =>
    cases readOther : first other there with
    | mk resultOther middleOther =>
      rw [read, readOther] at begun
      cases begun
      cases result with
      | error error => rfl
      | ok value =>
          rw [← Nat.add_assoc, ← Nat.add_assoc,
            ← advances data position value middle read,
            ← advances other there value middleOther readOther] at sameRest
          have place := advances data position value middle read
          have placeOther := advances other there value middleOther readOther
          exact readsNext value data middle other middleOther (by omega) (by omega) sameRest

end Decoder

open Decoder

/-! ## Columns -/

namespace Column

/-- The tag that stands in the column, if it is one of a coded index, stands for a table. -/
def TagNamed (layout : Layout) (data : Bytes) (position : Nat) : Column → Prop
  | number _ => True
  | coded kind =>
    data.number position (layout.codedWidth kind) % (1 <<< kind.tagBits) < kind.tables.length

theorem succeedsOn_decoder (layout : Layout) (column : Column) :
    (column.decoder layout).SucceedsOn (column.width layout) fun data position =>
      column.TagNamed layout data position := by
  cases column with
  | number storage =>
      rw [decoder, width, ← storage.readWidth_eq layout]
      exact succeedsOn_number _
  | coded kind =>
      intro data position
      show _ ↔ _ ∧ _ < kind.tables.length
      rw [← CodedIndex.exists_decode_iff]
      constructor
      · rintro ⟨index, stop, read⟩
        rcases bind_eq_ok.mp read with ⟨value, middle, readValue, decoded⟩
        rcases number_eq_ok.mp readValue with ⟨inside, rfl, _⟩
        exact ⟨inside, index, (ofExcept_eq_ok.mp decoded).1⟩
      · rintro ⟨inside, index, decoded⟩
        have readValue := number_eq_ok.mpr ⟨inside, rfl, rfl⟩
        exact ⟨index, _, bind_eq_ok.mpr ⟨_, _, readValue, ofExcept_eq_ok.mpr ⟨decoded, rfl⟩⟩⟩

theorem readsBlock_decoder (layout : Layout) (column : Column) :
    (column.decoder layout).ReadsBlock (column.width layout) := by
  cases column with
  | number storage =>
      rw [decoder, width, ← storage.readWidth_eq layout]
      exact readsBlock_number _
  | coded kind =>
      exact (readsBlock_number _).bind (advances_number _) fun value =>
        readsBlock_ofExcept (CodedIndex.decode kind value) 0

end Column

/-! ## Rows -/

/-- Wherever a coded index stands in a row, its tag stands for a table. -/
def Layout.TagsNamed (layout : Layout) (data : Bytes) (position : Nat) (columns : List Column) :
    Prop :=
  ∀ before kind after, columns = before ++ .coded kind :: after →
    (Column.coded kind).TagNamed layout data
      (position + Bytes.total (before.map (·.width layout)))

@[simp]
theorem Layout.tagsNamed_nil (layout : Layout) (data : Bytes) (position : Nat) :
    layout.TagsNamed data position [] := by
  intro before kind after split
  simp at split

theorem Layout.tagsNamed_cons {layout : Layout} {data : Bytes} {position : Nat} {column : Column}
    {columns : List Column} :
    layout.TagsNamed data position (column :: columns) ↔
      column.TagNamed layout data position ∧
        layout.TagsNamed data (position + column.width layout) columns := by
  constructor
  · intro named
    constructor
    · cases column with
      | number storage => trivial
      | coded kind => exact named [] kind columns rfl
    · rintro before kind after rfl
      rw [Nat.add_assoc]
      exact named (column :: before) kind after rfl
  · rintro ⟨first, rest⟩ before kind after split
    cases before with
    | nil =>
        cases split
        exact first
    | cons other before =>
        cases split
        have behind := rest before kind after rfl
        rwa [Nat.add_assoc] at behind

theorem Cells.succeedsOn_decoder (layout : Layout) {columns : List Column}
    (nonempty : columns ≠ []) :
    (Cells.decoder layout columns).SucceedsOn (Bytes.total (columns.map (·.width layout)))
      fun data position => layout.TagsNamed data position columns := by
  induction columns with
  | nil => exact absurd rfl nonempty
  | cons column columns induction =>
      simp only [Layout.tagsNamed_cons]
      have first := column.succeedsOn_decoder layout
      cases columns with
      | nil =>
          simp only [Layout.tagsNamed_nil, and_true]
          exact first.map fun value => ((value, ()) : Cells [column])
      | cons next rest =>
          exact first.bind (column.advances_decoder layout) fun value =>
            (induction (List.cons_ne_nil next rest)).map fun values => (value, values)

theorem Cells.readsBlock_decoder (layout : Layout) (columns : List Column) :
    (Cells.decoder layout columns).ReadsBlock (Bytes.total (columns.map (·.width layout))) := by
  induction columns with
  | nil => exact readsBlock_succeed () 0
  | cons column columns induction =>
      exact (column.readsBlock_decoder layout).bind (column.advances_decoder layout) fun value =>
        induction.bind (Cells.advances_decoder layout columns) fun _ => readsBlock_succeed _ 0

namespace Row

variable (ρ : Type) [Row ρ] (layout : Layout) (rid : Nat)

theorem succeedsOn_decoder :
    (Row.decoder ρ layout rid).SucceedsOn (layout.rowSize (Row.table ρ)) fun data position =>
      layout.TagsNamed data position (Row.table ρ).columns :=
  (Cells.succeedsOn_decoder layout (TableId.columns_ne_nil _)).map (Row.ofCells rid)

theorem readsBlock_decoder :
    (Row.decoder ρ layout rid).ReadsBlock (layout.rowSize (Row.table ρ)) :=
  (Cells.readsBlock_decoder layout _).bind (Cells.advances_decoder layout _) fun _ =>
    readsBlock_succeed _ 0

/-- Blocks that are the same are both there or both cut short by the end of their data. -/
theorem inside_of_sameBlock {data other : Bytes} {position there : Nat}
    (same : data.slice position (position + layout.rowSize (Row.table ρ)) =
      other.slice there (there + layout.rowSize (Row.table ρ)))
    (inside : position + layout.rowSize (Row.table ρ) ≤ data.size) :
    there + layout.rowSize (Row.table ρ) ≤ other.size := by
  have positive := layout.two_le_rowSize (Row.table ρ)
  have sameSize := congrArg Array.size same
  simp only [Bytes.slice, Array.size_extract] at sameSize
  omega

theorem decoder_of_sameBlock {data other : Bytes} {position there : Nat} {row : ρ}
    (same : data.slice position (position + layout.rowSize (Row.table ρ)) =
      other.slice there (there + layout.rowSize (Row.table ρ)))
    (read : (Row.decoder ρ layout rid data position).1 = .ok row) :
    (Row.decoder ρ layout rid other there).1 = .ok row := by
  have success := (succeedsOn_decoder ρ layout rid data position).mp ⟨row, _, Prod.ext read rfl⟩
  have insideOther := inside_of_sameBlock ρ layout same success.1
  rw [← readsBlock_decoder ρ layout rid data position other there success.1 insideOther same]
  exact read

end Row

namespace Table

variable {ρ : Type} [Row ρ]

/-- The bytes of the row with a number, as far as they are there. -/
def block (table : Table ρ) (rid : Nat) : Bytes :=
  let start := table.start + (rid - 1) * table.rowSize
  table.data.slice start (start + table.rowSize)

theorem get?_eq_some_iff {table : Table ρ} {rid : Nat} {row : ρ} :
    table.get? rid = some row ↔
      (1 ≤ rid ∧ rid ≤ table.rowCount) ∧
        (Row.decoder ρ table.layout rid table.data
          (table.start + (rid - 1) * table.rowSize)).1 = .ok row := by
  constructor
  · intro found
    rcases decoder_eq_of_get? found with ⟨stop, read⟩
    exact ⟨rid_of_get? found, congrArg Prod.fst read⟩
  · rintro ⟨inside, read⟩
    rw [get?, if_neg (by omega)]
    split
    · rename_i decoded stop outcome
      rw [outcome] at read
      exact congrArg some (Except.ok.inj read)
    · rename_i error stop outcome
      rw [outcome] at read
      cases read

theorem get?_of_sameBlock {table other : Table ρ} {rid : Nat} {row : ρ}
    (sameLayout : table.layout = other.layout) (inside : rid ≤ other.rowCount)
    (same : table.block rid = other.block rid) (found : table.get? rid = some row) :
    other.get? rid = some row := by
  rcases get?_eq_some_iff.mp found with ⟨numbered, read⟩
  rw [block, block, rowSize, rowSize, ← sameLayout] at same
  refine get?_eq_some_iff.mpr ⟨⟨numbered.1, inside⟩, ?_⟩
  rw [rowSize, ← sameLayout]
  exact Row.decoder_of_sameBlock ρ table.layout rid same read

end Table

/-- A row is read exactly if its block is there and its tags stand for tables; then the whole block
is read, and the block alone, together with the number of the row, decides what is read. -/
theorem Row.reads_listedSize (ρ : Type) [Row ρ] (layout : Layout) :
    let size := layout.rowSize (Row.table ρ)
    size = layout.listedSize (Row.table ρ) ∧
    (∀ rid data position,
      (∃ row stop, Row.decoder ρ layout rid data position = (.ok row, stop)) ↔
        position + size ≤ data.size ∧
          layout.TagsNamed data position (Row.table ρ).columns) ∧
    (∀ rid data position row stop,
      Row.decoder ρ layout rid data position = (.ok row, stop) → stop = position + size) ∧
    (∀ rid data position other there,
      data.slice position (position + size) = other.slice there (there + size) →
        ∀ row, (Row.decoder ρ layout rid data position).1 = .ok row ↔
          (Row.decoder ρ layout rid other there).1 = .ok row) ∧
    ∀ (table other : Table ρ) (rid : Nat), table.layout = layout → other.layout = layout →
      rid ≤ table.rowCount → rid ≤ other.rowCount → table.block rid = other.block rid →
        table.get? rid = other.get? rid := by
  intro size
  refine ⟨layout.rowSize_eq_listedSize _, fun rid => Row.succeedsOn_decoder ρ layout rid,
    fun rid => Row.advances_decoder ρ layout rid, ?_, ?_⟩
  · intro rid data position other there same row
    exact ⟨Row.decoder_of_sameBlock ρ layout rid same,
      Row.decoder_of_sameBlock ρ layout rid same.symm⟩
  · rintro table other rid rfl sameLayout inside insideOther same
    apply Option.ext
    intro row
    exact ⟨Table.get?_of_sameBlock sameLayout.symm insideOther same,
      Table.get?_of_sameBlock sameLayout inside same.symm⟩

/-- The second of these rows is intact, the first is not. -/
def Table.behindDamaged : Table InterfaceImplRow where
  data := #[1, 0, 3, 0, 1, 0, 4, 0]
  start := 0
  rowCount := 2
  layout := ⟨0, .none⟩

/-- The same second row, in other data and behind another first row. -/
def Table.behindIntact : Table InterfaceImplRow where
  data := #[9, 2, 0, 8, 0, 1, 0, 4, 0, 5, 0, 4, 0]
  start := 1
  rowCount := 3
  layout := ⟨0, .none⟩

theorem Row.reads_listedSize_neighbours :
    Table.behindDamaged.block 2 = Table.behindIntact.block 2 ∧
      Table.behindDamaged.get? 2 = Table.behindIntact.get? 2 := by
  have same : Table.behindDamaged.block 2 = Table.behindIntact.block 2 := by decide
  exact ⟨same, (Row.reads_listedSize InterfaceImplRow ⟨0, .none⟩).2.2.2.2
    Table.behindDamaged Table.behindIntact 2 rfl rfl (by decide) (by decide) same⟩

end CilLoader
