import CilLoader.Table.Layout

/-!
# Columns

Every table has a fixed list of columns. A column stores a number, whose width may depend on the
layout, or a coded index. The bytes of a row are those of its columns, without gaps, so the list of
columns fixes both the size of a row and how it is read.
-/

namespace CilLoader

/-- What a plain number in a column means, as far as its width depends on it. -/
inductive Storage where
  | word
  | long
  | string
  | guid
  | blob
  | row (table : TableId)
deriving DecidableEq, Repr

def Storage.width (layout : Layout) : Storage → Nat
  | word => 2
  | long => 4
  | string => layout.stringWidth
  | guid => layout.guidWidth
  | blob => layout.blobWidth
  | row table => layout.rowWidth table

/-- The width with which a number is read. For row numbers it depends on the row count itself, not
on how many bits that takes. -/
def Storage.readWidth (layout : Layout) : Storage → Nat
  | row table => Layout.width (layout.isLargeTable table)
  | storage => storage.width layout

theorem Storage.readWidth_eq (layout : Layout) (storage : Storage) :
    storage.readWidth layout = storage.width layout := by
  cases storage with
  | row table => exact congrArg Layout.width (layout.isLargeTable_eq table)
  | _ => rfl

inductive Column where
  | number (storage : Storage)
  | coded (kind : CodedKind)
deriving DecidableEq, Repr

namespace Column

abbrev word : Column := .number .word
abbrev long : Column := .number .long
abbrev string : Column := .number .string
abbrev guid : Column := .number .guid
abbrev blob : Column := .number .blob
abbrev row (table : TableId) : Column := .number (.row table)

def width (layout : Layout) : Column → Nat
  | number storage => storage.width layout
  | coded kind => layout.codedWidth kind

abbrev Value : Column → Type
  | number _ => Nat
  | coded _ => CodedIndex

/-- Reads the column. The bytes of a coded index are consumed even if its tag is wrong. -/
def decoder (layout : Layout) : (column : Column) → Decoder column.Value
  | number storage => Decoder.number (storage.readWidth layout)
  | coded kind => do
    let value ← Decoder.number (layout.codedWidth kind)
    Decoder.ofExcept (CodedIndex.decode kind value)

end Column

/-- The contents of a row: one value for every column. -/
def Cells : List Column → Type
  | [] => Unit
  | column :: columns => column.Value × Cells columns

inductive Cell where
  | number (value : Nat)
  | coded (value : CodedIndex)
deriving DecidableEq, Repr

instance : Coe Nat Cell :=
  ⟨.number⟩

instance : Coe CodedIndex Cell :=
  ⟨.coded⟩

def Column.cell : (column : Column) → column.Value → Cell
  | number _, value => .number value
  | coded _, value => .coded value

def Cells.toList : {columns : List Column} → Cells columns → List Cell
  | [], _ => []
  | column :: _, (value, rest) => column.cell value :: Cells.toList rest

def Cells.decoder (layout : Layout) : (columns : List Column) → Decoder (Cells columns)
  | [] => Decoder.succeed ()
  | column :: columns => do
    let first ← column.decoder layout
    let rest ← Cells.decoder layout columns
    Decoder.succeed (first, rest)

namespace TableId

open Column

/-- The columns of a table, in the order in which they are stored. -/
def columns : TableId → List Column
  | .module => [word, string, guid, guid, guid]
  | typeRef => [coded .resolutionScope, string, string]
  | typeDef => [long, string, string, coded .typeDefOrRef, row field, row methodDef]
  | fieldPtr => [row field]
  | field => [word, string, blob]
  | methodPtr => [row methodDef]
  | methodDef => [long, word, word, string, blob, row param]
  | paramPtr => [row param]
  | param => [word, word, string]
  | interfaceImpl => [row typeDef, coded .typeDefOrRef]
  | memberRef => [coded .memberRefParent, string, blob]
  | constant => [word, coded .hasConstant, blob]
  | customAttribute => [coded .hasCustomAttribute, coded .customAttributeType, blob]
  | fieldMarshal => [coded .hasFieldMarshal, blob]
  | declSecurity => [word, coded .hasDeclSecurity, blob]
  | classLayout => [word, long, row typeDef]
  | fieldLayout => [long, row field]
  | standAloneSig => [blob]
  | eventMap => [row typeDef, row event]
  | eventPtr => [row event]
  | event => [word, string, coded .typeDefOrRef]
  | propertyMap => [row typeDef, row property]
  | propertyPtr => [row property]
  | property => [word, string, blob]
  | methodSemantics => [word, row methodDef, coded .hasSemantics]
  | methodImpl => [row typeDef, coded .methodDefOrRef, coded .methodDefOrRef]
  | moduleRef => [string]
  | typeSpec => [blob]
  | implMap => [word, coded .memberForwarded, string, row moduleRef]
  | fieldRva => [long, row field]
  | encLog => [long, long]
  | encMap => [long]
  | assembly => [long, word, word, word, word, long, blob, string, string]
  | assemblyProcessor => [long]
  | assemblyOs => [long, long, long]
  | assemblyRef => [word, word, word, word, long, blob, string, string, blob]
  | assemblyRefProcessor => [long, row assemblyRef]
  | assemblyRefOs => [long, long, long, row assemblyRef]
  | file => [long, string, blob]
  | exportedType => [long, long, string, string, coded .implementation]
  | manifestResource => [long, long, string, coded .implementation]
  | nestedClass => [row typeDef, row typeDef]
  | genericParam => [word, word, coded .typeOrMethodDef, string]
  | methodSpec => [coded .methodDefOrRef, blob]
  | genericParamConstraint => [row genericParam, coded .typeDefOrRef]
  | document => [blob, guid, blob, guid]
  | methodDebugInformation => [row document, blob]
  | localScope =>
    [row methodDef, row importScope, row localVariable, row localConstant, long, long]
  | localVariable => [word, word, string]
  | localConstant => [string, blob]
  | importScope => [row importScope, blob]
  | stateMachineMethod => [row methodDef, row methodDef]
  | customDebugInformation => [coded .hasCustomDebugInformation, guid, blob]

theorem columns_ne_nil (table : TableId) : table.columns ≠ [] := by
  cases table <;> simp [columns]

end TableId

def Layout.rowSize (layout : Layout) (table : TableId) : Nat :=
  Bytes.total (table.columns.map (·.width layout))

end CilLoader
