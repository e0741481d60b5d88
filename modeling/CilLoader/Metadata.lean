import CilLoader.Heap.Blobs
import CilLoader.Heap.Guids
import CilLoader.Heap.Strings
import CilLoader.Identity
import CilLoader.Attributes
import CilLoader.Signature.Decoder
import CilLoader.Stream.Pdb
import CilLoader.Stream.Root
import CilLoader.Stream.Tables

/-!
# Metadata

The streams of an image, taken together: its heaps, its tables, and the stream that marks an image
of debug symbols. A heap that is missing is empty.
-/

namespace CilLoader

structure Metadata where
  root : MetadataRoot
  strings : StringHeap
  blobs : BlobHeap
  guids : GuidHeap
  tables : TablesStream
  pdb : Option PdbStream
deriving DecidableEq, Repr

namespace Metadata

def streamBytes (data : Bytes) (header : StreamHeader) : Bytes :=
  data.slice header.offset (header.offset + header.size)

/-- The bytes of the stream with a name, none if there is no such stream. -/
def bytesOf (data : Bytes) (root : MetadataRoot) (name : String) : Bytes :=
  match root.stream? name with
  | some header => streamBytes data header
  | none => #[]

/-- The stream of tables, whose name depends on whether its rows are in their final order. -/
def tablesHeader? (root : MetadataRoot) : Option StreamHeader :=
  root.stream? "#~" <|> root.stream? "#-"

def readPdb (data : Bytes) (root : MetadataRoot) : Except Error (Option PdbStream) :=
  match root.stream? "#Pdb" with
  | none => .ok none
  | some header => (PdbStream.read (streamBytes data header)).map some

def read (data : Bytes) : Except Error Metadata := do
  let root ← MetadataRoot.read data
  let pdb ← readPdb data root
  match tablesHeader? root with
  | none => .error (.malformed .noTablesStream)
  | some header =>
    let tables ← TablesStream.read (streamBytes data header) (pdb.map (·.rows))
    let strings ← StringHeap.ofBytes (bytesOf data root "#Strings")
    let blobs ← BlobHeap.ofBytes (bytesOf data root "#Blob")
    return { root, strings, blobs, guids := ⟨bytesOf data root "#GUID"⟩, tables, pdb }

def version (metadata : Metadata) : String :=
  metadata.root.version

def string (metadata : Metadata) (index : Nat) : Except Error String :=
  metadata.strings.get index

def blob (metadata : Metadata) (index : Nat) : Except Error Bytes :=
  metadata.blobs.get index

def guid (metadata : Metadata) (index : Nat) : Except Panic (Except Error (Option Bytes)) :=
  metadata.guids.get index

def rowCount (metadata : Metadata) (table : TableId) : Nat :=
  metadata.tables.rowCount table

def table? (metadata : Metadata) (ρ : Type) [Row ρ] : Option (Table ρ) :=
  metadata.tables.table? ρ

def row? (metadata : Metadata) (ρ : Type) [Row ρ] (rid : Nat) : Option ρ :=
  (metadata.table? ρ).bind (·.get? rid)

theorem rid_of_row? {metadata : Metadata} {ρ : Type} [Row ρ] {rid : Nat} {row : ρ}
    (found : metadata.row? ρ rid = some row) :
    1 ≤ rid ∧ rid ≤ metadata.rowCount (Row.table ρ) := by
  obtain ⟨table, present, found⟩ := Option.bind_eq_some_iff.mp found
  rw [table?, TablesStream.table?] at present
  split at present
  · cases present
    exact Table.rid_of_get? found
  · cases present

/-- The rows of one kind, in order, up to the first damaged one. -/
def rows (metadata : Metadata) (ρ : Type) [Row ρ] : List ρ :=
  match metadata.table? ρ with
  | some table => table.rows
  | none => []

/-- The row with the given number, whose absence means that its token cannot be resolved. -/
def requireRow (metadata : Metadata) (ρ : Type) [Row ρ] (rid : Nat) : Except Error ρ :=
  match metadata.row? ρ rid with
  | some row => .ok row
  | none => .error (.typeResolution (Token.ofParts (Row.table ρ).number rid))

def moduleName (metadata : Metadata) : Except Error String :=
  match metadata.row? ModuleRow 1 with
  | some row => metadata.string row.name
  | none => .error (.malformed .noModuleRow)

/-- The identity that the image declares, unless it is no assembly. -/
def identity? (metadata : Metadata) : Except Error (Option Identity) :=
  match metadata.row? AssemblyRow 1 with
  | none => .ok none
  | some row => do
    let name ← metadata.string row.name
    let culture ← metadata.string row.culture
    let key ← metadata.blob row.publicKey
    let version : Version :=
      ⟨UInt16.ofNat row.major, UInt16.ofNat row.minor, UInt16.ofNat row.build,
        UInt16.ofNat row.revision⟩
    return some (Identity.ofRow name version culture key true)

def referencedIdentity (metadata : Metadata) (rid : Nat) : Except Error Identity := do
  let row ← metadata.requireRow AssemblyRefRow rid
  let name ← metadata.string row.name
  let culture ← metadata.string row.culture
  let key ← metadata.blob row.publicKeyOrToken
  let version : Version :=
    ⟨UInt16.ofNat row.major, UInt16.ofNat row.minor, UInt16.ofNat row.build,
      UInt16.ofNat row.revision⟩
  return Identity.ofRow name version culture key (AssemblyAttributes.hasFullKey row.flags)

def typeSpecSignature (metadata : Metadata) (rid : Nat) : Except Error TypeSignature := do
  let row ← metadata.requireRow TypeSpecRow rid
  Decoder.typeSignature.run (← metadata.blob row.signature)

theorem row_of_typeSpecSignature {metadata : Metadata} {rid : Nat} {signature : TypeSignature}
    (found : metadata.typeSpecSignature rid = .ok signature) :
    1 ≤ rid ∧ rid ≤ metadata.rowCount .typeSpec := by
  obtain ⟨row, present, _⟩ := Error.bind_eq_ok.mp found
  rw [requireRow] at present
  split at present
  · rename_i row' found
    exact rid_of_row? found
  · cases present

def methodSignature (metadata : Metadata) (rid : Nat) : Except Error MethodSignature := do
  let row ← metadata.requireRow MethodDefRow rid
  Decoder.methodSignature.run (← metadata.blob row.signature)

end Metadata

end CilLoader
