import Mathlib.Data.List.Basic
import CilLoader.Image
import CilLoader.Proofs.Heap.WrittenHeaps
import CilLoader.Proofs.Stream.WrittenRoot
import CilLoader.Proofs.Stream.WrittenTables
import CilLoader.Proofs.Table.Walk

/-!
# Written images

An image that is nothing but metadata can be written as a root with three streams: the tables, the
names and the blobs. It is read as what was written, and it answers the rows and the names that were
written into it.
-/

namespace CilLoader

/-! ## Images -/

/-- What is written into the three streams. Both heaps start with a zero byte, which is left out
here. -/
structure ImageContents where
  tables : TablesContents
  names : List String
  blobs : List UInt8

namespace ImageContents

variable (contents : ImageContents)

def nameBytes : List UInt8 :=
  0 :: contents.names.flatMap StringHeap.encodeText

def root : RootContents where
  major := 1
  minor := 1
  reserved := 0
  version := ""
  padding := 0
  flags := 0
  streams := [
    ⟨"#~", (contents.tables.encode none []).toList⟩,
    ⟨"#Strings", contents.nameBytes⟩,
    ⟨"#Blob", 0 :: contents.blobs⟩]

def encode : Bytes :=
  contents.root.encode []

structure Fits : Prop where
  root : contents.root.Fits
  tables : contents.tables.Fits none
  names : ∀ name ∈ contents.names, StringHeap.Writable name

/-- The metadata as they are to be read. -/
def metadata : Metadata where
  root := contents.root.root
  strings := ⟨contents.nameBytes.toArray⟩
  blobs := ⟨(0 :: contents.blobs).toArray⟩
  guids := ⟨#[]⟩
  tables := contents.tables.stream none []
  pdb := none

def file : ImageFile where
  data := contents.encode
  kind := .metadata
  metadataStart := 0
  metadataSize := contents.encode.size
  metadata_le := Nat.le_of_eq (Nat.zero_add _)

variable {contents : ImageContents}

theorem read_encode_eq_metadata (fits : contents.Fits) :
    Metadata.read contents.encode = .ok contents.metadata := by
  have bodies := RootContents.streamBytes_headersFrom
    (RootContents.holdsAt_encode contents.root []).2.2
  simp only [root, RootContents.headersFrom, List.map_cons, List.cons.injEq, Prod.mk.injEq,
    true_and] at bodies
  rcases bodies with ⟨tables, names, blobs, _⟩
  have noPdb : Metadata.readPdb contents.encode contents.root.root = .ok none := rfl
  have tablesHeader : Metadata.tablesHeader? contents.root.root =
      some ⟨contents.root.streamsStart, (contents.tables.encode none []).toList.length, "#~"⟩ := rfl
  have noGuids : Metadata.bytesOf contents.encode contents.root.root "#GUID" = #[] := rfl
  have namesBytes : Metadata.bytesOf contents.encode contents.root.root "#Strings" =
      contents.nameBytes.toArray := names
  have blobBytes : Metadata.bytesOf contents.encode contents.root.root "#Blob" =
      (0 :: contents.blobs).toArray := blobs
  have tablesBytes : Metadata.streamBytes contents.encode
      ⟨contents.root.streamsStart, (contents.tables.encode none []).toList.length, "#~"⟩ =
        contents.tables.encode none [] := tables
  rw [Metadata.read, encode, RootContents.read_encode_eq_root fits.root, Error.ok_bind, ← encode,
    noPdb, Error.ok_bind]
  simp only [tablesHeader, tablesBytes, Option.map_none,
    TablesContents.read_encode_eq_stream fits.tables, Error.ok_bind, namesBytes, blobBytes, noGuids]
  rfl

theorem recognize_encode [ExecutableParser] (fits : contents.Fits) :
    ImageFile.recognize contents.encode = .ok (.metadata, 0, contents.encode.size) := by
  have magic : contents.encode.number 0 4 = MetadataRoot.magic :=
    (RootContents.start_encode fits.root []).1
  have holds := (RootContents.holdsAt_encode contents.root []).1
  have inside := holds.le_size
  rw [RootContents.length_start, ← encode] at inside
  have start : contents.root.start = Bytes.ofNumber 2 0x5342 ++ contents.root.start.drop 2 := rfl
  rw [start, Bytes.holdsAt_append] at holds
  have mark : contents.encode.number 0 2 = 0x5342 := Bytes.number_of_holdsAt holds.1 (by decide)
  have nonempty : ¬Array.isEmpty contents.encode = true := by
    rw [Array.isEmpty, decide_eq_true_iff]
    omega
  have firstTwo : contents.encode.number? 0 2 = some 0x5342 := by
    rw [Bytes.number?, if_pos (by omega), mark]
  have firstFour : contents.encode.number? 0 4 = some MetadataRoot.magic := by
    rw [Bytes.number?, if_pos (by omega), magic]
  rw [ImageFile.recognize, if_neg nonempty, firstTwo, if_neg (by decide), firstFour, if_pos rfl]

theorem ofBytes_encode [ExecutableParser] (path : Path) (fits : contents.Fits) :
    Image.ofBytes path contents.encode = .ok ⟨path, contents.file, contents.metadata⟩ := by
  have whole : contents.file.metadata = contents.encode := by
    rw [ImageFile.metadata, Bytes.slice, file, Nat.zero_add, Array.extract_size]
  have file : ImageFile.ofBytes contents.encode = .ok contents.file := by
    rw [ImageFile.ofBytes, recognize_encode fits, Error.ok_bind]
    exact dif_pos (Nat.le_of_eq (Nat.zero_add _))
  rw [Image.ofBytes, file, Error.ok_bind, whole, read_encode_eq_metadata fits]
  rfl

/-! ## What a written image answers -/

theorem mapM_string_metadata (fits : contents.Fits) :
    (StringHeap.startsFrom 1 contents.names).mapM contents.metadata.string =
      .ok contents.names := by
  have holds := Bytes.holdsAt_toArray [0] (contents.names.flatMap StringHeap.encodeText)
  exact StringHeap.mapM_get_startsFrom fits.names (Nat.succ_ne_zero 0) holds

section Tables

variable {ρ : Type} [Row ρ]

/-- A table of the image with the rows that were written. -/
theorem exists_table_metadata (fits : contents.Fits)
    {written : List (Entries (Row.table ρ).columns)}
    (found : contents.tables.tables (Row.table ρ) = some (.rows written)) :
    ∃ table, contents.metadata.table? ρ = some table ∧ table.rowCount = written.length ∧
      ∀ rid, table.get? rid =
        if rid = 0 then none
        else written[rid - 1]?.map fun entries => Row.ofCells rid entries.cells := by
  rcases TablesContents.read_encode fits.tables [] with ⟨stream, read, _, _, answers⟩
  cases read.symm.trans (TablesContents.read_encode_eq_stream fits.tables [])
  exact answers ρ written found

theorem row?_metadata (fits : contents.Fits) {written : List (Entries (Row.table ρ).columns)}
    (found : contents.tables.tables (Row.table ρ) = some (.rows written)) {index : Nat}
    {entries : Entries (Row.table ρ).columns} (atIndex : written[index]? = some entries) :
    contents.metadata.row? ρ (index + 1) = some (Row.ofCells (index + 1) entries.cells) := by
  rcases exists_table_metadata fits found with ⟨table, present, _, get⟩
  rw [Metadata.row?_eq present, get, if_neg (Nat.succ_ne_zero index), Nat.add_sub_cancel, atIndex]
  rfl

theorem rows_metadata (fits : contents.Fits) {written : List (Entries (Row.table ρ).columns)}
    (found : contents.tables.tables (Row.table ρ) = some (.rows written)) :
    contents.metadata.rows ρ = (List.range' 1 written.length).filterMap fun rid =>
      written[rid - 1]?.map fun entries => Row.ofCells rid entries.cells := by
  rcases exists_table_metadata fits found with ⟨table, present, count, get⟩
  have intact : table.Intact := by
    intro rid positive inside
    have atRid : written[rid - 1]? = some written[rid - 1] := List.getElem?_eq_getElem (by omega)
    exact ⟨_, by rw [get, if_neg (by omega), atRid, Option.map_some]⟩
  rw [Metadata.rows, present]
  dsimp only
  rw [Table.rows_eq_filterMap intact, count]
  apply List.filterMap_congr
  intro rid member
  rw [get, if_neg (by have := List.mem_range'_1.mp member; omega)]

theorem rows_metadata_of_absent (fits : contents.Fits)
    (absent : contents.tables.tables (Row.table ρ) = none) : contents.metadata.rows ρ = [] := by
  rcases TablesContents.read_encode fits.tables [] with ⟨stream, read, _, none, _⟩
  cases read.symm.trans (TablesContents.read_encode_eq_stream fits.tables [])
  have noTable : contents.metadata.table? ρ = Option.none := none ρ absent
  rw [Metadata.rows, noTable]

end Tables

end ImageContents

end CilLoader
