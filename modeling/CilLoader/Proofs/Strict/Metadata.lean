import CilLoader.Metadata
import CilLoader.Proofs.Strict.Heaps
import CilLoader.Proofs.Strict.Tables

/-!
# Strict reading of metadata

Metadata are located with strict slices and sums. No data make the strict reader fault, and what it
finds lies inside the data.
-/

namespace CilLoader

namespace Strict

/-- The bytes of a stream. Its end is a sum of words. -/
def stream (data : Bytes) (header : StreamHeader) : Strict Bytes := do
  slice data header.offset (← fit UInt32.size (header.offset + header.size))

def bytesOf (data : Bytes) (root : MetadataRoot) (name : String) : Strict Bytes :=
  match root.stream? name with
  | some header => stream data header
  | none => return #[]

def pdb (data : Bytes) (root : MetadataRoot) : Attempt (Option PdbStream) :=
  match root.stream? "#Pdb" with
  | none => return none
  | some header => return some (← Decoder.Guarded.pdbStream.attempt (← stream data header) 0)

def metadata (data : Bytes) : Attempt Metadata := do
  let root ← root data
  let pdb ← pdb data root
  match Metadata.tablesHeader? root with
  | none => throw (.malformed .noTablesStream)
  | some header =>
    let tables ← tables (← stream data header) (pdb.map (·.rows))
    let strings ← StringHeap.ofBytes (← bytesOf data root "#Strings")
    let blobs ← BlobHeap.ofBytes (← bytesOf data root "#Blob")
    return { root, strings, blobs, guids := ⟨← bytesOf data root "#GUID"⟩, tables, pdb }

end Strict

theorem MetadataRoot.mem_of_stream? {root : MetadataRoot} {name : String} {header : StreamHeader}
    (found : root.stream? name = some header) : header ∈ root.streams :=
  List.mem_of_find?_eq_some found

theorem Metadata.mem_of_tablesHeader? {root : MetadataRoot} {header : StreamHeader}
    (found : tablesHeader? root = some header) : header ∈ root.streams := by
  rw [tablesHeader?] at found
  cases compressed : root.stream? "#~" with
  | some header =>
      rw [compressed] at found
      cases found
      exact MetadataRoot.mem_of_stream? compressed
  | none =>
      rw [compressed] at found
      exact MetadataRoot.mem_of_stream? found

theorem StreamHeader.Inside.size_streamBytes {header : StreamHeader} {data : Bytes}
    (inside : header.Inside data) : (Metadata.streamBytes data header).size = header.size := by
  rw [Metadata.streamBytes, Bytes.size_slice inside.2, Nat.add_sub_cancel_left]

theorem StreamHeader.Inside.size_lt {header : StreamHeader} {data : Bytes}
    (inside : header.Inside data) : (Metadata.streamBytes data header).size < UInt32.size := by
  rw [inside.size_streamBytes]
  exact Nat.lt_of_le_of_lt (Nat.le_add_left _ _) inside.1

theorem Metadata.size_bytesOf_lt {root : MetadataRoot} {data : Bytes}
    (inside : ∀ header ∈ root.streams, header.Inside data) (name : String) :
    (bytesOf data root name).size < UInt32.size := by
  rw [bytesOf]
  split
  · rename_i header found
    exact (inside header (MetadataRoot.mem_of_stream? found)).size_lt
  · decide

theorem Metadata.areWords_of_readPdb {root : MetadataRoot} {data : Bytes} {pdb : Option PdbStream}
    (found : readPdb data root = .ok pdb) :
    ∀ rows, pdb.map (·.rows) = some rows → rows.AreWords := by
  intro rows same
  rw [readPdb] at found
  split at found
  · cases found
    cases same
  · rename_i header _
    rw [PdbStream.read, Decoder.run] at found
    rcases run : PdbStream.decoder (streamBytes data header) 0 with ⟨error | stream, stop⟩
    · rw [run] at found
      cases found
    · rw [run] at found
      cases found
      cases same
      exact PdbStream.areWords_returned run

namespace Metadata

/-- The sizes of the streams in use are words of 32 bits, and the tables lie inside theirs. -/
structure Inside (metadata : Metadata) : Prop where
  blobs : metadata.blobs.data.size < UInt32.size
  tables : metadata.tables.Inside

/-- What is read, when reading succeeds. -/
theorem parts_of_read {data : Bytes} {metadata : Metadata} (found : read data = .ok metadata) :
    MetadataRoot.read data = .ok metadata.root ∧
      readPdb data metadata.root = .ok metadata.pdb ∧
      (∃ header, tablesHeader? metadata.root = some header ∧
        TablesStream.read (streamBytes data header) (metadata.pdb.map (·.rows)) =
          .ok metadata.tables) ∧
      metadata.blobs.data = bytesOf data metadata.root "#Blob" := by
  obtain ⟨root, rootRead, found⟩ := Error.bind_eq_ok.mp found
  obtain ⟨pdb, pdbRead, found⟩ := Error.bind_eq_ok.mp found
  cases present : tablesHeader? root with
  | none =>
      rw [present] at found
      cases found
  | some header =>
      rw [present] at found
      obtain ⟨tables, tablesRead, found⟩ := Error.bind_eq_ok.mp found
      obtain ⟨strings, _, found⟩ := Error.bind_eq_ok.mp found
      obtain ⟨blobs, blobsRead, found⟩ := Error.bind_eq_ok.mp found
      cases found
      refine ⟨rootRead, pdbRead, ⟨header, present, tablesRead⟩, ?_⟩
      rw [BlobHeap.ofBytes] at blobsRead
      split at blobsRead <;> cases blobsRead
      rfl

theorem inside_of_read {data : Bytes} {metadata : Metadata} (found : read data = .ok metadata) :
    metadata.Inside := by
  obtain ⟨rootRead, pdbRead, ⟨header, present, tablesRead⟩, blobs⟩ := parts_of_read found
  have inside := MetadataRoot.inside_of_read rootRead
  exact {
    blobs := blobs ▸ size_bytesOf_lt inside "#Blob"
    tables := TablesStream.inside_of_read (inside header (mem_of_tablesHeader? present)).size_lt
      (areWords_of_readPdb pdbRead) tablesRead }

end Metadata

namespace Strict

variable {data : Bytes} {root : MetadataRoot}

theorem stream_eq {header : StreamHeader} (inside : header.Inside data) :
    stream data header = .ok (Metadata.streamBytes data header) := by
  rw [stream, bind_of_ok (fit_of_lt inside.1)]
  exact slice_of_le (Nat.le_add_right _ _) inside.2

theorem bytesOf_eq (inside : ∀ header ∈ root.streams, header.Inside data) (name : String) :
    bytesOf data root name = .ok (Metadata.bytesOf data root name) := by
  rw [bytesOf, Metadata.bytesOf]
  cases found : root.stream? name with
  | none => rfl
  | some header => exact stream_eq (inside header (MetadataRoot.mem_of_stream? found))

theorem pdb_yields (inside : ∀ header ∈ root.streams, header.Inside data) :
    (pdb data root).Yields (Metadata.readPdb data root) := by
  rw [pdb, Metadata.readPdb]
  cases found : root.stream? "#Pdb" with
  | none => exact .pure none
  | some header =>
      refine .step (stream_eq (inside header (MetadataRoot.mem_of_stream? found))) ?_
      have read := Decoder.Guarded.pdbStream.attempt_yields (Metadata.streamBytes data header) 0
      dsimp only
      rw [PdbStream.read, Decoder.run]
      exact .map some read

theorem metadata_yields (data : Bytes) : (metadata data).Yields (Metadata.read data) := by
  refine .bind (root_yields data) fun root found => ?_
  have inside := MetadataRoot.inside_of_read found
  refine .bind (pdb_yields inside) fun pdb read => ?_
  cases tables : Metadata.tablesHeader? root with
  | none => exact .throw _
  | some header =>
      refine .step (stream_eq (inside header (Metadata.mem_of_tablesHeader? tables))) ?_
      refine .bind (tables_yields _ (Metadata.areWords_of_readPdb read)) fun tables _ => ?_
      refine .step (bytesOf_eq inside _) (.bind (.ofExcept _) fun strings _ => ?_)
      refine .step (bytesOf_eq inside _) (.bind (.ofExcept _) fun blobs _ => ?_)
      exact .step (bytesOf_eq inside _) (.pure _)

end Strict

end CilLoader
