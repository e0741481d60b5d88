import CilLoader.Metadata.Debug
import CilLoader.Proofs.Bytes.Rounds
import CilLoader.Proofs.Heap.Lookups
import CilLoader.Proofs.Stream.WrittenImage
import CilLoader.Proofs.Text.Parts

/-!
# Document names

The name of a document is stored as a separator and a reference to each of its parts. The parts are
blobs; an empty part may be a blob without bytes or no blob at all. Reading the name puts the
separator between any two parts, and so gives back the path that was cut, wherever separators stand
in it.
-/

namespace CilLoader

namespace DocumentName

/-- What stands between two parts. The separator zero puts nothing there. -/
def between (separator : UInt8) : String :=
  if separator = 0 then "" else String.singleton (Char.ofNat separator.toNat)

/-- A path is cut wherever the separator stands. Without a separator it may be cut anywhere. -/
def IsCut (separator : UInt8) (path : String) (parts : List String) : Prop :=
  if separator = 0 then String.join parts = path
  else parts = (Text.cut (Char.ofNat separator.toNat) path.toList).map String.ofList

instance (separator : UInt8) (path : String) (parts : List String) :
    Decidable (IsCut separator path parts) :=
  inferInstanceAs (Decidable (if separator = 0 then _ else _))

/-- References to parts, one behind the other, each in any form of its number. -/
inductive References (blobs : BlobHeap) :
    (parts : List String) → (written : List UInt8) → Prop where
  | none : References blobs [] []
  | part {part : String} {parts : List String} {index : Nat} {reference written : List UInt8}
      (stored : blobs.Stores index (StringHeap.textBytes part).toArray)
      (form : Compressed.Form index reference) (others : References blobs parts written) :
      References blobs (part :: parts) (reference ++ written)

variable {blobs : BlobHeap} {parts : List String} {written : List UInt8}

/-! ## Reading parts -/

open Decoder

theorem recovers_namePart {part : String} {index : Nat} {reference : List UInt8}
    (stored : blobs.Stores index (StringHeap.textBytes part).toArray)
    (form : Compressed.Form index reference) :
    (Metadata.namePart blobs).Recovers reference part := by
  have found := BlobHeap.stores_iff.mp stored
  rw [← List.append_nil reference]
  apply (recovers_compressed form).bind
  apply (recovers_ofExcept found).bind
  rw [StringHeap.decode?_textBytes]
  exact recovers_succeed part

theorem between_eq (separator : UInt8) :
    between separator =
      if separator.toNat = 0 then "" else String.singleton (Char.ofNat separator.toNat) := by
  have same : separator.toNat = 0 ↔ separator = 0 := UInt8.toNat_inj (b := 0)
  simp only [between, same]

theorem recovers_separator (separator : UInt8) : byte.Recovers [separator] separator.toNat := by
  have recovers := recovers_byte separator.toNat_lt
  rwa [UInt8.ofNat_toNat] at recovers

/-- One round for each part, which is put in front of those before it. -/
theorem References.rounds (references : References blobs parts written) (before : List String) :
    Rounds (fun parts => do return (← Metadata.namePart blobs) :: parts) before written
      (parts.reverse ++ before) := by
  induction references generalizing before with
  | none => exact .done before
  | @part part parts index reference written stored form _ induction =>
      have nonempty : reference ≠ [] := by
        cases form
        exact List.cons_ne_nil _ _
      have first := (recovers_namePart stored form).map (· :: before)
      rw [List.reverse_cons, List.append_assoc]
      exact .round nonempty first (induction (part :: before))

theorem References.run_eq (references : References blobs parts written) (separator : UInt8) :
    (Metadata.documentNameDecoder blobs).run (separator :: written).toArray =
      .ok (String.intercalate (between separator) parts) := by
  have whole : RecoversLast (Metadata.documentNameDecoder blobs) ([separator] ++ written)
      (String.intercalate (between separator) parts) := by
    apply RecoversLast.hasMore_bind (List.cons_ne_nil separator written)
    rw [if_pos rfl]
    apply (recovers_separator separator).bindLast
    have joined := (references.rounds []).recoversLast.map fun reversed =>
      String.intercalate (between separator) reversed.reverse
    rw [List.append_nil, List.reverse_reverse, between_eq] at joined
    rwa [between_eq]
  exact whole.run_eq

/-! ## Paths -/

theorem intercalate_empty (parts : List String) :
    String.intercalate "" parts = String.join parts := by
  induction parts with
  | nil => rw [String.intercalate_nil, String.join_nil]
  | cons part parts induction =>
      by_cases last : parts = []
      · rw [last, String.intercalate_singleton, String.join_cons, String.join_nil,
          String.append_empty]
      · rw [String.intercalate_cons_of_ne_nil last, String.append_empty, induction,
          String.join_cons]

theorem intercalate_of_isCut {separator : UInt8} {path : String}
    (isCut : IsCut separator path parts) :
    String.intercalate (between separator) parts = path := by
  rw [IsCut] at isCut
  split at isCut
  case isTrue none =>
    rw [between, if_pos none, intercalate_empty, isCut]
  case isFalse some =>
    rw [between, if_neg some, isCut]
    apply String.toList_inj.mp
    simp only [String.toList_intercalate, String.toList_singleton, List.map_map, Function.comp_def,
      String.toList_ofList, List.map_id', Text.intercalate_cut]

end DocumentName

namespace Metadata

open DocumentName

/-- The parts of a name come back joined, and a path that was cut comes back whole. -/
theorem documentName_joins_parts {metadata : Metadata} {rid : Nat} {row : DocumentRow}
    {separator : UInt8} {parts : List String} {written : List UInt8}
    (present : metadata.row? DocumentRow rid = some row)
    (references : References metadata.blobs parts written)
    (stored : metadata.blobs.Stores row.name (separator :: written).toArray) :
    metadata.documentName rid = .ok (String.intercalate (between separator) parts) ∧
      ∀ path, IsCut separator path parts → metadata.documentName rid = .ok path := by
  have joined :
      metadata.documentName rid = .ok (String.intercalate (between separator) parts) := by
    rw [documentName, requireRow, present]
    dsimp only
    rw [Error.ok_bind, blob, BlobHeap.stores_iff.mp stored, Error.ok_bind]
    exact references.run_eq separator
  refine ⟨joined, ?_⟩
  intro path isCut
  rw [joined, intercalate_of_isCut isCut]

/-- Two documents. The empty parts of the first name are no blob and an empty blob, and the second
name has no separator. -/
def documentContents : ImageContents where
  tables := {
    major := 2
    minor := 0
    heapSizes := 0
    sorted := 0
    reserved := (0, 1)
    tables
      | .document => some (.rows [(14, 0, 0, 0, ()), (20, 0, 0, 0, ())])
      | _ => none }
  names := []
  blobs := [3, 0x73, 0x72, 0x63, 0, 7, 0x4D, 0x61, 0x69, 0x6E, 0x2E, 0x63, 0x73,
    5, 0x2F, 0, 1, 5, 6, 3, 0, 1, 6]

theorem fits_documentContents : documentContents.Fits where
  root := {
    version := by decide +kernel
    someStreams := by decide
    fewStreams := by decide
    headers := by decide +kernel }
  tables := by
    constructor
    · intro table count found
      cases table <;> cases found
      decide +kernel
    · intro table tableContents found
      cases table <;> cases found
      decide +kernel
  names := by decide +kernel

theorem documentName_joins_parts_documents :
    Metadata.read documentContents.encode = .ok documentContents.metadata ∧
      documentContents.metadata.documentName 1 = .ok "/src//Main.cs" ∧
      documentContents.metadata.documentName 2 = .ok "srcMain.cs" := by
  have rowAt (index : Nat) (entries : Entries TableId.document.columns)
      (atIndex : [(14, 0, 0, 0, ()), (20, 0, 0, 0, ())][index]? = some entries) :
      documentContents.metadata.row? DocumentRow (index + 1) =
        some (Row.ofCells (index + 1) entries.cells) :=
    ImageContents.row?_metadata fits_documentContents rfl atIndex
  have stored (index : Nat) (blob : Bytes)
      (found : (documentContents.metadata.blobs.get index).toOption = some blob) :
      documentContents.metadata.blobs.Stores index blob :=
    BlobHeap.stores_iff.mpr (Error.toOption_eq_some.mp found)
  have reference (index : Nat) (small : index < 2 ^ 29) :
      Compressed.Form index (Compressed.encode index) := Compressed.form_encode small
  have file : References documentContents.metadata.blobs ["Main.cs"] [6] :=
    .part (stored 6 _ (by decide +kernel)) (reference 6 (by decide)) .none
  have parts : References documentContents.metadata.blobs ["", "src", "", "Main.cs"]
      [0, 1, 5, 6] :=
    .part (stored 0 _ (by decide +kernel)) (reference 0 (by decide)) <|
      .part (stored 1 _ (by decide +kernel)) (reference 1 (by decide)) <|
        .part (stored 5 _ (by decide +kernel)) (reference 5 (by decide)) file
  have pieces : References documentContents.metadata.blobs ["src", "Main.cs"] [1, 6] :=
    .part (stored 1 _ (by decide +kernel)) (reference 1 (by decide)) file
  have first := documentName_joins_parts (rowAt 0 _ rfl) parts
    (stored 14 (0x2F :: [0, 1, 5, 6]).toArray (by decide +kernel))
  have second := documentName_joins_parts (rowAt 1 _ rfl) pieces
    (stored 20 (0 :: [1, 6]).toArray (by decide +kernel))
  refine ⟨ImageContents.read_encode_eq_metadata fits_documentContents, ?_, ?_⟩
  · exact first.2 "/src//Main.cs" (by decide +kernel)
  · exact second.2 "srcMain.cs" (by decide +kernel)

end Metadata

end CilLoader
