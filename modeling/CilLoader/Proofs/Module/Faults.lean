import CilLoader.Proofs.Context.Loading

/-!
# What loading can fail with

Whatever goes wrong while a module is made of the file at a path, the error says what is wrong with
that file: it cannot be read, its bytes are damaged, it is no assembly, or one with another name.
Only asking for a name can show that there is no file for it.
-/

namespace CilLoader

namespace Error

def BlamesFile : Error → Prop
  | malformed _ | outOfBounds | notSupported | empty | damagedContainer => True
  | fileNotFound | notADirectory | isADirectory | tooManyLinks => True
  | notAnAssembly _ | nameMismatch .. => True
  | _ => False

/-- If it fails, the error is about the file. -/
def Blaming (result : Except Error α) : Prop :=
  ∀ error, result = .error error → error.BlamesFile

theorem blaming_ok (value : α) : Blaming (.ok value : Except Error α) := by
  rintro _ ⟨⟩

theorem blaming_error {error : Error} (blames : error.BlamesFile) :
    Blaming (.error error : Except Error α) := by
  rintro _ ⟨rfl⟩
  exact blames

theorem Blaming.bind {first : Except Error α} {next : α → Except Error β}
    (blaming : Blaming first) (blamingNext : ∀ value, Blaming (next value)) :
    Blaming (first >>= next) := by
  cases first with
  | error error => exact blaming_error (blaming error rfl)
  | ok value => exact blamingNext value

theorem Blaming.map {first : Except Error α} (blaming : Blaming first) (change : α → β) :
    Blaming (first.map change) := by
  cases first with
  | error error => exact blaming_error (blaming error rfl)
  | ok value => exact blaming_ok (change value)

end Error

open Error

namespace Decoder

def Blaming (decoder : Decoder α) : Prop :=
  ∀ data position, Error.Blaming (decoder data position).1

theorem blaming_succeed (value : α) : Blaming (succeed value) :=
  fun _ _ => blaming_ok value

theorem Blaming.bind {first : Decoder α} {next : α → Decoder β} (blaming : Blaming first)
    (blamingNext : ∀ value, Blaming (next value)) : Blaming (first >>= next) := by
  intro data position
  rw [bind_apply]
  cases outcome : first data position with
  | mk result stop =>
      cases result with
      | error error => exact blaming_error (blaming data position error (by rw [outcome]))
      | ok value => exact blamingNext value data stop

theorem blaming_number (width : Nat) : Blaming (number width) := by
  intro data position
  rw [number]
  split
  · exact blaming_ok _
  · exact blaming_error trivial

theorem blaming_bytes (length : Nat) : Blaming (bytes length) := by
  intro data position
  rw [bytes]
  split
  · exact blaming_ok _
  · exact blaming_error trivial

theorem blaming_mapM {act : α → Decoder β} (blaming : ∀ item, Blaming (act item))
    (items : List α) : Blaming (items.mapM act) := by
  induction items with
  | nil => exact blaming_succeed []
  | cons item items induction =>
      rw [List.mapM_cons]
      exact (blaming item).bind fun _ => induction.bind fun _ => blaming_succeed _

theorem blaming_moreBytes (count value : Nat) : Blaming (moreBytes count value) := by
  induction count generalizing value with
  | zero => exact blaming_succeed value
  | succ count induction => exact (blaming_number 1).bind fun next => induction _

theorem blaming_compressed : Blaming compressed := by
  refine Blaming.bind ((blaming_number 1).bind fun first => ?_) fun _ => blaming_succeed _
  cases Compressed.width? first with
  | none => exact fun _ _ => blaming_error trivial
  | some _ => exact (blaming_moreBytes _ _).bind fun _ => blaming_succeed _

end Decoder

/-! ## Bytes -/

theorem Section.blaming_locate (parts : List Section) (address : Nat) :
    Blaming (locate parts address) := by
  rw [locate]
  split
  · exact blaming_error trivial
  · induction parts with
    | nil => exact blaming_error trivial
    | cons part parts induction =>
        rw [search]
        split
        · exact blaming_error trivial
        · split
          · exact blaming_ok _
          · exact induction

theorem Executable.blaming_locateMetadata [ExecutableParser] (data : Bytes) :
    Blaming (locateMetadata data) := by
  have blamingHeaders : Blaming (readHeaders data) := by
    rw [readHeaders]
    split
    · exact blaming_error trivial
    · exact blaming_ok _
  apply blamingHeaders.bind
  intro headers
  split
  · exact blaming_error trivial
  · split
    · exact blaming_error trivial
    · apply (Section.blaming_locate _ _).bind
      intro header
      dsimp only
      split
      · exact blaming_error trivial
      · split
        · exact blaming_error trivial
        · exact (Section.blaming_locate _ _).bind fun _ => blaming_ok _

theorem ImageFile.blaming_ofBytes [ExecutableParser] (data : Bytes) : Blaming (ofBytes data) := by
  have blamingKind : Blaming (recognize data) := by
    rw [recognize]
    split
    · exact blaming_error trivial
    · split
      · exact (Executable.blaming_locateMetadata data).bind fun _ => blaming_ok _
      · split
        · exact blaming_ok _
        · exact blaming_error trivial
  apply blamingKind.bind
  rintro ⟨kind, start, size⟩
  dsimp only
  split
  · exact blaming_ok _
  · exact blaming_error trivial

theorem StreamHeader.blaming_read (data : Bytes) (position : Nat) :
    Blaming (read data position) := by
  rw [read]
  split
  · exact blaming_error trivial
  · dsimp only
    split
    · exact blaming_error trivial
    · split
      · exact blaming_ok _
      · exact blaming_error trivial

theorem MetadataRoot.blaming_readHeaders (data : Bytes) (count position : Nat) :
    Blaming (readHeaders data count position) := by
  induction count generalizing position with
  | zero => exact blaming_ok []
  | succ count induction =>
      rw [readHeaders]
      split
      · exact blaming_error trivial
      · apply (StreamHeader.blaming_read data position).bind
        intro header
        split
        · exact blaming_error trivial
        · split
          · exact blaming_error trivial
          · exact (induction _).bind fun _ => blaming_ok _

theorem MetadataRoot.blaming_read (data : Bytes) : Blaming (read data) := by
  rw [read]
  split
  · exact blaming_error trivial
  · split
    · exact blaming_error trivial
    · dsimp only
      split
      · exact blaming_error trivial
      · split
        · exact blaming_error trivial
        · exact (blaming_readHeaders data _ _).bind fun _ => blaming_ok _

theorem RowCounts.blaming_decoder (mask : Nat) : (decoder mask).Blaming := by
  refine (Decoder.blaming_mapM (fun slot => ?_) _).bind fun _ => Decoder.blaming_succeed _
  split
  · exact Decoder.blaming_number 4
  · exact Decoder.blaming_succeed 0

theorem PdbStream.blaming_read (data : Bytes) : Blaming (read data) := by
  have blaming : decoder.Blaming :=
    (Decoder.blaming_bytes 20).bind fun _ => (Decoder.blaming_number 4).bind fun _ =>
      (Decoder.blaming_number 8).bind fun mask => (RowCounts.blaming_decoder mask).bind fun _ =>
        Decoder.blaming_succeed _
  exact blaming data 0

theorem TablesStream.blaming_read (data : Bytes) (external : Option RowCounts) :
    Blaming (read data external) := by
  rw [read]
  split
  · exact blaming_error trivial
  · have blamingCounts := RowCounts.blaming_decoder (data.number 8 8) data headerSize
    dsimp only
    split
    · rename_i error _ failed
      rw [failed] at blamingCounts
      exact blaming_error (blamingCounts error rfl)
    · split
      · exact blaming_error trivial
      · split
        · exact blaming_error trivial
        · exact blaming_ok _

theorem StringHeap.blaming_get (heap : StringHeap) (index : Nat) : Blaming (heap.get index) := by
  rw [get]
  split
  · exact blaming_ok _
  · split
    · exact blaming_error trivial
    · split
      · exact blaming_error trivial
      · split
        · exact blaming_ok _
        · exact blaming_error trivial

theorem BlobHeap.blaming_get (heap : BlobHeap) (index : Nat) : Blaming (heap.get index) := by
  rw [get]
  split
  · exact blaming_ok _
  · split
    · exact blaming_error trivial
    · exact (Decoder.blaming_compressed.bind fun _ => Decoder.blaming_bytes _) _ _

theorem Metadata.blaming_read (data : Bytes) : Blaming (read data) := by
  apply (MetadataRoot.blaming_read data).bind
  intro root
  have blamingPdb : Blaming (readPdb data root) := by
    rw [readPdb]
    split
    · exact blaming_ok none
    · exact (PdbStream.blaming_read _).map some
  apply blamingPdb.bind
  intro pdb
  split
  · exact blaming_error trivial
  · refine (TablesStream.blaming_read _ _).bind fun tables => ?_
    have blamingStrings : ∀ bytes, Blaming (StringHeap.ofBytes bytes) := by
      intro bytes
      rw [StringHeap.ofBytes]
      split
      · exact blaming_ok _
      · exact blaming_error trivial
    have blamingBlobs : ∀ bytes, Blaming (BlobHeap.ofBytes bytes) := by
      intro bytes
      rw [BlobHeap.ofBytes]
      split
      · exact blaming_ok _
      · exact blaming_error trivial
    exact (blamingStrings _).bind fun _ => (blamingBlobs _).bind fun _ => blaming_ok _

theorem Metadata.blaming_identity? (metadata : Metadata) : Blaming metadata.identity? := by
  rw [identity?]
  split
  · exact blaming_ok none
  · exact (metadata.strings.blaming_get _).bind fun _ =>
      (metadata.strings.blaming_get _).bind fun _ =>
        (metadata.blobs.blaming_get _).bind fun _ => blaming_ok _

/-! ## Files -/

namespace FileSystem

variable (system : FileSystem) (path : Path)

theorem blaming_walk {jump : Place → List (List Char) → Except Error Place}
    (blamingJump : ∀ place parts, Blaming (jump place parts)) (place : Place)
    (parts : List (List Char)) : Blaming (system.walk jump place parts) := by
  induction parts generalizing place with
  | nil => exact blaming_ok place
  | cons part parts induction =>
      rw [walk]
      split
      · exact blaming_error trivial
      split
      · exact induction place
      split
      · exact induction place.dropLast
      dsimp only
      split
      · exact blamingJump _ _
      split
      · exact induction (place ++ [part])
      · exact blaming_error trivial

theorem blaming_followWithin (links : Nat) (place : Place) (parts : List (List Char)) :
    Blaming (system.followWithin links place parts) := by
  induction links generalizing place parts with
  | zero =>
      have refuses : BlamesFile .tooManyLinks := trivial
      exact system.blaming_walk (fun _ _ => blaming_error refuses) place parts
  | succ links induction => exact system.blaming_walk induction place parts

theorem blaming_find : Blaming (system.find path) := by
  rw [find]
  split
  · exact blaming_error trivial
  · exact system.blaming_followWithin maxLinks [] path.parts

theorem blaming_canonicalize : Blaming (system.canonicalize path) :=
  (system.blaming_find path).bind fun place => blaming_ok (pathOf place)

theorem blaming_read : Blaming (system.read path) := by
  apply (system.blaming_find path).bind
  intro place
  split
  · exact blaming_ok _
  · exact blaming_error trivial

end FileSystem

theorem Image.blaming_ofBytes [ExecutableParser] (path : Path) (data : Bytes) :
    Blaming (ofBytes path data) :=
  (ImageFile.blaming_ofBytes data).bind fun _ =>
    (Metadata.blaming_read _).bind fun _ => blaming_ok _

namespace Module

theorem blaming_ofImage (id : ModuleId) (image : Image) (expected : Option String) :
    Blaming (ofImage id image expected) := by
  apply image.metadata.blaming_identity?.bind
  intro declared
  split
  · exact blaming_error trivial
  · split
    · exact blaming_ok _
    · split
      · exact blaming_ok _
      · exact blaming_error trivial

theorem blaming_atPath [ExecutableParser] (system : FileSystem) (id : ModuleId) (path : Path)
    (expected : Option String) : Blaming (atPath system id path expected) :=
  (system.blaming_canonicalize path).bind fun canonical =>
    ((system.blaming_read canonical).bind fun data => Image.blaming_ofBytes canonical data).bind
      fun image => blaming_ofImage id image expected

end Module

end CilLoader
