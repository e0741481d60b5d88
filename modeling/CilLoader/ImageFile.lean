import CilLoader.Executable
import CilLoader.Stream.Root

/-!
# Image files

An image is either an executable image with metadata inside it or nothing but metadata. Which of
the two it is shows in its first bytes.
-/

namespace CilLoader

inductive ImageKind where
  | executable
  | metadata
deriving DecidableEq, Repr

structure ImageFile where
  data : Bytes
  kind : ImageKind
  metadataStart : Nat
  metadataSize : Nat
  metadata_le : metadataStart + metadataSize ≤ data.size
deriving DecidableEq, Repr

namespace ImageFile

/-- The first two bytes of executable images, `MZ`. -/
def executableMark : Nat := 0x5A4D

def recognize [ExecutableParser] (data : Bytes) : Except Error (ImageKind × Nat × Nat) :=
  if data.isEmpty then .error .empty
  else if data.number? 0 2 = some executableMark then do
    let (start, size) ← Executable.locateMetadata data
    return (.executable, start, size)
  else if data.number? 0 4 = some MetadataRoot.magic then .ok (.metadata, 0, data.size)
  else .error .notSupported

/-- Takes some bytes as an image. Its metadata must lie inside the bytes. -/
def ofBytes [ExecutableParser] (data : Bytes) : Except Error ImageFile := do
  let (kind, start, size) ← recognize data
  if inside : start + size ≤ data.size then .ok ⟨data, kind, start, size, inside⟩
  else .error .outOfBounds

def metadata (file : ImageFile) : Bytes :=
  file.data.slice file.metadataStart (file.metadataStart + file.metadataSize)

def slice (file : ImageFile) (start size : Nat) : Except Error Bytes :=
  if start + size ≤ file.data.size then .ok (file.data.slice start (start + size))
  else .error .outOfBounds

end ImageFile

end CilLoader
