import CilLoader.ImageFile
import CilLoader.Metadata.Debug

/-!
# Images

An image as the loader works with it: the file it came from and the metadata in it.
-/

namespace CilLoader

structure Image where
  path : Path
  file : ImageFile
  metadata : Metadata
deriving DecidableEq, Repr

namespace Image

def ofBytes [ExecutableParser] (path : Path) (data : Bytes) : Except Error Image := do
  let file ← ImageFile.ofBytes data
  let metadata ← Metadata.read file.metadata
  return { path, file, metadata }

def kind (image : Image) : ImageKind :=
  image.file.kind

def size (image : Image) : Nat :=
  image.file.data.size

end Image

end CilLoader
