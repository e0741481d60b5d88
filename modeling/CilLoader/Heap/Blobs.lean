import CilLoader.Bytes.Compressed

/-!
# The blob heap

A blob is stored behind its compressed length and named by the position of that length. Position
zero is the empty blob.
-/

namespace CilLoader

structure BlobHeap where
  data : Bytes
deriving DecidableEq, Repr

namespace BlobHeap

/-- A heap is empty or starts with the zero length of the empty blob. -/
def ofBytes (data : Bytes) : Except Error BlobHeap :=
  if data.isEmpty ∨ data.byteAt 0 = 0 then .ok ⟨data⟩
  else .error (.malformed .blobHeapStart)

def entry : Decoder Bytes := do
  let length ← Decoder.compressed
  Decoder.bytes length

def get (heap : BlobHeap) (index : Nat) : Except Error Bytes :=
  if index = 0 then .ok #[]
  else if heap.data.size ≤ index then .error .outOfBounds
  else (entry heap.data index).1

end BlobHeap

end CilLoader
