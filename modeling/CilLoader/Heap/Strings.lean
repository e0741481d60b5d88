import CilLoader.Error
import CilLoader.Text.Utf8

/-!
# The string heap

Names are stored in UTF-8, each up to a zero byte. A string is named by the position of its first
byte, so that the end of a longer string can serve as a shorter one. Position zero is the empty
string.
-/

namespace CilLoader

structure StringHeap where
  data : Bytes
deriving DecidableEq, Repr

namespace StringHeap

/-- A heap is empty or starts with the zero byte of the empty string. -/
def ofBytes (data : Bytes) : Except Error StringHeap :=
  if data.isEmpty ∨ data.byteAt 0 = 0 then .ok ⟨data⟩
  else .error (.malformed .stringHeapStart)

/-- The position of the first zero byte, looking at `bound` bytes from a position on. -/
def zeroFrom? (data : Bytes) : (bound : Nat) → (position : Nat) → Option Nat
  | 0, _ => none
  | bound + 1, position =>
    if data.byteAt position = 0 then some position else zeroFrom? data bound (position + 1)

def get (heap : StringHeap) (index : Nat) : Except Error String :=
  if index = 0 then .ok ""
  else if heap.data.size ≤ index then .error .outOfBounds
  else
    match zeroFrom? heap.data (heap.data.size - index) index with
    | none => .error (.malformed (.stringUnterminated index))
    | some stop =>
      match Utf8.decode? (heap.data.slice index stop) with
      | some text => .ok text
      | none => .error (.malformed (.stringEncoding index))

end StringHeap

end CilLoader
