import CilLoader.Bytes
import CilLoader.Error
import CilLoader.Word

/-!
# The identifier heap

Identifiers of sixteen bytes each, counted from one. Number zero stands for none. Where an
identifier starts and where it ends is computed before the heap is asked for it, without a guard.
-/

namespace CilLoader

structure GuidHeap where
  data : Bytes
deriving DecidableEq, Repr

namespace GuidHeap

def get (heap : GuidHeap) (index : Nat) : Except Panic (Except Error (Option Bytes)) :=
  if index = 0 then return .ok none
  else do
    let start ← Word.multiply (index - 1) 16
    let stop ← Word.add start 16
    if stop ≤ heap.data.size then return .ok (some (heap.data.slice start stop))
    else return .error .outOfBounds

variable {index : Nat}

theorem get_zero (heap : GuidHeap) : heap.get 0 = .ok (.ok none) :=
  rfl

theorem get_of_lt (behindNone : index ≠ 0) (room : index * 16 < UInt64.size) (heap : GuidHeap) :
    heap.get index =
      if index * 16 ≤ heap.data.size then
        .ok (.ok (some (heap.data.slice ((index - 1) * 16) (index * 16))))
      else .ok (.error .outOfBounds) := by
  have stop : (index - 1) * 16 + 16 = index * 16 := by omega
  rw [get, if_neg behindNone, Word.multiply_of_lt (by omega)]
  dsimp only [bind, Except.bind]
  rw [Word.add_of_lt (by omega), stop]
  rfl

/-- The start of the identifier is a word, but its end is none. -/
theorem get_of_addOverflow (room : (index - 1) * 16 < UInt64.size)
    (large : UInt64.size ≤ index * 16) (heap : GuidHeap) :
    heap.get index = .error .addOverflow := by
  have behindNone : index ≠ 0 := fun none => absurd large (by rw [none]; decide)
  have stop : (index - 1) * 16 + 16 = index * 16 := by omega
  rw [get, if_neg behindNone, Word.multiply_of_lt room]
  dsimp only [bind, Except.bind]
  rw [Word.add_of_le (by omega)]

theorem get_of_multiplyOverflow (large : UInt64.size ≤ (index - 1) * 16) (heap : GuidHeap) :
    heap.get index = .error .multiplyOverflow := by
  have behindNone : index ≠ 0 := fun none => absurd large (by rw [none]; decide)
  rw [get, if_neg behindNone, Word.multiply_of_le large]
  rfl

end GuidHeap

end CilLoader
