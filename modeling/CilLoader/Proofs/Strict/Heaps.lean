import CilLoader.Heap.Guids
import CilLoader.Heap.Strings
import CilLoader.Heap.Blobs
import CilLoader.Proofs.Strict.Decoders

/-!
# Strict reading of heaps

The entries of heaps, read with strict slices, sums and products. No index of a text or a blob makes
the strict reader fault in a heap that fits a memory of 64 bits, and none of an identifier whose end
is a word of 64 bits. The strict reader finds what the reader finds.
-/

namespace CilLoader

namespace StringHeap

variable {data : Bytes}

/-- Searching the data from some position on is searching the rest of them. -/
theorem zeroFrom?_add {start bound position : Nat} (inside : start + position + bound ≤ data.size) :
    zeroFrom? data bound (start + position) =
      (zeroFrom? (data.slice start data.size) bound position).map (start + ·) := by
  induction bound generalizing position with
  | zero => rfl
  | succ bound induction =>
      rw [zeroFrom?, zeroFrom?, Bytes.byteAt_slice (Nat.le_refl _) (by omega)]
      split
      · rfl
      · rw [Nat.add_assoc]
        exact induction (by omega)

theorem lt_of_zeroFrom? {bound position stop : Nat}
    (found : zeroFrom? data bound position = some stop) : stop < position + bound := by
  induction bound generalizing position with
  | zero => cases found
  | succ bound induction =>
      rw [zeroFrom?] at found
      split at found
      · cases found
        omega
      · have := induction found
        omega

end StringHeap

namespace Strict

def string (heap : StringHeap) (index : Nat) : Attempt String :=
  if index = 0 then return ""
  else if heap.data.size ≤ index then throw .outOfBounds
  else do
    let rest ← tail heap.data index
    match StringHeap.zeroFrom? rest rest.size 0 with
    | none => throw (.malformed (.stringUnterminated index))
    | some stop =>
      match Utf8.decode? (← slice rest 0 stop) with
      | some text => return text
      | none => throw (.malformed (.stringEncoding index))

def blob (heap : BlobHeap) (index : Nat) : Attempt Bytes :=
  if index = 0 then return #[]
  else if heap.data.size ≤ index then throw .outOfBounds
  else do
    let rest ← tail heap.data index
    match ← Decoder.Guarded.compressed.strictly rest 0 with
    | (.error error, _) => throw error
    | (.ok length, read) =>
      let start ← fit UInt64.size (index + read)
      if heap.data.size < start + length then throw .outOfBounds
      else slice heap.data start (start + length)

def guid (heap : GuidHeap) (index : Nat) : Attempt (Option Bytes) :=
  if index = 0 then return none
  else do
    let start ← fit UInt64.size ((← minus index 1) * 16)
    let stop ← fit UInt64.size (start + 16)
    if stop ≤ heap.data.size then return some (← slice heap.data start stop)
    else throw .outOfBounds

theorem string_yields (heap : StringHeap) (index : Nat) :
    (string heap index).Yields (heap.get index) := by
  rw [string, StringHeap.get]
  split
  · exact .pure ""
  split
  · exact .throw _
  have size := Bytes.size_tail heap.data index
  have whole : index + 0 + (heap.data.size - index) ≤ heap.data.size := by omega
  have search : StringHeap.zeroFrom? heap.data (heap.data.size - index) index =
      (StringHeap.zeroFrom? (heap.data.slice index heap.data.size)
        (heap.data.size - index) 0).map (index + ·) :=
    StringHeap.zeroFrom?_add whole
  refine .step (tail_of_le (by omega)) ?_
  rw [size, search]
  cases found : StringHeap.zeroFrom? (heap.data.slice index heap.data.size)
      (heap.data.size - index) 0 with
  | none => exact .throw _
  | some stop =>
      have bound := StringHeap.lt_of_zeroFrom? found
      refine .step (slice_of_le (by omega) (by omega)) ?_
      rw [Bytes.slice_slice (by omega), Option.map_some, Nat.add_zero]
      dsimp only
      cases Utf8.decode? (heap.data.slice index (index + stop)) with
      | none => exact .throw _
      | some text => exact .pure text

theorem blob_yields_of_room {heap : BlobHeap} (room : heap.data.size < UInt64.size) (index : Nat) :
    (blob heap index).Yields (heap.get index) := by
  rw [blob, BlobHeap.get]
  split
  · exact .pure #[]
  split
  · exact .throw _
  rename_i inside
  have inside : index ≤ heap.data.size := by omega
  have shifted := Decoder.Guarded.compressed.apply_add inside 0
  have stops : (Decoder.compressed (heap.data.slice index heap.data.size) 0).2 ≤
      (heap.data.slice index heap.data.size).size :=
    Decoder.Guarded.compressed.stop_le (Nat.zero_le _)
  have rest := Bytes.size_tail heap.data index
  refine .step (tail_of_le inside) (.step (Decoder.Guarded.strictly_eq _ _ _) ?_)
  rw [Nat.add_zero] at shifted
  rw [BlobHeap.entry, Decoder.bind_apply, shifted]
  rcases run : Decoder.compressed (heap.data.slice index heap.data.size) 0
    with ⟨error | length, read⟩
  · exact .throw error
  · rw [run, rest] at stops
    have bound : index + read ≤ heap.data.size := by omega
    refine .step (fit_of_lt (by omega)) ?_
    simp only [Prod.map, id, Decoder.bytes]
    split
    · rw [if_neg (by omega)]
      exact .throw _
    · rw [if_pos (by omega)]
      exact .lift (slice_of_le (by omega) (by omega))

theorem blob_yields {heap : BlobHeap} (size : heap.data.size < UInt32.size) (index : Nat) :
    (blob heap index).Yields (heap.get index) :=
  blob_yields_of_room (Nat.lt_trans size (by decide)) index

theorem guid_yields {index : Nat} (room : index * 16 < UInt64.size) (heap : GuidHeap) :
    ∃ outcome, heap.get index = .ok outcome ∧ (guid heap index).Yields outcome := by
  by_cases isNone : index = 0
  · subst isNone
    exact ⟨.ok none, heap.get_zero, .pure none⟩
  have stop : (index - 1) * 16 + 16 = index * 16 := by omega
  rw [GuidHeap.get_of_lt isNone room, guid, if_neg isNone]
  split
  case isTrue inside =>
    refine ⟨_, rfl, .step (minus_of_le (by omega)) (.step (fit_of_lt (by omega))
      (.step (fit_of_lt (by omega)) ?_))⟩
    rw [stop, if_pos inside]
    exact .step (slice_of_le (by omega) inside) (.pure _)
  case isFalse outside =>
    refine ⟨_, rfl, .step (minus_of_le (by omega)) (.step (fit_of_lt (by omega))
      (.step (fit_of_lt (by omega)) ?_))⟩
    rw [stop, if_neg outside]
    exact .throw _

end Strict

end CilLoader
