import CilLoader.Proofs.Bytes.CompressedReads
import CilLoader.Proofs.Heap.WrittenHeaps
import CilLoader.Proofs.Strict.Heaps

/-!
# Looking heaps up

A number that is looked up in a heap stands for a position, and what is found is what is written
there, from the first byte to the last. Nothing is found where the heap has ended before. Texts and
blobs are named by their position itself. Identifiers are counted, so that their position is a
product, and numbers whose product or whose end is too large for a word make the lookup panic.
-/

namespace CilLoader

namespace Heap

/-- A lookup gives what is written at a position in one of the forms of an entry, and nothing where
the heap has ended. -/
structure LooksUp {α : Type} (data : Bytes) (position : Nat) (answer : Except Error α)
    (form : α → List UInt8 → Prop) : Prop where
  entry : ∀ value, answer = .ok value ↔
    ∃ written, form value written ∧ data.HoldsAt position written
  ended : data.size ≤ position → answer = .error .outOfBounds

/-- A lookup of a number computes without a fault, and looks at the position that the number stands
for. The number zero stands for none. -/
structure Exact {α : Type} (data : Bytes) (index position : Nat) (answer : Except Error α)
    (strict : Attempt α) (form : α → List UInt8 → Prop) : Prop where
  computes : strict.Yields answer
  looksUp : index ≠ 0 → LooksUp data position answer form

end Heap

/-! ## Texts -/

namespace StringHeap

def EntryForm (text : String) (written : List UInt8) : Prop :=
  Writable text ∧ written = encodeText text

theorem textBytes_of_decode? {bytes : List UInt8} {text : String}
    (decoded : Utf8.decode? bytes.toArray = some text) : textBytes text = bytes := by
  rw [Utf8.decode?, String.fromUTF8?] at decoded
  split at decoded
  · cases decoded
    rfl
  · cases decoded

/-- The bytes before the first zero byte are not zero. -/
theorem exists_of_zeroFrom? {data : Bytes} {bound position stop : Nat}
    (inside : position + bound ≤ data.size)
    (found : zeroFrom? data bound position = some stop) :
    ∃ bytes, 0 ∉ bytes ∧ data.HoldsAt position (bytes ++ [0]) := by
  induction bound generalizing position with
  | zero => cases found
  | succ bound induction =>
      have here : data[position]? = some data[position] := Array.getElem?_eq_getElem (by omega)
      have value : data.byteAt position = data[position].toNat := by rw [Bytes.byteAt, here]
      rw [zeroFrom?] at found
      split at found
      case isTrue ends =>
        have isZero : data[position] = 0 := UInt8.toNat_inj.mp (value.symm.trans ends)
        rw [isZero] at here
        exact ⟨[], List.not_mem_nil, here, (by omega : position + 1 ≤ data.size)⟩
      case isFalse goesOn =>
        rcases induction (by omega) found with ⟨bytes, nonzero, holds⟩
        have nonzeroHere : 0 ≠ data[position] := by
          intro isZero
          apply goesOn
          rw [value, ← isZero]
          rfl
        exact ⟨data[position] :: bytes, List.not_mem_cons_of_ne_of_not_mem nonzeroHere nonzero,
          here, holds⟩

variable {heap : StringHeap} {index : Nat}

theorem get_eq_ok_iff (behindEmpty : index ≠ 0) {text : String} :
    heap.get index = .ok text ↔
      ∃ written, EntryForm text written ∧ heap.data.HoldsAt index written := by
  constructor
  · intro found
    have given := found
    rw [get, if_neg behindEmpty] at found
    split at found
    case isTrue => cases found
    case isFalse inside =>
      cases search : zeroFrom? heap.data (heap.data.size - index) index with
      | none =>
          rw [search] at found
          cases found
      | some stop =>
          rcases exists_of_zeroFrom? (by omega) search with ⟨bytes, nonzero, holds⟩
          rw [get_of_zero nonzero behindEmpty holds] at given
          cases decoded : Utf8.decode? bytes.toArray with
          | none =>
              rw [decoded] at given
              cases given
          | some other =>
              rw [decoded] at given
              cases given
              have same := textBytes_of_decode? decoded
              rw [← same] at nonzero holds
              exact ⟨encodeText text, ⟨nonzero, rfl⟩, holds⟩
  · rintro ⟨_, ⟨writable, rfl⟩, holds⟩
    exact get_of_holdsAt writable behindEmpty holds

theorem exact (heap : StringHeap) (index : Nat) :
    Heap.Exact heap.data index index (heap.get index) (Strict.string heap index) EntryForm where
  computes := Strict.string_yields heap index
  looksUp behindEmpty :=
    { entry := fun _ => get_eq_ok_iff behindEmpty
      ended := fun outside => by rw [get, if_neg behindEmpty, if_pos outside] }

end StringHeap

/-! ## Blobs -/

namespace BlobHeap

/-- An entry behind its length, which may be written in any form. -/
inductive EntryForm (entry : Bytes) : List UInt8 → Prop where
  | behindLength {length : List UInt8} (form : Compressed.Form entry.size length) :
    EntryForm entry (length ++ entry.toList)

variable {heap : BlobHeap} {index : Nat}

theorem get_eq_ok_iff (behindEmpty : index ≠ 0) {blob : Bytes} :
    heap.get index = .ok blob ↔
      ∃ written, EntryForm blob written ∧ heap.data.HoldsAt index written := by
  constructor
  · intro found
    rw [get, if_neg behindEmpty] at found
    split at found
    case isTrue => cases found
    case isFalse =>
      rcases outcome : entry heap.data index with ⟨result, stop⟩
      rw [outcome] at found
      cases found
      rcases Decoder.bind_eq_ok.mp outcome with ⟨length, middle, readLength, readBytes⟩
      rcases Decoder.compressed_eq_ok_iff.mp readLength with ⟨width, fits, holdsLength, behind⟩
      rw [Decoder.bytes] at readBytes
      split at readBytes
      case isFalse => cases readBytes
      case isTrue inside =>
        cases readBytes
        have holdsBlob := Bytes.holdsAt_slice (Nat.le_add_right middle length) inside
        have size : (heap.data.slice middle (middle + length)).size = length := by
          rw [Bytes.size_slice inside, Nat.add_sub_cancel_left]
        have form : Compressed.Form (heap.data.slice middle (middle + length)).size
            (Compressed.encodeIn width length) := by
          rw [size]
          exact .inWidth fits
        refine ⟨_, .behindLength form, Bytes.holdsAt_append.mpr ⟨holdsLength, ?_⟩⟩
        rw [Compressed.length_encodeIn fits, ← behind]
        exact holdsBlob
  · rintro ⟨_, ⟨form⟩, holds⟩
    exact get_of_form form behindEmpty holds

/-- A heap stores a blob in an entry, or the empty blob in none. -/
inductive Stores (heap : BlobHeap) : (index : Nat) → (blob : Bytes) → Prop where
  | empty : Stores heap 0 #[]
  | entry {index : Nat} {blob : Bytes} {written : List UInt8} (behindEmpty : index ≠ 0)
      (form : EntryForm blob written) (holds : heap.data.HoldsAt index written) :
      Stores heap index blob

theorem stores_iff {blob : Bytes} : heap.Stores index blob ↔ heap.get index = .ok blob := by
  constructor
  · intro stores
    cases stores with
    | empty => rfl
    | entry behindEmpty form holds => exact (get_eq_ok_iff behindEmpty).mpr ⟨_, form, holds⟩
  · intro found
    by_cases isEmpty : index = 0
    · subst isEmpty
      cases found
      exact .empty
    · rcases (get_eq_ok_iff isEmpty).mp found with ⟨written, form, holds⟩
      exact .entry isEmpty form holds

theorem exact (memory : heap.data.size < UInt64.size) (index : Nat) :
    Heap.Exact heap.data index index (heap.get index) (Strict.blob heap index) EntryForm where
  computes := Strict.blob_yields_of_room memory index
  looksUp behindEmpty :=
    { entry := fun _ => get_eq_ok_iff behindEmpty
      ended := fun outside => by rw [get, if_neg behindEmpty, if_pos outside] }

end BlobHeap

/-! ## Identifiers -/

namespace GuidHeap

/-- An identifier of sixteen bytes is written as it is. -/
def EntryForm (answer : Option Bytes) (written : List UInt8) : Prop :=
  written.length = 16 ∧ answer = some written.toArray

variable {heap : GuidHeap} {index : Nat}

/-- An identifier is looked up where its number says, as long as there is a word for its end. -/
theorem looksUp_of_lt (behindNone : index ≠ 0) (room : index * 16 < UInt64.size)
    {answer : Except Error (Option Bytes)} (found : heap.get index = .ok answer) :
    Heap.LooksUp heap.data ((index - 1) * 16) answer EntryForm := by
  have stop : (index - 1) * 16 + 16 = index * 16 := by omega
  rw [get_of_lt behindNone room] at found
  split at found
  case isFalse outside =>
    cases found
    refine { entry := fun value => Iff.intro (fun isOk => by cases isOk) ?_, ended := fun _ => rfl }
    rintro ⟨written, ⟨length, rfl⟩, holds⟩
    have inside := holds.le_size
    omega
  case isTrue inside =>
    cases found
    refine { entry := fun value => Iff.intro ?_ ?_, ended := fun ended => by omega }
    · intro isValue
      cases isValue
      have ordered : (index - 1) * 16 ≤ index * 16 := by omega
      have holds := Bytes.holdsAt_slice ordered inside
      have length : (heap.data.slice ((index - 1) * 16) (index * 16)).toList.length = 16 := by
        rw [Array.length_toList, Bytes.size_slice inside]
        omega
      exact ⟨_, ⟨length, rfl⟩, holds⟩
    · rintro ⟨written, ⟨length, rfl⟩, holds⟩
      have slice := holds.slice_eq
      rw [length, stop] at slice
      rw [slice]

/-- A lookup ends in an answer, at the sum or at the product. -/
theorem get_cases (heap : GuidHeap) (index : Nat) :
    (index * 16 < UInt64.size ∧
      ∃ answer, heap.get index = .ok answer ∧ (Strict.guid heap index).Yields answer) ∨
    ((index - 1) * 16 < UInt64.size ∧ UInt64.size ≤ index * 16 ∧
      heap.get index = .error .addOverflow) ∨
    (UInt64.size ≤ (index - 1) * 16 ∧ heap.get index = .error .multiplyOverflow) := by
  rcases Nat.lt_or_ge (index * 16) UInt64.size with room | large
  · exact .inl ⟨room, Strict.guid_yields room heap⟩
  rcases Nat.lt_or_ge ((index - 1) * 16) UInt64.size with room | larger
  · exact .inr (.inl ⟨room, large, get_of_addOverflow room large heap⟩)
  · exact .inr (.inr ⟨larger, get_of_multiplyOverflow larger heap⟩)

theorem get_eq_multiplyOverflow_iff :
    heap.get index = .error .multiplyOverflow ↔ UInt64.size ≤ (index - 1) * 16 := by
  refine ⟨fun panics => ?_, fun large => get_of_multiplyOverflow large heap⟩
  rcases heap.get_cases index with ⟨_, _, found, _⟩ | ⟨_, _, adds⟩ | ⟨large, _⟩
  · cases panics.symm.trans found
  · cases panics.symm.trans adds
  · exact large

theorem get_eq_addOverflow_iff :
    heap.get index = .error .addOverflow ↔
      (index - 1) * 16 < UInt64.size ∧ UInt64.size ≤ index * 16 := by
  refine ⟨fun panics => ?_, fun ⟨room, large⟩ => get_of_addOverflow room large heap⟩
  rcases heap.get_cases index with ⟨_, _, found, _⟩ | ⟨room, large, _⟩ | ⟨_, multiplies⟩
  · cases panics.symm.trans found
  · exact ⟨room, large⟩
  · cases panics.symm.trans multiplies

/-- Identifiers are looked up exactly, without a panic, as long as there is a word for their end. -/
theorem exists_exact_iff (heap : GuidHeap) (index : Nat) :
    (∃ answer, heap.get index = .ok answer ∧
      Heap.Exact heap.data index ((index - 1) * 16) answer (Strict.guid heap index) EntryForm) ↔
      index * 16 < UInt64.size := by
  constructor
  · rintro ⟨answer, found, _⟩
    rcases heap.get_cases index with ⟨room, _⟩ | ⟨_, _, adds⟩ | ⟨_, multiplies⟩
    · exact room
    · cases found.symm.trans adds
    · cases found.symm.trans multiplies
  · intro room
    rcases Strict.guid_yields room heap with ⟨answer, found, computes⟩
    exact ⟨answer, found, computes, fun behindNone => looksUp_of_lt behindNone room found⟩

end GuidHeap

/-! ## All heaps -/

namespace Heap

/-- Texts and blobs are looked up exactly, whatever the number. Identifiers are as long as there is
a word for the end of the identifier. Behind that the lookup panics, at the product or at the sum.
-/
theorem lookups_exact_iff {data : Bytes} (memory : data.size < UInt64.size) (index : Nat) :
    Exact data index index (StringHeap.get ⟨data⟩ index) (Strict.string ⟨data⟩ index)
      StringHeap.EntryForm ∧
    Exact data index index (BlobHeap.get ⟨data⟩ index) (Strict.blob ⟨data⟩ index)
      BlobHeap.EntryForm ∧
    ((∃ answer, GuidHeap.get ⟨data⟩ index = .ok answer ∧
      Exact data index ((index - 1) * 16) answer (Strict.guid ⟨data⟩ index)
        GuidHeap.EntryForm) ↔ index * 16 < UInt64.size) ∧
    (GuidHeap.get ⟨data⟩ index = .error .multiplyOverflow ↔ UInt64.size ≤ (index - 1) * 16) ∧
    (GuidHeap.get ⟨data⟩ index = .error .addOverflow ↔
      (index - 1) * 16 < UInt64.size ∧ UInt64.size ≤ index * 16) :=
  ⟨StringHeap.exact ⟨data⟩ index, BlobHeap.exact memory index,
    GuidHeap.exists_exact_iff ⟨data⟩ index, GuidHeap.get_eq_multiplyOverflow_iff,
    GuidHeap.get_eq_addOverflow_iff⟩

/-- A heap with one identifier. -/
def oneGuid : Bytes :=
  #[0] ++ Array.replicate 15 0x11

theorem lookups_exact_iff_oneGuid :
    oneGuid.size < UInt64.size ∧
      BlobHeap.get ⟨oneGuid⟩ 0xFFFFFFFFFFFFFFFF = .error .outOfBounds ∧
      GuidHeap.get ⟨oneGuid⟩ 1 = .ok (.ok (some oneGuid)) ∧
      GuidHeap.get ⟨oneGuid⟩ 0xFFFFFFFFFFFFFFF = .ok (.error .outOfBounds) ∧
      GuidHeap.get ⟨oneGuid⟩ 0x1000000000000000 = .error .addOverflow ∧
      GuidHeap.get ⟨oneGuid⟩ 0x1000000000000001 = .error .multiplyOverflow := by
  have memory : oneGuid.size < UInt64.size := by decide
  have blobs := (lookups_exact_iff memory 0xFFFFFFFFFFFFFFFF).2.1
  rcases (lookups_exact_iff memory 1).2.2.1.mpr (by decide) with ⟨first, foundFirst, exactFirst⟩
  rcases (lookups_exact_iff memory 0xFFFFFFFFFFFFFFF).2.2.1.mpr (by decide) with
    ⟨last, foundLast, exactLast⟩
  have isFirst : first = .ok (some oneGuid) :=
    ((exactFirst.looksUp (by decide)).entry _).mpr
      ⟨oneGuid.toList, ⟨by decide, rfl⟩, Bytes.holdsAt_toArray [] oneGuid.toList⟩
  have isLast := (exactLast.looksUp (by decide)).ended (by decide)
  rw [isFirst] at foundFirst
  rw [isLast] at foundLast
  exact ⟨memory, (blobs.looksUp (by decide)).ended (by decide), foundFirst, foundLast,
    (lookups_exact_iff memory 0x1000000000000000).2.2.2.2.mpr (by decide),
    (lookups_exact_iff memory 0x1000000000000001).2.2.2.1.mpr (by decide)⟩

/-- The number 2^60 + 1 has no answer, although it stands for a position behind the heap. -/
theorem not_lookups_exact :
    ¬∀ (data : Bytes) (index : Nat), data.size < UInt64.size → index < UInt64.size →
      Exact data index index (StringHeap.get ⟨data⟩ index) (Strict.string ⟨data⟩ index)
        StringHeap.EntryForm ∧
      Exact data index index (BlobHeap.get ⟨data⟩ index) (Strict.blob ⟨data⟩ index)
        BlobHeap.EntryForm ∧
      ∃ answer, GuidHeap.get ⟨data⟩ index = .ok answer ∧
        Exact data index ((index - 1) * 16) answer (Strict.guid ⟨data⟩ index)
          GuidHeap.EntryForm := by
  intro always
  rcases (always oneGuid 0x1000000000000001 (by decide) (by decide)).2.2 with ⟨_, found, _⟩
  have panics : GuidHeap.get ⟨oneGuid⟩ 0x1000000000000001 = .error .multiplyOverflow := rfl
  cases panics.symm.trans found

end Heap

end CilLoader
