import Mathlib.Algebra.Group.Nat.Defs
import CilLoader.Heap.Blobs
import CilLoader.Heap.Strings
import CilLoader.Proofs.Bytes.CompressedForms

/-!
# Written heaps

A heap starts with a zero byte, and what was put into it stands one behind the other: a blob behind
its length, which takes one, two or four bytes, and a text before a zero byte. Where an entry starts
depends on all that stands before it. Whatever comes behind the last entry, a blob is read back from
where it starts, and a text from each boundary between two of its characters. Within a character
that takes several bytes no text starts.
-/

namespace CilLoader

namespace Heap

variable {α : Type} (encodeEntry : α → List UInt8)

/-- A zero byte, some entries and some more bytes. -/
def encode (entries : List α) (behind : List UInt8) : Bytes :=
  (0 :: entries.flatMap encodeEntry ++ behind).toArray

/-- Where an entry starts that stands behind some others. -/
def startBehind (before : List α) : Nat :=
  1 + (before.flatMap encodeEntry).length

theorem startBehind_ne_zero (before : List α) : startBehind encodeEntry before ≠ 0 := by
  rw [startBehind]
  omega

theorem holdsAt_encode (before : List α) (entry : α) (after : List α) (behind : List UInt8) :
    (encode encodeEntry (before ++ entry :: after) behind).HoldsAt (startBehind encodeEntry before)
      (encodeEntry entry) := by
  have holds := Bytes.holdsAt_toArray (0 :: before.flatMap encodeEntry)
    (encodeEntry entry ++ (after.flatMap encodeEntry ++ behind))
  have start : (0 :: before.flatMap encodeEntry).length = startBehind encodeEntry before :=
    Nat.add_comm _ 1
  have whole : 0 :: before.flatMap encodeEntry ++
      (encodeEntry entry ++ (after.flatMap encodeEntry ++ behind)) =
        0 :: (before ++ entry :: after).flatMap encodeEntry ++ behind := by simp
  rw [start, whole, Bytes.holdsAt_append] at holds
  exact holds.1

end Heap

/-! ## Blobs -/

namespace BlobHeap

variable {heap : BlobHeap}

/-- A blob is written behind its length. -/
def encodeEntry (entry : List UInt8) : List UInt8 :=
  Compressed.encode entry.length ++ entry

theorem ofBytes_encode (entries : List (List UInt8)) (behind : List UInt8) :
    ofBytes (Heap.encode encodeEntry entries behind) =
      .ok ⟨Heap.encode encodeEntry entries behind⟩ :=
  if_pos (.inr rfl)

/-- A blob is found behind each form that its length can be written in. -/
theorem get_of_form {written entry : List UInt8} (form : Compressed.Form entry.length written)
    {index : Nat} (behindEmpty : index ≠ 0) (holds : heap.data.HoldsAt index (written ++ entry)) :
    heap.get index = .ok entry.toArray := by
  have recovers : BlobHeap.entry.Recovers (written ++ entry) entry.toArray :=
    (Decoder.recovers_compressed form).bind (Decoder.recovers_bytes entry)
  have nonempty : 0 < written.length := by
    cases form
    exact Nat.succ_pos _
  have inside := holds.le_size
  rw [List.length_append] at inside
  rw [get, if_neg behindEmpty, if_neg (by omega), recovers heap.data index holds]

end BlobHeap

/-! ## Texts -/

namespace StringHeap

def textBytes (text : String) : List UInt8 :=
  text.toUTF8.data.toList

/-- A text is written up to a zero byte. -/
def encodeText (text : String) : List UInt8 :=
  textBytes text ++ [0]

/-- The bytes that come before the end of a text do not end it. -/
def Writable (text : String) : Prop :=
  0 ∉ textBytes text

instance (text : String) : Decidable (Writable text) :=
  inferInstanceAs (Decidable (0 ∉ textBytes text))

/-- Where texts start that stand one behind the other from a position on. -/
def startsFrom : (position : Nat) → List String → List Nat
  | _, [] => []
  | position, text :: texts =>
    position :: startsFrom (position + (encodeText text).length) texts

theorem decode?_textBytes (text : String) : Utf8.decode? (textBytes text).toArray = some text :=
  dif_pos text.isValidUTF8

theorem zeroFrom?_of_holdsAt {data : Bytes} {bytes : List UInt8} (nonzero : 0 ∉ bytes)
    {position bound : Nat} (holds : data.HoldsAt position (bytes ++ [0]))
    (enough : bytes.length < bound) :
    zeroFrom? data bound position = some (position + bytes.length) := by
  induction bytes generalizing position bound with
  | nil =>
      cases bound with
      | zero => exact absurd enough (Nat.lt_irrefl 0)
      | succ bound =>
          have ends : data.byteAt position = 0 := by
            rw [Bytes.byteAt, holds.1]
            rfl
          rw [zeroFrom?, if_pos ends]
          rfl
  | cons byte bytes induction =>
      cases bound with
      | zero => exact absurd enough (Nat.not_lt_zero _)
      | succ bound =>
          have goesOn : data.byteAt position ≠ 0 := by
            rw [Bytes.byteAt, holds.1]
            intro ends
            have isZero : byte = 0 := UInt8.toNat_inj.mp ends
            exact nonzero (isZero ▸ List.mem_cons_self)
          have nonzeroRest : 0 ∉ bytes := fun member => nonzero (List.mem_cons_of_mem byte member)
          rw [zeroFrom?, if_neg goesOn,
            induction nonzeroRest holds.2 (Nat.lt_of_succ_lt_succ enough), List.length_cons]
          congr 1
          omega

/-- Up to the next zero byte, the bytes are a text or they are none. -/
theorem get_of_zero {heap : StringHeap} {bytes : List UInt8} (nonzero : 0 ∉ bytes) {index : Nat}
    (behindEmpty : index ≠ 0) (holds : heap.data.HoldsAt index (bytes ++ [0])) :
    heap.get index =
      (Utf8.decode? bytes.toArray).elim (.error (.malformed (.stringEncoding index))) .ok := by
  have inside := holds.le_size
  rw [List.length_append, List.length_singleton] at inside
  have enough : bytes.length < heap.data.size - index := by omega
  rw [get, if_neg behindEmpty, if_neg (by omega), zeroFrom?_of_holdsAt nonzero holds enough]
  dsimp only
  rw [(Bytes.holdsAt_append.mp holds).1.slice_eq]
  cases Utf8.decode? bytes.toArray <;> rfl

theorem get_of_holdsAt {heap : StringHeap} {text : String} (writable : Writable text)
    {index : Nat} (behindEmpty : index ≠ 0)
    (holds : heap.data.HoldsAt index (encodeText text)) : heap.get index = .ok text := by
  rw [get_of_zero writable behindEmpty holds, decode?_textBytes, Option.elim_some]

theorem mapM_get_startsFrom {heap : StringHeap} {texts : List String}
    (writable : ∀ text ∈ texts, Writable text) {position : Nat} (behindEmpty : position ≠ 0)
    (holds : heap.data.HoldsAt position (texts.flatMap encodeText)) :
    (startsFrom position texts).mapM heap.get = .ok texts := by
  induction texts generalizing position with
  | nil => rfl
  | cons text texts induction =>
      rw [List.flatMap_cons, Bytes.holdsAt_append] at holds
      have behind : position + (encodeText text).length ≠ 0 := by omega
      have rest := induction (fun other member => writable other (List.mem_cons_of_mem text member))
        behind holds.2
      rw [startsFrom, List.mapM_cons,
        get_of_holdsAt (writable text List.mem_cons_self) behindEmpty holds.1, Error.ok_bind, rest]
      rfl

/-! ## Characters of texts -/

theorem textBytes_append (first second : String) :
    textBytes (first ++ second) = textBytes first ++ textBytes second := by
  simp [textBytes]

theorem textBytes_eq_flatMap (text : String) :
    textBytes text = text.toList.flatMap String.utf8EncodeChar := by
  rw [textBytes, String.toUTF8_eq_toByteArray, ← String.utf8Encode_toList, List.utf8Encode,
    List.toList_data_toByteArray]

theorem textBytes_singleton (character : Char) :
    textBytes (String.singleton character) = String.utf8EncodeChar character := by
  simp [textBytes_eq_flatMap]

theorem zero_mem_utf8EncodeChar_iff (character : Char) :
    0 ∈ String.utf8EncodeChar character ↔ character = '\x00' := by
  have zero (number : Nat) : 0 = UInt8.ofNat number ↔ number % 256 = 0 := by
    rw [← UInt8.toNat_inj, UInt8.toNat_ofNat', eq_comm]
    rfl
  have same : character.val.toNat = 0 ↔ character = '\x00' := Char.toNat_inj (d := '\x00')
  -- Behind the first byte, and in the first byte of a longer form, some bit is always set.
  rw [String.utf8EncodeChar, ← same]
  split
  · simp only [List.mem_singleton, zero]
    omega
  · split
    · simp only [List.mem_cons, List.not_mem_nil, or_false, zero]
      omega
    · split <;> simp only [List.mem_cons, List.not_mem_nil, or_false, zero] <;> omega

theorem writable_iff {text : String} : Writable text ↔ '\x00' ∉ text.toList := by
  simp [Writable, textBytes_eq_flatMap, zero_mem_utf8EncodeChar_iff]

theorem decode?_eq_none {bytes : List UInt8} (nonempty : 0 < bytes.length)
    (noStart : ¬bytes[0].IsUTF8FirstByte) : Utf8.decode? bytes.toArray = none := by
  rw [Utf8.decode?, String.fromUTF8?, dif_neg]
  intro valid
  exact noStart (valid.isUTF8FirstByte_getElem_zero nonempty)

/-- No text starts behind the first byte of a character, whatever comes behind the character. -/
theorem decode?_drop_utf8EncodeChar {character : Char} {offset : Nat} (positive : 0 < offset)
    (inside : offset < character.utf8Size) (rest : List UInt8) :
    Utf8.decode? ((String.utf8EncodeChar character).drop offset ++ rest).toArray = none := by
  have left : 0 < ((String.utf8EncodeChar character).drop offset).length := by
    rw [List.length_drop, String.length_utf8EncodeChar]
    omega
  apply decode?_eq_none (by rw [List.length_append]; omega)
  rw [List.getElem_append_left left, List.getElem_drop,
    UInt8.isUTF8FirstByte_getElem_utf8EncodeChar]
  omega

/-- What a heap gives for the positions of a text: the rest of the text from each boundary between
two characters, the ends of the text among them, and an error within a character. -/
structure Gives (heap : StringHeap) (start : Nat) (text : String) : Prop where
  atBoundary : ∀ first second, text = first ++ second →
    heap.get (start + first.utf8ByteSize) = .ok second
  inCharacter : ∀ first character second, text = first ++ String.singleton character ++ second →
    ∀ offset, 0 < offset → offset < character.utf8Size →
      heap.get (start + first.utf8ByteSize + offset) =
        .error (.malformed (.stringEncoding (start + first.utf8ByteSize + offset)))

theorem gives_of_holdsAt {heap : StringHeap} {text : String} (writable : Writable text)
    {start : Nat} (behindEmpty : start ≠ 0) (holds : heap.data.HoldsAt start (encodeText text)) :
    heap.Gives start text where
  atBoundary := by
    intro first second parts
    have bytes := textBytes_append first second
    rw [← parts] at bytes
    rw [Writable, bytes, List.mem_append, not_or] at writable
    rw [encodeText, bytes, List.append_assoc, Bytes.holdsAt_append] at holds
    exact get_of_holdsAt writable.2 (by omega) holds.2
  inCharacter := by
    intro first character second parts offset positive inside
    have bytes : textBytes text =
        (textBytes first ++ (String.utf8EncodeChar character).take offset) ++
          ((String.utf8EncodeChar character).drop offset ++ textBytes second) := by
      rw [parts, textBytes_append, textBytes_append, textBytes_singleton, List.append_assoc,
        List.append_assoc, ← List.append_assoc (List.take offset _), List.take_append_drop]
    have position : (textBytes first ++ (String.utf8EncodeChar character).take offset).length =
        first.utf8ByteSize + offset := by
      rw [List.length_append, List.length_take, String.length_utf8EncodeChar,
        Nat.min_eq_left (Nat.le_of_lt inside)]
      rfl
    rw [Writable, bytes, List.mem_append, not_or] at writable
    rw [encodeText, bytes, List.append_assoc, Bytes.holdsAt_append, position, ← Nat.add_assoc]
      at holds
    rw [get_of_zero writable.2 (by omega) holds.2, decode?_drop_utf8EncodeChar positive inside,
      Option.elim_none]

theorem ofBytes_encode (texts : List String) (behind : List UInt8) :
    ofBytes (Heap.encode encodeText texts behind) = .ok ⟨Heap.encode encodeText texts behind⟩ :=
  if_pos (.inr rfl)

end StringHeap

/-! ## Both heaps -/

/-- Each entry of a heap is given back from where it starts, and the number zero is no entry. -/
theorem heaps_give_back_entries {blobs : List (List UInt8)}
    (short : ∀ blob ∈ blobs, blob.length < 2 ^ 29) {texts : List String}
    (unbroken : ∀ text ∈ texts, '\x00' ∉ text.toList) (behind : List UInt8) :
    (∃ heap, BlobHeap.ofBytes (Heap.encode BlobHeap.encodeEntry blobs behind) = .ok heap ∧
      heap.get 0 = .ok #[] ∧
      ∀ before blob after, blobs = before ++ blob :: after →
        heap.get (Heap.startBehind BlobHeap.encodeEntry before) = .ok blob.toArray) ∧
    (∃ heap, StringHeap.ofBytes (Heap.encode StringHeap.encodeText texts behind) = .ok heap ∧
      heap.get 0 = .ok "" ∧
      ∀ before text after, texts = before ++ text :: after →
        heap.Gives (Heap.startBehind StringHeap.encodeText before) text) := by
  constructor
  · refine ⟨_, BlobHeap.ofBytes_encode .., rfl, ?_⟩
    intro before blob after parts
    subst parts
    have writable : Compressed.Writable blob.length := short blob (by simp)
    apply BlobHeap.get_of_form (Compressed.form_encode writable)
    · exact Heap.startBehind_ne_zero BlobHeap.encodeEntry before
    · exact Heap.holdsAt_encode BlobHeap.encodeEntry before blob after behind
  · refine ⟨_, StringHeap.ofBytes_encode .., rfl, ?_⟩
    intro before text after parts
    subst parts
    have writable : StringHeap.Writable text :=
      StringHeap.writable_iff.mpr (unbroken text (by simp))
    apply StringHeap.gives_of_holdsAt writable
    · exact Heap.startBehind_ne_zero StringHeap.encodeText before
    · exact Heap.holdsAt_encode StringHeap.encodeText before text after behind

/-- A blob whose length takes two bytes, between others, and a text with a character of two
bytes. -/
theorem heaps_give_back_entries_of_sizes :
    ∃ blobs names,
      BlobHeap.ofBytes (Heap.encode BlobHeap.encodeEntry
        [[], List.replicate 0x80 7, [8, 9]] [0xFF]) = .ok blobs ∧
      blobs.get 2 = .ok (Array.replicate 0x80 7) ∧ blobs.get 132 = .ok #[8, 9] ∧
      StringHeap.ofBytes (Heap.encode StringHeap.encodeText ["Ab", "Zürich", "C"] [0xFF]) =
        .ok names ∧
      names.get 7 = .ok "rich" ∧ names.get 6 = .error (.malformed (.stringEncoding 6)) ∧
      names.get 11 = .ok "" ∧ names.get 12 = .ok "C" := by
  have short : ∀ blob ∈ [[], List.replicate 0x80 (7 : UInt8), [8, 9]], blob.length < 2 ^ 29 := by
    simp
  have unbroken : ∀ text ∈ ["Ab", "Zürich", "C"], '\x00' ∉ text.toList := by decide +kernel
  rcases heaps_give_back_entries short unbroken [0xFF] with
    ⟨⟨blobs, blobsRead, _, giveBlob⟩, names, namesRead, _, giveText⟩
  have giveSecond := giveText ["Ab"] "Zürich" ["C"] rfl
  have giveThird := giveText ["Ab", "Zürich"] "C" [] rfl
  refine ⟨blobs, names, blobsRead, ?_, ?_, namesRead, ?_, ?_, ?_, ?_⟩
  · exact giveBlob [[]] (List.replicate 0x80 7) [[8, 9]] rfl
  · have start : Heap.startBehind BlobHeap.encodeEntry [[], List.replicate 0x80 7] = 132 := by
      decide +kernel
    have third := giveBlob [[], List.replicate 0x80 7] [8, 9] [] rfl
    rwa [start] at third
  · exact giveSecond.atBoundary "Zü" "rich" (by decide +kernel)
  · exact giveSecond.inCharacter "Z" 'ü' "rich" (by decide +kernel) 1 (by decide) (by decide)
  · exact giveSecond.atBoundary "Zürich" "" (by decide +kernel)
  · exact giveThird.atBoundary "" "C" (by decide +kernel)

end CilLoader
