import Mathlib.Algebra.Group.Int.Defs
import Mathlib.Algebra.Group.Nat.Defs
import CilLoader.Proofs.Bytes.CompressedForms
import CilLoader.Proofs.Bytes.Delimited

/-!
# Where compressed numbers can be read

What is left of some data begins with a form of a number, or is a proper beginning of one, or its
first byte announces no width. So a number is read exactly where one of its forms stands, and the
read stops right behind it. A read fails only on data that ends within a form, and on a first byte
that no form has.
-/

namespace CilLoader

namespace Bytes

theorem limit_div_mod {count low : Nat} (high : Nat) (bound : low < limit count) :
    (high * limit count + low) / limit count = high ∧
      (high * limit count + low) % limit count = low := by
  rw [Nat.mul_comm, Nat.mul_add_div (limit_pos count), Nat.div_eq_of_lt bound, Nat.mul_add_mod,
    Nat.mod_eq_of_lt bound]
  exact ⟨rfl, rfl⟩

theorem length_ofNumberReversed (width value : Nat) :
    (ofNumberReversed width value).length = width := by
  induction width generalizing value with
  | zero => rfl
  | succ width induction => simp [ofNumberReversed, induction]

/-- Some bytes are the first ones of a number, and all of them if there are enough. -/
theorem exists_ofNumberReversed {count : Nat} {bytes : List UInt8} (few : bytes.length ≤ count) :
    ∃ low more, low < limit count ∧ more.length = count - bytes.length ∧
      ofNumberReversed count low = bytes ++ more := by
  induction count generalizing bytes with
  | zero =>
      have nothing : bytes = [] := List.eq_nil_of_length_eq_zero (Nat.le_zero.mp few)
      exact ⟨0, [], by decide, by simp [nothing], by simp [nothing, ofNumberReversed]⟩
  | succ count induction =>
      cases bytes with
      | nil => exact ⟨0, _, limit_pos _, length_ofNumberReversed (count + 1) 0, rfl⟩
      | cons first rest =>
          obtain ⟨low, more, bound, length, written⟩ := induction (Nat.le_of_succ_le_succ few)
          have parts := limit_div_mod first.toNat bound
          have fits : first.toNat * limit count + low < limit (count + 1) :=
            calc first.toNat * limit count + low
                < (first.toNat + 1) * limit count := by rw [Nat.succ_mul]; omega
              _ ≤ 256 * limit count := Nat.mul_le_mul_right _ first.toNat_lt
              _ = limit (count + 1) := by rw [limit, Nat.mul_comm]
          refine ⟨first.toNat * limit count + low, more, fits, ?_, ?_⟩
          · rw [length, List.length_cons]
            omega
          · rw [ofNumberReversed, parts.1, parts.2, UInt8.ofNat_toNat, written, List.cons_append]

theorem HoldsAt.of_drop {data : Bytes} {position : Nat} {written rest : List UInt8}
    (inside : position ≤ data.size) (behind : data.toList.drop position = written ++ rest) :
    data.HoldsAt position written := by
  have whole := holdsAt_toArray (data.toList.take position) (written ++ rest)
  rw [← behind, List.take_append_drop, Array.toArray_toList, List.length_take,
    Array.length_toList, Nat.min_eq_left inside, behind] at whole
  exact (holdsAt_append.mp whole).1

theorem holdsAt_slice {data : Bytes} {start stop : Nat} (ordered : start ≤ stop)
    (inside : stop ≤ data.size) : data.HoldsAt start (data.slice start stop).toList := by
  have behind : data.toList.drop start =
      (data.slice start stop).toList ++ (data.toList.drop start).drop (stop - start) := by
    rw [toList_slice, List.take_append_drop]
  exact .of_drop (Nat.le_trans ordered inside) behind

/-- If anything is left, the position is one of the data. -/
theorem getElem?_of_drop {data : Bytes} {position : Nat} {first : UInt8} {rest : List UInt8}
    (behind : data.toList.drop position = first :: rest) : data[position]? = some first := by
  have head := congrArg List.head? behind
  rwa [List.head?_drop, List.head?_cons, Array.getElem?_toList] at head

end Bytes

namespace Compressed

/-! ## Numbers and their widths -/

/-- How many bits of a number a width has room for, with the bit for the sign. -/
def bits : (width : Nat) → Nat
  | 1 => 7
  | 2 => 14
  | _ => 29

theorem exists_fits_iff {value : Nat} : (∃ width, Fits width value) ↔ value < 2 ^ 29 := by
  constructor
  · rintro ⟨width, rfl | rfl | rfl, bound⟩ <;> simp only [range] at bound <;> omega
  · intro bound
    exact ⟨4, .inr (.inr rfl), bound⟩

theorem exists_signedFits_iff {value : Int} :
    (∃ width, SignedFits width value) ↔ -2 ^ 28 ≤ value ∧ value < 2 ^ 28 := by
  constructor
  · rintro ⟨width, rfl | rfl | rfl, low, high⟩ <;> simp only [range] at low high <;> omega
  · intro bounds
    exact ⟨4, .inr (.inr rfl), bounds⟩

theorem length_encodeIn {width value : Nat} (fits : Fits width value) :
    (encodeIn width value).length = width := by
  rw [encodeIn, List.length_cons, Bytes.length_ofNumberReversed]
  rcases fits.1 with rfl | rfl | rfl <;> rfl

theorem encodeIn_joined {width high low : Nat} (bound : low < Bytes.limit (width - 1)) :
    encodeIn width (high * Bytes.limit (width - 1) + low) =
      UInt8.ofNat (lead width + high) :: Bytes.ofNumberReversed (width - 1) low := by
  have parts := Bytes.limit_div_mod high bound
  rw [encodeIn, parts.1, parts.2]

theorem toNat_rotateLeft_one {size : Nat} (large : 1 < size) (word : BitVec size) :
    (word.rotateLeft 1).toNat =
      2 * (word.toNat % 2 ^ (size - 1)) + word.toNat / 2 ^ (size - 1) := by
  have whole : 2 ^ size = 2 ^ (size - 1) * 2 := (Nat.two_pow_pred_mul_two (by omega)).symm
  have top : word.toNat / 2 ^ (size - 1) < 2 ^ 1 :=
    Nat.div_lt_of_lt_mul (whole ▸ word.isLt)
  have moved : word.toNat <<< 1 % 2 ^ size = (word.toNat % 2 ^ (size - 1)) <<< 1 := by
    rw [Nat.shiftLeft_eq, Nat.shiftLeft_eq, Nat.pow_one, whole, Nat.mul_mod_mul_right]
  rw [BitVec.toNat_rotateLeft, Nat.mod_eq_of_lt large, moved, Nat.shiftRight_eq_div_pow,
    ← Nat.shiftLeft_add_eq_or_of_lt top, Nat.shiftLeft_eq, Nat.pow_one, Nat.mul_comm]

/-- The sign is moved by a rotation of the bits that the width has room for. -/
theorem rotate_eq_rotateLeft {width : Nat} {value : Int} (fits : SignedFits width value) :
    rotate width value = ((BitVec.ofInt (bits width) value).rotateLeft 1).toNat := by
  rcases fits with ⟨rfl | rfl | rfl, low, high⟩
  all_goals
    rw [toNat_rotateLeft_one (by decide), BitVec.toNat_ofInt]
    simp only [range, bits, rotate] at low high ⊢
    split <;> omega

theorem signedFits_unrotate {width rotated : Nat} (fits : Fits width rotated) :
    SignedFits width (unrotate width rotated) := by
  refine ⟨fits.1, ?_⟩
  rcases fits with ⟨rfl | rfl | rfl, bound⟩ <;>
    simp only [range, unrotate] at bound ⊢ <;> split <;> omega

theorem rotate_unrotate {width rotated : Nat} (fits : Fits width rotated) :
    rotate width (unrotate width rotated) = rotated := by
  rcases fits with ⟨rfl | rfl | rfl, bound⟩ <;>
    simp only [range, rotate, unrotate] at bound ⊢ <;> split <;> split <;> omega

/-! ## What some bytes can be -/

/-- The bytes are a proper beginning of a form. -/
def CutShort (bytes : List UInt8) : Prop :=
  ∃ width value more, Fits width value ∧ more ≠ [] ∧ encodeIn width value = bytes ++ more

theorem exists_lead {first : Nat} (known : first < 0xE0) :
    ∃ width high, (width = 1 ∨ width = 2 ∨ width = 4) ∧ first = lead width + high ∧
      (high + 1) * Bytes.limit (width - 1) ≤ range width := by
  by_cases one : first < 0x80
  · exact ⟨1, first, by simp, by simp [lead], by simp [Bytes.limit, range]; omega⟩
  · by_cases two : first < 0xC0
    · exact ⟨2, first - 0x80, by simp, by simp [lead]; omega, by simp [Bytes.limit, range]; omega⟩
    · exact ⟨4, first - 0xC0, by simp, by simp [lead]; omega, by simp [Bytes.limit, range]; omega⟩

/-- Behind a first byte that announces a width, any bytes go on with a form of that width. -/
theorem exists_encodeIn {first : UInt8} (known : first.toNat < 0xE0) (rest : List UInt8) :
    ∃ width value more, Fits width value ∧ more.length = width - (first :: rest).length ∧
      encodeIn width value = (first :: rest).take width ++ more := by
  obtain ⟨width, high, widths, announced, room⟩ := exists_lead known
  have enough : (rest.take (width - 1)).length ≤ width - 1 := List.length_take_le _ _
  obtain ⟨low, more, bound, length, written⟩ := Bytes.exists_ofNumberReversed enough
  have positive : 0 < width := by omega
  refine ⟨width, high * Bytes.limit (width - 1) + low, more, ⟨widths, ?_⟩, ?_, ?_⟩
  · rw [Nat.succ_mul] at room
    omega
  · rw [length, List.length_take, List.length_cons]
    omega
  · rw [encodeIn_joined bound, ← announced, UInt8.ofNat_toNat, written,
      ← Nat.sub_add_cancel positive, List.take_succ_cons, List.cons_append, Nat.add_sub_cancel]

/-- Some bytes begin with a form, or a form begins with them, or no form has their first byte. -/
theorem form_cases (bytes : List UInt8) :
    (∃ width value rest, Fits width value ∧ bytes = encodeIn width value ++ rest) ∨
      CutShort bytes ∨ ∃ first rest, bytes = first :: rest ∧ 0xE0 ≤ first.toNat := by
  cases bytes with
  | nil => exact .inr (.inl ⟨1, 0, [0], by decide, by decide, rfl⟩)
  | cons first rest =>
      rcases Nat.lt_or_ge first.toNat 0xE0 with known | unknown
      · obtain ⟨width, value, more, fits, length, written⟩ := exists_encodeIn known rest
        cases more with
        | nil =>
            rw [List.append_nil] at written
            refine .inl ⟨width, value, (first :: rest).drop width, fits, ?_⟩
            rw [written, List.take_append_drop]
        | cons next more =>
            have short : (first :: rest).length ≤ width := by
              rw [List.length_cons] at length
              omega
            rw [List.take_of_length_le short] at written
            exact .inr (.inl ⟨width, value, next :: more, fits, List.cons_ne_nil _ _, written⟩)
      · exact .inr (.inr ⟨first, rest, rfl, unknown⟩)

end Compressed

namespace Decoder

open Compressed

variable {α β : Type} {data : Bytes} {position : Nat}

/-! ## What comes of a read -/

theorem byte_of_getElem? {first : UInt8} (found : data[position]? = some first) :
    byte data position = (.ok first.toNat, position + 1) := by
  have inside : position + 1 ≤ data.size := (Array.getElem?_eq_some_iff.mp found).1
  have holds : data.HoldsAt position [UInt8.ofNat first.toNat] := by
    rw [UInt8.ofNat_toNat]
    exact ⟨found, inside⟩
  exact recovers_byte first.toNat_lt data position holds

theorem byte_of_size_le (ended : data.size ≤ position) :
    byte data position = (.error .outOfBounds, position) := by
  rw [byte, number, if_neg (by omega)]

theorem moreBytes_of_short {count : Nat} (high : Nat) (inside : position ≤ data.size)
    (short : data.size < position + count) :
    (moreBytes count high data position).1 = .error .outOfBounds := by
  induction count generalizing position high with
  | zero => omega
  | succ count induction =>
      rcases Nat.lt_or_ge position data.size with left | ended
      · rw [moreBytes, bind_of_ok (byte_of_getElem? (Array.getElem?_eq_getElem left))]
        exact induction _ left (by omega)
      · rw [moreBytes, bind_of_error (byte_of_size_le ended)]

theorem compressedSized_of_encodeIn {width value : Nat} (fits : Fits width value)
    (holds : data.HoldsAt position (encodeIn width value)) :
    compressedSized data position = (.ok (value, width), position + width) := by
  have read := recovers_compressedSized fits data position holds
  rwa [length_encodeIn fits] at read

theorem compressedSized_of_cutShort (short : CutShort (data.toList.drop position)) :
    (compressedSized data position).1 = .error .outOfBounds := by
  obtain ⟨width, value, more, fits, left, written⟩ := short
  cases behind : data.toList.drop position with
  | nil =>
      have ended : data.size ≤ position := List.drop_eq_nil_iff.mp behind
      rw [compressedSized, bind_of_error (byte_of_size_le ended)]
  | cons first rest =>
      have found := Bytes.getElem?_of_drop behind
      have inside : position < data.size := (Array.getElem?_eq_some_iff.mp found).1
      have consumed := congrArg List.length behind
      have total := congrArg List.length written
      have missing := List.length_pos_iff.mpr left
      rw [List.length_drop, Array.length_toList, List.length_cons] at consumed
      rw [behind, List.length_append, length_encodeIn fits, List.length_cons] at total
      -- The first byte is that of the form, and so announces its width.
      rw [behind, encodeIn, List.cons_append] at written
      have announced : first.toNat = lead width + value / Bytes.limit (width - 1) := by
        rw [← (List.cons.inj written).1]
        exact UInt8.toNat_ofNat_of_lt' (lead_lt fits)
      rw [compressedSized, bind_of_ok (byte_of_getElem? found), announced, width?_lead fits]
      exact fst_bind_of_error (moreBytes_of_short _ inside (by omega))

theorem compressedSized_of_unknown {first : UInt8} (found : data[position]? = some first)
    (unknown : 0xE0 ≤ first.toNat) :
    (compressedSized data position).1 =
      .error (.malformed (.compressedNumber first.toNat)) := by
  have none : width? first.toNat = none := by
    rw [width?, if_neg (by omega), if_neg (by omega), if_neg (by omega)]
  rw [compressedSized, bind_of_ok (byte_of_getElem? found), none]
  rfl

/-- All that a read can come to. -/
theorem compressedSized_cases (data : Bytes) (position : Nat) :
    (∃ width value, Fits width value ∧ data.HoldsAt position (encodeIn width value) ∧
      compressedSized data position = (.ok (value, width), position + width)) ∨
    (CutShort (data.toList.drop position) ∧
      (compressedSized data position).1 = .error .outOfBounds) ∨
    ∃ first, data[position]? = some first ∧ 0xE0 ≤ first.toNat ∧
      (compressedSized data position).1 = .error (.malformed (.compressedNumber first.toNat)) := by
  rcases form_cases (data.toList.drop position) with
    ⟨width, value, rest, fits, behind⟩ | short | ⟨first, rest, behind, unknown⟩
  · have found := Bytes.getElem?_of_drop (behind.trans (List.cons_append ..))
    have inside : position < data.size := (Array.getElem?_eq_some_iff.mp found).1
    have holds := Bytes.HoldsAt.of_drop (Nat.le_of_lt inside) behind
    exact .inl ⟨width, value, fits, holds, compressedSized_of_encodeIn fits holds⟩
  · exact .inr (.inl ⟨short, compressedSized_of_cutShort short⟩)
  · have found := Bytes.getElem?_of_drop behind
    exact .inr (.inr ⟨first, found, unknown, compressedSized_of_unknown found unknown⟩)

theorem compressedSized_eq_ok_iff {width value stop : Nat} :
    compressedSized data position = (.ok (value, width), stop) ↔
      Fits width value ∧ data.HoldsAt position (encodeIn width value) ∧
        stop = position + width := by
  constructor
  · intro read
    rcases compressedSized_cases data position with
      ⟨_, _, fits, holds, readForm⟩ | ⟨_, failed⟩ | ⟨_, _, _, failed⟩
    · cases readForm.symm.trans read
      exact ⟨fits, holds, rfl⟩
    · rw [read] at failed
      cases failed
    · rw [read] at failed
      cases failed
  · intro ⟨fits, holds, behind⟩
    rw [behind, compressedSized_of_encodeIn fits holds]

/-- The error on data that has no number at a position: it ends too early, or its byte there is none
that a number starts with. -/
inductive Refuses (data : Bytes) (position : Nat) : Error → Prop where
  | cutShort (short : CutShort (data.toList.drop position)) : Refuses data position .outOfBounds
  | unknown {first : UInt8} (found : data[position]? = some first)
      (unannounced : 0xE0 ≤ first.toNat) :
      Refuses data position (.malformed (.compressedNumber first.toNat))

theorem compressedSized_eq_error_iff {error : Error} :
    (compressedSized data position).1 = .error error ↔ Refuses data position error := by
  constructor
  · intro failed
    rcases compressedSized_cases data position with
      ⟨_, _, _, _, read⟩ | ⟨short, failedShort⟩ | ⟨first, found, unknown, failedUnknown⟩
    · rw [read] at failed
      cases failed
    · cases failedShort.symm.trans failed
      exact .cutShort short
    · cases failedUnknown.symm.trans failed
      exact .unknown found unknown
  · intro refuses
    cases refuses with
    | cutShort short => exact compressedSized_of_cutShort short
    | unknown found unannounced => exact compressedSized_of_unknown found unannounced

theorem fst_map_eq_error_iff {decoder : Decoder α} {change : α → β} {error : Error} :
    ((decoder >>= fun value => pure (change value)) data position).1 = .error error ↔
      (decoder data position).1 = .error error := by
  rw [bind_apply]
  rcases decoder data position with ⟨_ | _, _⟩ <;> simp

theorem compressed_eq_ok_iff {value stop : Nat} :
    compressed data position = (.ok value, stop) ↔
      ∃ width, Fits width value ∧ data.HoldsAt position (encodeIn width value) ∧
        stop = position + width := by
  constructor
  · intro read
    rcases bind_eq_ok.mp read with ⟨⟨_, width⟩, _, sized, ⟨⟩⟩
    exact ⟨width, compressedSized_eq_ok_iff.mp sized⟩
  · intro ⟨width, form⟩
    exact bind_eq_ok.mpr ⟨(value, width), stop, compressedSized_eq_ok_iff.mpr form, rfl⟩

theorem compressedSigned_eq_ok_iff {value : Int} {stop : Nat} :
    compressedSigned data position = (.ok value, stop) ↔
      ∃ width, SignedFits width value ∧
        data.HoldsAt position (encodeIn width (rotate width value)) ∧ stop = position + width := by
  constructor
  · intro read
    rcases bind_eq_ok.mp read with ⟨⟨rotated, width⟩, _, sized, ⟨⟩⟩
    obtain ⟨fits, holds, behind⟩ := compressedSized_eq_ok_iff.mp sized
    refine ⟨width, signedFits_unrotate fits, ?_, behind⟩
    rwa [rotate_unrotate fits]
  · intro ⟨width, fits, holds, behind⟩
    have sized := compressedSized_eq_ok_iff.mpr ⟨fits_rotate fits, holds, behind⟩
    refine bind_eq_ok.mpr ⟨_, stop, sized, ?_⟩
    show (Except.ok (unrotate width (rotate width value)), stop) = (.ok value, stop)
    rw [unrotate_rotate fits]

/-- The numbers below 2^29, and the signed ones of 29 bits, are those that have a form, in each
width that has room for them. They are read from their forms and from nothing else, whatever
follows, and the read stops right behind the form. It fails exactly if the data ends within a form
or starts with a byte that announces no width. -/
theorem compressed_reads_forms :
    ((∀ value, (∃ width, Fits width value) ↔ value < 2 ^ 29) ∧
      (∀ value, (∃ width, SignedFits width value) ↔ -2 ^ 28 ≤ value ∧ value < 2 ^ 28) ∧
      (∀ width value, SignedFits width value → Fits width (rotate width value) ∧
        rotate width value = ((BitVec.ofInt (bits width) value).rotateLeft 1).toNat) ∧
      ∀ width value, Fits width value → (encodeIn width value).length = width) ∧
    ∀ data position,
      (∀ value stop, compressed data position = (.ok value, stop) ↔
        ∃ width, Fits width value ∧ data.HoldsAt position (encodeIn width value) ∧
          stop = position + width) ∧
      (∀ value stop, compressedSigned data position = (.ok value, stop) ↔
        ∃ width, SignedFits width value ∧
          data.HoldsAt position (encodeIn width (rotate width value)) ∧
          stop = position + width) ∧
      ∀ error,
        ((compressed data position).1 = .error error ↔ Refuses data position error) ∧
        ((compressedSigned data position).1 = .error error ↔ Refuses data position error) := by
  refine ⟨⟨fun _ => exists_fits_iff, fun _ => exists_signedFits_iff, ?_, ?_⟩, ?_⟩
  · intro width value fits
    exact ⟨fits_rotate fits, rotate_eq_rotateLeft fits⟩
  · intro width value fits
    exact length_encodeIn fits
  · intro data position
    refine ⟨fun _ _ => compressed_eq_ok_iff, fun _ _ => compressedSigned_eq_ok_iff, ?_⟩
    intro error
    exact ⟨fst_map_eq_error_iff.trans compressedSized_eq_error_iff,
      fst_map_eq_error_iff.trans compressedSized_eq_error_iff⟩

/-- The least number of four bytes, behind it the least one of two bytes, and at the end two bytes
of a number of four. -/
def leastNumbers : Bytes :=
  #[0xC0, 0, 0, 1, 0x80, 1, 0xC0, 0]

theorem compressed_reads_forms_least :
    SignedFits 4 (-2 ^ 28) ∧
      rotate 4 (-2 ^ 28) = ((BitVec.ofInt 29 (-2 ^ 28)).rotateLeft 1).toNat ∧
      Fits 4 1 ∧ (encodeIn 4 1).length = 4 ∧
      compressedSigned leastNumbers 0 = (.ok (-2 ^ 28), 4) ∧
      compressedSigned leastNumbers 4 = (.ok (-2 ^ 13), 6) ∧
      (compressedSigned leastNumbers 6).1 = .error .outOfBounds := by
  have fits : SignedFits 4 (-2 ^ 28) := ⟨by decide, by decide, by decide⟩
  have fitsNext : SignedFits 2 (-2 ^ 13) := ⟨by decide, by decide, by decide⟩
  have fitsOne : Fits 4 1 := by decide
  have holds : leastNumbers.HoldsAt 0 (encodeIn 4 (rotate 4 (-2 ^ 28))) :=
    .of_drop (by decide) rfl
  have holdsNext : leastNumbers.HoldsAt 4 (encodeIn 2 (rotate 2 (-2 ^ 13))) :=
    .of_drop (by decide) rfl
  have short : CutShort (leastNumbers.toList.drop 6) := ⟨4, 0, [0, 0], by decide, by decide, rfl⟩
  obtain ⟨⟨_, _, rotates, sizes⟩, reads⟩ := compressed_reads_forms
  refine ⟨fits, (rotates 4 _ fits).2, fitsOne, sizes 4 1 fitsOne, ?_, ?_, ?_⟩
  · exact ((reads leastNumbers 0).2.1 _ 4).mpr ⟨4, fits, holds, rfl⟩
  · exact ((reads leastNumbers 4).2.1 _ 6).mpr ⟨2, fitsNext, holdsNext, rfl⟩
  · exact ((reads leastNumbers 6).2.2 _).2.mpr (.cutShort short)

end Decoder

end CilLoader
