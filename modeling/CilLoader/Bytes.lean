/-!
# Bytes

An image is a sequence of bytes. Fixed-width numbers in it are stored with the least significant
byte first.
-/

namespace CilLoader

abbrev Bytes := Array UInt8

namespace Bytes

/-- The byte at a position, zero past the end. -/
def byteAt (data : Bytes) (position : Nat) : Nat :=
  match data[position]? with
  | some byte => byte.toNat
  | none => 0

def number (data : Bytes) (position : Nat) : (width : Nat) → Nat
  | 0 => 0
  | width + 1 => data.byteAt position + 256 * data.number (position + 1) width

/-- The number stored at a position, if all its bytes are there. -/
def number? (data : Bytes) (position width : Nat) : Option Nat :=
  if position + width ≤ data.size then some (data.number position width) else none

/-- The bytes of a number, the least significant first. -/
def ofNumber : (width : Nat) → (value : Nat) → List UInt8
  | 0, _ => []
  | width + 1, value => UInt8.ofNat value :: ofNumber width (value / 256)

/-- How many numbers there are that fit some bytes. -/
def limit : (width : Nat) → Nat
  | 0 => 1
  | width + 1 => limit width * 256

/-- The signed reading of a stored number: the upper half of the range stands for negatives. -/
def signed (width value : Nat) : Int :=
  Int.bmod value (limit width)

def slice (data : Bytes) (start stop : Nat) : Bytes :=
  data.extract start stop

def total : (sizes : List Nat) → Nat
  | [] => 0
  | size :: sizes => size + total sizes

theorem byteAt_lt (data : Bytes) (position : Nat) : data.byteAt position < 256 := by
  unfold byteAt
  split
  · exact UInt8.toNat_lt _
  · decide

theorem number_lt (data : Bytes) (position width : Nat) :
    data.number position width < limit width := by
  induction width generalizing position with
  | zero => simp [number, limit]
  | succ width induction =>
      have first := byteAt_lt data position
      have rest := induction (position + 1)
      simp only [number, limit]
      omega

theorem toList_slice (data : Bytes) (start stop : Nat) :
    (data.slice start stop).toList = (data.toList.drop start).take (stop - start) := by
  rw [slice, Array.toList_extract, List.extract_eq_take_drop]

@[simp]
theorem length_ofNumber (width value : Nat) : (ofNumber width value).length = width := by
  induction width generalizing value with
  | zero => rfl
  | succ width induction => simp [ofNumber, induction]

example : number #[0x01, 0x02, 0x03] 1 2 = 0x0302 := by decide
example : signed 1 0xFF = -1 := by decide

end Bytes

end CilLoader
