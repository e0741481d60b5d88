import CilLoader.Bytes.Decoder

/-!
# Compressed numbers and tokens

Heap entries, signatures and debug records store numbers in one, two or four bytes, most
significant byte first. The leading bits of the first byte give the width: `0`, `10` or `110`.
A signed number is stored with its sign bit rotated into the lowest place.
-/

namespace CilLoader

namespace Compressed

/-- Splits the first byte of a compressed number into the width and the bits of the number. -/
def width? (first : Nat) : Option (Nat × Nat) :=
  if first < 0x80 then some (1, first)
  else if first < 0xC0 then some (2, first - 0x80)
  else if first < 0xE0 then some (4, first - 0xC0)
  else none

/-- How many values a number of the given width can have. -/
def range : (width : Nat) → Nat
  | 1 => 0x80
  | 2 => 0x4000
  | _ => 0x20000000

/-- Rotates the lowest bit back into the place of the sign. -/
def unrotate (width rotated : Nat) : Int :=
  if rotated % 2 = 0 then (rotated / 2 : Nat)
  else (rotated / 2 : Nat) - (range width / 2 : Nat)

def tokenTable? : (tag : Nat) → Option Nat
  | 0 => some 0x02
  | 1 => some 0x01
  | 2 => some 0x1B
  | _ => none

end Compressed

namespace Decoder

def moreBytes : (count : Nat) → (value : Nat) → Decoder Nat
  | 0, value => succeed value
  | count + 1, value => do
    let next ← byte
    moreBytes count (value * 256 + next)

/-- A compressed unsigned number, together with the width it is stored in. -/
def compressedSized : Decoder (Nat × Nat) := do
  let first ← byte
  match Compressed.width? first with
  | none => fail (.malformed (.compressedNumber first))
  | some (width, bits) =>
    let value ← moreBytes (width - 1) bits
    return (value, width)

def compressed : Decoder Nat := do
  let (value, _) ← compressedSized
  return value

def compressedSigned : Decoder Int := do
  let (rotated, width) ← compressedSized
  return Compressed.unrotate width rotated

/-- A compressed token. Row bits beyond the 24 that a token has room for run into its table. -/
def compressedToken : Decoder Token := do
  let value ← compressed
  match Compressed.tokenTable? (value % 4) with
  | none => fail (.malformed (.compressedTokenTag (value % 4)))
  | some table => return ⟨UInt32.ofNat (table <<< 24 ||| value / 4)⟩

end Decoder

example : Decoder.compressed.run #[0xC0, 0x00, 0x40, 0x00] = .ok 0x4000 := rfl
example : Decoder.compressedSigned.run #[0x7B] = .ok (-3) := rfl
example : Decoder.compressedToken.run #[0x49] = .ok ⟨0x01000012⟩ := rfl

end CilLoader
