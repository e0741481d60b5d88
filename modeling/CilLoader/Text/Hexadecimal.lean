/-!
# Hexadecimal text

Numbers are shown in lower-case hexadecimal digits, filled up with zeros on the left to a fixed
width. Bytes always take two digits.
-/

namespace CilLoader.Hexadecimal

def digit (value : Nat) : Char :=
  if value < 10 then Char.ofNat (48 + value) else Char.ofNat (87 + value)

/-- The lowest `width` hexadecimal digits of a number, the most significant digit first. -/
def digits : (width : Nat) → (value : Nat) → List Char
  | 0, _ => []
  | width + 1, value => digits width (value / 16) ++ [digit (value % 16)]

def padded (width value : Nat) : String :=
  String.ofList (digits width value)

def ofBytes (bytes : List UInt8) : List Char :=
  bytes.flatMap fun byte => digits 2 byte.toNat

def digitValue? (character : Char) : Option Nat :=
  if '0' ≤ character ∧ character ≤ '9' then some (character.toNat - 48)
  else if 'a' ≤ character ∧ character ≤ 'f' then some (character.toNat - 87)
  else if 'A' ≤ character ∧ character ≤ 'F' then some (character.toNat - 55)
  else none

example : padded 8 0x02000005 = "02000005" := by decide
example : padded 2 0x1F = "1f" := by decide

end CilLoader.Hexadecimal
