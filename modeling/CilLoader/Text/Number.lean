import CilLoader.Text.Hexadecimal

/-!
# Numbers in text

Reading unsigned numbers in base ten and sixteen. A number is at least one digit, with at most one
plus sign in front, and must not exceed the given limit. Leading zeros are allowed.
-/

namespace CilLoader.Number

def ofDigits (base : Nat) (digits : List Nat) : Nat :=
  digits.foldl (fun value digit => value * base + digit) 0

def decimalDigit? (character : Char) : Option Nat :=
  if '0' ≤ character ∧ character ≤ '9' then some (character.toNat - 48) else none

def dropPlus : List Char → List Char
  | '+' :: rest => rest
  | text => text

/-- The number that a text spells with the given digits, if it is at most `limit`. -/
def read? (base : Nat) (digit? : Char → Option Nat) (limit : Nat) (text : List Char) :
    Option Nat := do
  let digits ← (dropPlus text).mapM digit?
  if digits.isEmpty || limit < ofDigits base digits then none
  else some (ofDigits base digits)

def readWord? (text : List Char) : Option Nat :=
  read? 10 decimalDigit? 0xFFFF text

def readHexByte? (text : List Char) : Option Nat :=
  read? 16 Hexadecimal.digitValue? 0xFF text

def signedText (value : Int) : String :=
  if value < 0 then "-" ++ toString value.natAbs else toString value.natAbs

example : readWord? "+065535".toList = some 65535 := by decide
example : readWord? "65536".toList = none := by decide
example : readWord? "+".toList = none := by decide
example : readHexByte? "+f".toList = some 15 := by decide

end CilLoader.Number
