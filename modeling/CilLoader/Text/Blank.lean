/-!
# Blank characters

The characters that count as white space, and texts without them at their ends.
-/

namespace CilLoader.Blank

/-- The code points that have the Unicode property White_Space, as closed ranges. -/
def ranges : List (Nat × Nat) :=
  [(0x09, 0x0D), (0x20, 0x20), (0x85, 0x85), (0xA0, 0xA0), (0x1680, 0x1680), (0x2000, 0x200A),
    (0x2028, 0x2029), (0x202F, 0x202F), (0x205F, 0x205F), (0x3000, 0x3000)]

def isBlank (character : Char) : Bool :=
  ranges.any fun (first, last) => first ≤ character.toNat && character.toNat ≤ last

def trim (text : List Char) : List Char :=
  ((text.dropWhile isBlank).reverse.dropWhile isBlank).reverse

example : trim " a b\t".toList = "a b".toList := by decide
example : trim "\u2003é\u00a0".toList = "é".toList := by decide

end CilLoader.Blank
