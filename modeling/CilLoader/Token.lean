import CilLoader.Text.Hexadecimal

/-!
# Metadata tokens

A token is the 32-bit handle by which metadata addresses a row: the high byte numbers the table,
the low 24 bits hold the row, counted from one. A token whose row is zero names nothing.
-/

namespace CilLoader

structure Token where
  value : UInt32
deriving DecidableEq, Repr, Inhabited

namespace Token

def table (token : Token) : Nat :=
  token.value.toNat >>> 24

def row (token : Token) : Nat :=
  token.value.toNat % 0x1000000

/-- The token of a row of a table. Only the low 24 bits of the row fit. -/
def ofParts (table row : Nat) : Token :=
  ⟨UInt32.ofNat (table <<< 24 + row % 0x1000000)⟩

def isNull (token : Token) : Bool :=
  token.row == 0

/-- Tokens are shown as eight hexadecimal digits. -/
def text (token : Token) : String :=
  "0x" ++ Hexadecimal.padded 8 token.value.toNat

/-- The long form of a token, which also spells out its two parts. -/
def details (token : Token) : String :=
  "Token(" ++ token.text ++ ", table: 0x" ++ Hexadecimal.padded 2 token.table ++ ", row: " ++
    toString token.row ++ ")"

theorem row_lt (token : Token) : token.row < 0x1000000 :=
  Nat.mod_lt _ (by decide)

theorem table_ofParts {table : Nat} (row : Nat) (bound : table < 256) :
    (ofParts table row).table = table := by
  simp only [Token.table, ofParts, UInt32.toNat_ofNat']
  omega

theorem row_ofParts (table row : Nat) : (ofParts table row).row = row % 0x1000000 := by
  simp only [Token.row, ofParts, UInt32.toNat_ofNat']
  omega

theorem eq_of_parts {left right : Token} (sameTable : left.table = right.table)
    (sameRow : left.row = right.row) : left = right := by
  have sameValue : left.value.toNat = right.value.toNat := by
    simp only [table, row] at sameTable sameRow
    omega
  cases left
  cases right
  exact congrArg Token.mk (UInt32.toNat_inj.mp sameValue)

example : (ofParts 2 5).text = "0x02000005" := by decide

end Token

end CilLoader
