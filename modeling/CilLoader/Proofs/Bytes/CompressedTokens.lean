import CilLoader.Bytes.Compressed
import CilLoader.Table.Id

/-!
# What compressed tokens name

A compressed token is a number whose lowest two bits are the tag of a table, and the others are the
row. That leaves 27 bits for the row, and a token has room for 24 of them. The bits above do not
make the read fail. They end up in the number of the table, so that the token is one of another row,
often of another table.
-/

namespace CilLoader

namespace Compressed

/-- The table that a tag stands for. -/
def taggedTable? : (tag : Nat) → Option TableId
  | 0 => some .typeDef
  | 1 => some .typeRef
  | 2 => some .typeSpec
  | _ => none

/-- The token is that of the row above the tag, in the table of the tag. -/
def NamedBy (token : Token) (value : Nat) : Prop :=
  ∃ table, taggedTable? (value % 4) = some table ∧ token.table = table.number ∧
    token.row = value / 4

theorem tokenTable?_eq (tag : Nat) : tokenTable? tag = (taggedTable? tag).map (·.number) := by
  rcases tag with _ | _ | _ | tag <;> rfl

theorem bits_lt_of_width? {first width bits : Nat} (split : width? first = some (width, bits)) :
    (bits + 1) * Bytes.limit (width - 1) ≤ 0x20000000 := by
  rw [width?] at split
  repeat' split at split
  all_goals cases split
  all_goals simp only [Nat.reduceSub, Bytes.limit]; omega

end Compressed

/-- The bits of a row that a token has no room for run into its table. -/
theorem Token.parts_of_packed {table row : Nat} (smallTable : table < 0x100)
    (smallRow : row < 0x100000000) :
    let token : Token := ⟨UInt32.ofNat (table <<< 24 ||| row)⟩
    token.table = table ||| row / 0x1000000 ∧ token.row = row % 0x1000000 := by
  have fits : table <<< 24 ||| row < 2 ^ 32 :=
    Nat.or_lt_two_pow (by rw [Nat.shiftLeft_eq]; omega) smallRow
  have value : (UInt32.ofNat (table <<< 24 ||| row)).toNat = table <<< 24 ||| row :=
    UInt32.toNat_ofNat_of_lt' fits
  constructor
  · rw [Token.table, value, Nat.shiftRight_or_distrib, Nat.shiftLeft_shiftRight,
      Nat.shiftRight_eq_div_pow]
  · have noTable : table <<< 24 % 2 ^ 24 = 0 := by
      rw [Nat.shiftLeft_eq, Nat.mul_mod_left]
    show (UInt32.ofNat (table <<< 24 ||| row)).toNat % 2 ^ 24 = row % 2 ^ 24
    rw [value, Nat.or_mod_two_pow, noTable, Nat.zero_or]

namespace Decoder

open Compressed

theorem moreBytes_lt {count high position stop value : Nat} {data : Bytes}
    (read : moreBytes count high data position = (.ok value, stop)) :
    value < (high + 1) * Bytes.limit count := by
  induction count generalizing high position with
  | zero =>
      cases read
      simp [Bytes.limit]
  | succ count induction =>
      rcases bind_eq_ok.mp read with ⟨next, middle, readNext, readRest⟩
      have small : next < 256 := by
        rw [byte, number] at readNext
        split at readNext
        · cases readNext
          exact data.number_lt position 1
        · cases readNext
      calc value < (high * 256 + next + 1) * Bytes.limit count := induction readRest
        _ ≤ (high + 1) * 256 * Bytes.limit count := Nat.mul_le_mul_right _ (by omega)
        _ = (high + 1) * Bytes.limit (count + 1) := by
            rw [Bytes.limit, Nat.mul_assoc, Nat.mul_comm 256]

/-- Even the widest form of a compressed number has no more than 29 bits for it. -/
theorem compressed_lt {data : Bytes} {position stop value : Nat}
    (read : compressed data position = (.ok value, stop)) : value < 0x20000000 := by
  rcases bind_eq_ok.mp read with ⟨⟨_, width⟩, _, readSized, ⟨rfl⟩⟩
  rcases bind_eq_ok.mp readSized with ⟨first, _, _, readRest⟩
  cases split : width? first with
  | none =>
      rw [split] at readRest
      cases readRest
  | some parts =>
      rw [split] at readRest
      rcases bind_eq_ok.mp readRest with ⟨_, _, readMore, ⟨rfl⟩⟩
      exact Nat.lt_of_lt_of_le (moreBytes_lt readMore) (bits_lt_of_width? split)

/-- All that a compressed token can be read as, once its number has been read. -/
theorem compressedToken_cases {data : Bytes} {position stop value : Nat}
    (read : compressed data position = (.ok value, stop)) :
    (taggedTable? (value % 4) = none ∧ compressedToken data position =
      (.error (.malformed (.compressedTokenTag (value % 4))), stop)) ∨
    ∃ table token, taggedTable? (value % 4) = some table ∧
      compressedToken data position = (.ok token, stop) ∧
      token.table = table.number ||| value / 0x4000000 ∧
      token.row = value / 4 % 0x1000000 := by
  rw [compressedToken, bind_of_ok read, tokenTable?_eq]
  cases tagged : taggedTable? (value % 4) with
  | none => exact .inl ⟨rfl, rfl⟩
  | some table =>
      have bound := compressed_lt read
      have smallTable : table.number < 0x100 := by
        have slots := table.number_lt_slots
        rw [TableId.slots] at slots
        omega
      have smallRow : value / 4 < 0x100000000 := by omega
      have parts := Token.parts_of_packed smallTable smallRow
      rw [Nat.div_div_eq_div_mul] at parts
      exact .inr ⟨table, _, rfl, rfl, parts⟩

/-- A compressed token that is read names the table of its tag and the row above it exactly if the
row fits a token. If it does not fit, the read does not fail, unless the tag stands for no table. -/
theorem compressedToken_named_iff (data : Bytes) (position : Nat) :
    (∀ token stop, compressedToken data position = (.ok token, stop) →
      ∃ value, compressed data position = (.ok value, stop) ∧ NamedBy token value) ↔
    ∀ value stop, compressed data position = (.ok value, stop) →
      taggedTable? (value % 4) ≠ none → value / 4 < 0x1000000 := by
  constructor
  · intro named value stop read tagged
    rcases compressedToken_cases read with ⟨untagged, _⟩ | ⟨_, token, _, readToken, _⟩
    · exact absurd untagged tagged
    · rcases named token stop readToken with ⟨other, readOther, _, _, _, row⟩
      cases read.symm.trans readOther
      exact row ▸ token.row_lt
  · intro fits token stop readToken
    rcases bind_eq_ok.mp readToken with ⟨value, middle, read, _⟩
    rcases compressedToken_cases read with
      ⟨_, failed⟩ | ⟨table, other, tagged, readOther, sameTable, sameRow⟩
    · cases failed.symm.trans readToken
    · cases readOther.symm.trans readToken
      have small := fits value stop read (by rw [tagged]; exact Option.some_ne_none table)
      have nothingAbove : value / 0x4000000 = 0 := by omega
      rw [nothingAbove, Nat.or_zero] at sameTable
      rw [Nat.mod_eq_of_lt small] at sameRow
      exact ⟨value, read, table, tagged, sameTable, sameRow⟩

/-- The first row that does not fit, with the tag of the type definitions, is read as a token of
another table. -/
theorem not_compressedToken_named :
    ¬∀ token stop, compressedToken #[0xC4, 0, 0, 0] 0 = (.ok token, stop) →
      ∃ value, compressed #[0xC4, 0, 0, 0] 0 = (.ok value, stop) ∧ NamedBy token value := by
  intro named
  have read : compressedToken #[0xC4, 0, 0, 0] 0 = (.ok ⟨0x03000000⟩, 4) := rfl
  rcases named _ _ read with ⟨value, readValue, table, tagged, sameTable, _⟩
  have sameValue : value = 0x4000000 := by
    have readNumber : compressed #[0xC4, 0, 0, 0] 0 = (.ok 0x4000000, 4) := rfl
    cases readNumber.symm.trans readValue
    rfl
  subst sameValue
  cases tagged
  exact absurd sameTable (by decide)

end Decoder

end CilLoader
