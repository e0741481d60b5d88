import Mathlib.Data.List.Basic
import CilLoader.Proofs.Table.Walk

/-!
# What the tokens of coded indexes name

A coded index of four bytes has at least 27 bits for its row, and a token has room for 24. The bits
above are cut off without an error, so that the token of a coded index names the row that the index
names exactly if the row fits. If it does not fit, the token is one of another row of the same
table, or it is null.
-/

namespace CilLoader

/-- The token is that of the row which the coded index names, and both agree on whether there is
one. -/
structure Token.Names (token : Token) (index : CodedIndex) : Prop where
  table : token.table = index.table.number
  row : token.row = index.row
  null : token.isNull = index.isNull

namespace CodedIndex

theorem decode_eq_ok {kind : CodedKind} {value : Nat} {index : CodedIndex} :
    decode kind value = .ok index ↔
      kind.tables[value % (1 <<< kind.tagBits)]? = some index.table ∧
        index.row = value >>> kind.tagBits := by
  rcases index with ⟨table, row⟩
  rw [decode]
  split
  · rename_i found tagged
    rw [tagged]
    simp [eq_comm]
  · rename_i untagged
    rw [untagged]
    simp

theorem exists_decode_iff {kind : CodedKind} {value : Nat} :
    (∃ index, decode kind value = .ok index) ↔
      value % (1 <<< kind.tagBits) < kind.tables.length := by
  constructor
  · rintro ⟨index, decoded⟩
    exact (List.getElem?_eq_some_iff.mp (decode_eq_ok.mp decoded).1).1
  · intro tagged
    exact ⟨⟨_, value >>> kind.tagBits⟩,
      decode_eq_ok.mpr ⟨List.getElem?_eq_getElem tagged, rfl⟩⟩

theorem row_lt_iff {kind : CodedKind} {value : Nat} {index : CodedIndex}
    (decoded : decode kind value = .ok index) :
    index.row < 0x1000000 ↔ value < 1 <<< (24 + kind.tagBits) := by
  rw [(decode_eq_ok.mp decoded).2, Nat.shiftRight_eq_div_pow, Nat.one_shiftLeft, Nat.pow_add,
    Nat.div_lt_iff_lt_mul (Nat.two_pow_pos _)]

theorem table_token (index : CodedIndex) : index.token.table = index.table.number := by
  have slots := index.table.number_lt_slots
  rw [TableId.slots] at slots
  exact Token.table_ofParts index.row (by omega)

theorem row_token (index : CodedIndex) : index.token.row = index.row % 0x1000000 :=
  Token.row_ofParts index.table.number index.row

theorem row_token_eq_iff (index : CodedIndex) :
    index.token.row = index.row ↔ index.row < 0x1000000 := by
  rw [row_token]
  omega

theorem isNull_token_eq_iff (index : CodedIndex) :
    index.token.isNull = index.isNull ↔ (index.row % 0x1000000 = 0 → index.row = 0) := by
  rw [Token.isNull, row_token, isNull, Bool.eq_iff_iff, beq_iff_eq, beq_iff_eq]
  omega

theorem names_token_iff (index : CodedIndex) :
    index.token.Names index ↔ index.row < 0x1000000 := by
  rw [← row_token_eq_iff]
  constructor
  · exact Token.Names.row
  · intro sameRow
    refine ⟨index.table_token, sameRow, ?_⟩
    rw [Token.isNull, sameRow, isNull]

/-- The row that is looked up by the token is the row that the index names, unless the row of the
index does not fit and there is a row with what is left of its number. -/
theorem rid_eq_of_token_iff (index : CodedIndex) (ρ : Type) [Row ρ] (metadata : Metadata) :
    (∀ row, metadata.row? ρ index.token.row = some row → Row.rid row = index.row) ↔
      index.row < 0x1000000 ∨ metadata.row? ρ (index.row % 0x1000000) = none := by
  rw [← row_token_eq_iff, ← row_token]
  constructor
  · intro reached
    cases found : metadata.row? ρ index.token.row with
    | none => exact .inr rfl
    | some row => exact .inl ((Metadata.rid_eq_of_row? found).symm.trans (reached row found))
  · rintro (fits | absent) row found
    · exact (Metadata.rid_eq_of_row? found).trans fits
    · cases absent.symm.trans found

/-- Of the coded indexes whose rows fit, none but the index itself has its token, unless the row of
the index does not fit: then its token is taken for that of a row that does. -/
theorem eq_of_token_iff (index : CodedIndex) :
    (∀ other : CodedIndex, other.row < 0x1000000 → other.token = index.token → other = index) ↔
      index.row < 0x1000000 := by
  constructor
  · intro only
    have small : index.row % 0x1000000 < 0x1000000 := Nat.mod_lt _ (by decide)
    have sameToken : CodedIndex.token ⟨index.table, index.row % 0x1000000⟩ = index.token := by
      refine Token.eq_of_parts ?_ ?_
      · rw [table_token, table_token]
      · rw [row_token, row_token, Nat.mod_eq_of_lt small]
    exact only _ small sameToken ▸ small
  · rintro fits ⟨table, row⟩ otherFits sameToken
    have sameTable := congrArg Token.table sameToken
    have sameRow := congrArg Token.row sameToken
    rw [table_token, table_token] at sameTable
    rw [(row_token_eq_iff _).mpr otherFits, (row_token_eq_iff _).mpr fits] at sameRow
    cases TableId.number_injective sameTable
    cases sameRow
    rfl

/-- Whatever value a coded index is decoded from, its token names what the index names exactly if
the bits above the tag fit the row of a token. The table is right in any case. -/
theorem decoded_token_names_iff (kind : CodedKind) (value : Nat) :
    ((∀ index, decode kind value = .ok index → index.token.Names index) ↔
      (value % (1 <<< kind.tagBits) < kind.tables.length →
        value < 1 <<< (24 + kind.tagBits))) ∧
    ∀ index, decode kind value = .ok index →
      index.token.table = index.table.number ∧
      (index.token.row = index.row ↔ value < 1 <<< (24 + kind.tagBits)) ∧
      (index.token.isNull = index.isNull ↔ (index.row % 0x1000000 = 0 → index.row = 0)) ∧
      ((∀ other : CodedIndex, other.row < 0x1000000 → other.token = index.token → other = index) ↔
        value < 1 <<< (24 + kind.tagBits)) ∧
      ∀ (ρ : Type) [Row ρ] (metadata : Metadata),
        (∀ row, metadata.row? ρ index.token.row = some row → Row.rid row = index.row) ↔
          value < 1 <<< (24 + kind.tagBits) ∨
            metadata.row? ρ (index.row % 0x1000000) = none := by
  constructor
  · constructor
    · intro named tagged
      rcases exists_decode_iff.mpr tagged with ⟨index, decoded⟩
      exact (row_lt_iff decoded).mp ((names_token_iff index).mp (named index decoded))
    · intro fits index decoded
      have small := fits (exists_decode_iff.mp ⟨index, decoded⟩)
      exact (names_token_iff index).mpr ((row_lt_iff decoded).mpr small)
  · intro index decoded
    rw [← row_lt_iff decoded]
    exact ⟨index.table_token, index.row_token_eq_iff, index.isNull_token_eq_iff,
      index.eq_of_token_iff, index.rid_eq_of_token_iff⟩

/-- The first row that does not fit is not null, and its token is. The token of the row behind it is
that of the first row of the table. -/
theorem not_decoded_token_names :
    ¬(∀ index, decode .typeDefOrRef 0x4000000 = .ok index → index.token.Names index) ∧
      ¬∀ index, decode .typeDefOrRef 0x4000004 = .ok index → index.token.Names index := by
  have noRow : decode .typeDefOrRef 0x4000000 = .ok ⟨.typeDef, 0x1000000⟩ := rfl
  have otherRow : decode .typeDefOrRef 0x4000004 = .ok ⟨.typeDef, 0x1000001⟩ := rfl
  constructor
  · intro named
    exact absurd (named _ noRow).null (by decide)
  · intro named
    exact absurd (named _ otherRow).row (by decide)

end CodedIndex

end CilLoader
