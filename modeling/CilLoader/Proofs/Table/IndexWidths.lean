import Mathlib.Algebra.Group.Nat.Defs
import CilLoader.Proofs.Strict.Tables
import CilLoader.Proofs.Table.CodedTokens
import CilLoader.Proofs.Table.Entries

/-!
# Widths of indexes

The width of an index follows from the bits that the row counts take. It is two bytes exactly if all
rows there are can be stored in two bytes, for a coded index under each of its tags. So every row
that a token has room for can be stored, and is read back as that row of that table.
-/

namespace CilLoader

theorem bitLength_le_iff {value bits : Nat} (positive : 0 < bits) :
    bitLength value ≤ bits ↔ value < 2 ^ bits := by
  rw [bitLength]
  split
  case isTrue zero =>
    rw [zero]
    exact iff_of_true positive (Nat.two_pow_pos bits)
  case isFalse nonzero => rw [Nat.succ_le_iff, Nat.log2_lt nonzero]

namespace CodedIndex

variable {kind : CodedKind}

theorem tag_lt (tag : Fin kind.tables.length) : tag.val < 2 ^ kind.tagBits := by
  have enough := kind.length_tables_le
  rw [Nat.one_shiftLeft] at enough
  exact Nat.lt_of_lt_of_le tag.isLt enough

theorem pack_div (tag : Fin kind.tables.length) (row : Nat) :
    pack kind tag row / 2 ^ kind.tagBits = row := by
  rw [pack, ← Nat.shiftLeft_add_eq_or_of_lt (tag_lt tag), Nat.shiftLeft_eq, Nat.mul_comm,
    Nat.mul_add_div (Nat.two_pow_pos _), Nat.div_eq_of_lt (tag_lt tag), Nat.add_zero]

/-- The tag takes its bits, and leaves the others to the row. -/
theorem pack_lt_iff (tag : Fin kind.tables.length) {row bits : Nat} (room : kind.tagBits ≤ bits) :
    pack kind tag row < 2 ^ bits ↔ row < 2 ^ (bits - kind.tagBits) := by
  have split : 2 ^ (bits - kind.tagBits) * 2 ^ kind.tagBits = 2 ^ bits := by
    rw [← Nat.pow_add, Nat.sub_add_cancel room]
  rw [← split, ← Nat.div_lt_iff_lt_mul (Nat.two_pow_pos _), pack_div]

end CodedIndex

namespace Layout

open CodedIndex

variable (layout : Layout)

theorem width_eq_two_iff {isLarge : Bool} : width isLarge = 2 ↔ isLarge = false := by
  cases isLarge <;> simp [width]

theorem width_eq_four_iff {isLarge : Bool} : width isLarge = 4 ↔ isLarge = true := by
  cases isLarge <;> simp [width]

theorem isLargeTable_iff (table : TableId) :
    layout.isLargeTable table = true ↔ 2 ^ 16 ≤ layout.rows.of table := by
  rw [isLargeTable, decide_eq_true_iff]
  omega

theorem rowWidth_eq (table : TableId) :
    layout.rowWidth table = width (layout.isLargeTable table) := by
  rw [rowWidth, isLargeTable_eq]

/-- The longest of some tables takes no more bits than a bound if each of them does. -/
theorem foldl_rowBits_le_iff (tables : List TableId) {start bits : Nat} :
    tables.foldl (fun bits table => max bits (layout.rowBits table)) start ≤ bits ↔
      start ≤ bits ∧ ∀ table ∈ tables, layout.rowBits table ≤ bits := by
  induction tables generalizing start with
  | nil => simp
  | cons table tables induction =>
      rw [List.foldl_cons, induction, Nat.max_le, List.forall_mem_cons, and_assoc]

theorem codedBits_le_iff (kind : CodedKind) {bits : Nat} (room : kind.tagBits < bits) :
    layout.codedBits kind ≤ bits ↔
      ∀ table ∈ kind.tables, layout.rows.of table < 2 ^ (bits - kind.tagBits) := by
  have positive : 0 < bits - kind.tagBits := Nat.sub_pos_of_lt room
  rw [codedBits, ← Nat.le_sub_iff_add_le (Nat.le_of_lt room), foldl_rowBits_le_iff,
    and_iff_right (Nat.zero_le _)]
  simp only [rowBits, bitLength_le_iff positive]

theorem codedWidth_eq_two_iff (kind : CodedKind) :
    layout.codedWidth kind = 2 ↔
      ∀ table ∈ kind.tables, layout.rows.of table < 2 ^ (16 - kind.tagBits) := by
  have room := Nat.lt_of_le_of_lt kind.tagBits_le (by decide : 5 < 16)
  rw [codedWidth, width_eq_two_iff, decide_eq_false_iff_not, Nat.not_lt,
    layout.codedBits_le_iff kind room]

/-- Two bytes are chosen exactly if they are enough for every row under every tag. -/
theorem codedWidth_eq_two_iff_pack (kind : CodedKind) :
    layout.codedWidth kind = 2 ↔
      ∀ (tag : Fin kind.tables.length) (row : Nat), row ≤ layout.rows.of (kind.tables.get tag) →
        pack kind tag row < 2 ^ 16 := by
  have room := Nat.le_trans kind.tagBits_le (by decide : 5 ≤ 16)
  rw [codedWidth_eq_two_iff]
  constructor
  · intro small tag row counted
    rw [pack_lt_iff tag room]
    exact Nat.lt_of_le_of_lt counted (small _ (List.get_mem _ tag))
  · intro enough table member
    obtain ⟨tag, bound, rfl⟩ := List.getElem_of_mem member
    exact (pack_lt_iff ⟨tag, bound⟩ room).mp (enough ⟨tag, bound⟩ _ (Nat.le_refl _))

theorem pack_lt_limit {kind : CodedKind} {tag : Fin kind.tables.length} {row : Nat}
    (counted : row ≤ layout.rows.of (kind.tables.get tag)) (named : row < 2 ^ 24) :
    pack kind tag row < Bytes.limit (layout.codedWidth kind) := by
  rcases width_eq_or (16 < layout.codedBits kind) with small | large
  · have enough := (layout.codedWidth_eq_two_iff_pack kind).mp small tag row counted
    rw [codedWidth, small]
    exact enough
  · have tagBits := kind.tagBits_le
    have room : row < 2 ^ (29 - kind.tagBits) :=
      Nat.lt_of_lt_of_le named (Nat.pow_le_pow_right (by decide) (by omega))
    have fits : pack kind tag row < 2 ^ 29 :=
      (pack_lt_iff tag (Nat.le_trans tagBits (by decide))).mpr room
    rw [codedWidth, large]
    exact Nat.lt_trans fits (by decide)

/-- For all row counts, plain indexes take four bytes from 2^16 rows on, both as they are laid out
and as they are read. A coded index takes two bytes exactly if each of its tables is short enough
beside the tag, which is if each row of each table fits under its tags. What stores a row under a
tag fits the width and is read back as that row of the table of the tag, and the token is the one of
the row. -/
theorem index_widths_suffice :
    (∀ table,
      (layout.isLargeTable table = true ↔ 2 ^ 16 ≤ layout.rows.of table) ∧
      (layout.rowWidth table = 4 ↔ 2 ^ 16 ≤ layout.rows.of table) ∧
      (layout.rowWidth table = 2 ↔ layout.rows.of table < 2 ^ 16)) ∧
    (∀ kind,
      (layout.codedWidth kind = 2 ∨ layout.codedWidth kind = 4) ∧
      (layout.codedWidth kind = 2 ↔
        ∀ table ∈ kind.tables, layout.rows.of table < 2 ^ (16 - kind.tagBits)) ∧
      (layout.codedWidth kind = 2 ↔
        ∀ (tag : Fin kind.tables.length) (row : Nat), row ≤ layout.rows.of (kind.tables.get tag) →
          pack kind tag row < 2 ^ 16)) ∧
    ∀ kind (tag : Fin kind.tables.length) (row : Nat),
      row ≤ layout.rows.of (kind.tables.get tag) → row < 2 ^ 24 →
      let index : CodedIndex := ⟨kind.tables.get tag, row⟩
      pack kind tag row < Bytes.limit (layout.codedWidth kind) ∧
      decode kind (pack kind tag row) = .ok index ∧
      index.token.Names index ∧
      ((Column.coded kind).decoder layout).Recovers
        (Bytes.ofNumber (layout.codedWidth kind) (pack kind tag row)) index := by
  refine ⟨?_, ?_, ?_⟩
  · intro table
    rw [rowWidth_eq, width_eq_two_iff, width_eq_four_iff, ← Bool.not_eq_true, isLargeTable_iff,
      Nat.not_le]
    exact ⟨Iff.rfl, Iff.rfl, Iff.rfl⟩
  · intro kind
    exact ⟨width_eq_or _, layout.codedWidth_eq_two_iff kind,
      layout.codedWidth_eq_two_iff_pack kind⟩
  · intro kind tag row counted named index
    have fits : pack kind tag row < Bytes.limit (layout.codedWidth kind) :=
      layout.pack_lt_limit counted named
    have found : kind.tables[tag.val]? = some (kind.tables.get tag) :=
      List.getElem?_eq_getElem tag.isLt
    have column : (Column.coded kind).Fits layout (tag, row) := fits
    exact ⟨fits, decode_pack row found, (names_token_iff index).mpr named,
      Column.recovers_decoder column⟩

/-- So many rows that a coded index to them takes two bytes, and a coded index with one more row
takes four. -/
def boundaryLayout (extra : Nat) : Layout where
  heapSizes := 0
  rows := .ofFn fun slot => if slot = TableId.typeRef.number then 2 ^ 14 - 1 + extra else 0

theorem index_widths_suffice_boundary :
    (boundaryLayout 0).codedWidth .typeDefOrRef = 2 ∧
      pack .typeDefOrRef 1 (2 ^ 14 - 1) < Bytes.limit 2 ∧
      decode .typeDefOrRef (pack .typeDefOrRef 1 (2 ^ 14 - 1)) = .ok ⟨.typeRef, 2 ^ 14 - 1⟩ ∧
      (boundaryLayout 1).codedWidth .typeDefOrRef = 4 ∧
      pack .typeDefOrRef 1 (2 ^ 14) < Bytes.limit 4 ∧
      (CodedIndex.token ⟨.typeRef, 2 ^ 14⟩).Names ⟨.typeRef, 2 ^ 14⟩ := by
  have two : (boundaryLayout 0).codedWidth .typeDefOrRef = 2 := by decide
  have four : (boundaryLayout 1).codedWidth .typeDefOrRef = 4 := by decide
  have last := (index_widths_suffice (boundaryLayout 0)).2.2 .typeDefOrRef ⟨1, by decide⟩
    (2 ^ 14 - 1) (by decide) (by decide)
  have next := (index_widths_suffice (boundaryLayout 1)).2.2 .typeDefOrRef ⟨1, by decide⟩
    (2 ^ 14) (by decide) (by decide)
  rw [two] at last
  rw [four] at next
  exact ⟨two, last.1, last.2.1, four, next.1, next.2.2.1⟩

end Layout

end CilLoader
