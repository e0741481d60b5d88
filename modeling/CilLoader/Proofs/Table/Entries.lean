import CilLoader.Table
import CilLoader.Proofs.Bytes.Recovery

/-!
# Written rows

A row is written column by column, each entry as a number of the width that the layout gives to the
column. Entries that fit their columns are read back, in one row and in a table of rows.
-/

namespace CilLoader

namespace Column

/-- What is written into the column: a number, or a row under one of the tags. -/
abbrev Entry : Column → Type
  | number _ => Nat
  | coded kind => Fin kind.tables.length × Nat

def stored : (column : Column) → column.Entry → Nat
  | number _, value => value
  | coded kind, (tag, row) => CodedIndex.pack kind tag row

def value : (column : Column) → column.Entry → column.Value
  | number _, value => value
  | coded kind, (tag, row) => ⟨kind.tables[tag], row⟩

def encode (layout : Layout) (column : Column) (entry : column.Entry) : List UInt8 :=
  Bytes.ofNumber (column.width layout) (column.stored entry)

def Fits (layout : Layout) (column : Column) (entry : column.Entry) : Prop :=
  column.stored entry < Bytes.limit (column.width layout)

instance (layout : Layout) (column : Column) (entry : column.Entry) :
    Decidable (column.Fits layout entry) :=
  inferInstanceAs (Decidable (_ < _))

theorem recovers_decoder {layout : Layout} {column : Column} {entry : column.Entry}
    (fits : column.Fits layout entry) :
    (column.decoder layout).Recovers (column.encode layout entry) (column.value entry) := by
  cases column with
  | number storage =>
      have recovers := Decoder.recovers_number fits
      rw [decoder, storage.readWidth_eq layout]
      exact recovers
  | coded kind =>
      rcases entry with ⟨tag, row⟩
      have found : kind.tables[tag.val]? = some kind.tables[tag] :=
        List.getElem?_eq_getElem tag.isLt
      rw [← List.append_nil (encode _ _ _)]
      exact (Decoder.recovers_number fits).bind
        (Decoder.recovers_ofExcept (CodedIndex.decode_pack row found))

end Column

def Entries : List Column → Type
  | [] => Unit
  | column :: columns => column.Entry × Entries columns

namespace Entries

def cells : {columns : List Column} → Entries columns → Cells columns
  | [], _ => ()
  | column :: _, (first, rest) => (column.value first, cells rest)

def encode (layout : Layout) : {columns : List Column} → Entries columns → List UInt8
  | [], _ => []
  | column :: _, (first, rest) => column.encode layout first ++ encode layout rest

def Fit (layout : Layout) : {columns : List Column} → Entries columns → Prop
  | [], _ => True
  | column :: _, (first, rest) => column.Fits layout first ∧ Fit layout rest

instance decidableFit (layout : Layout) :
    {columns : List Column} → (entries : Entries columns) → Decidable (entries.Fit layout)
  | [], _ => .isTrue trivial
  | column :: _, (first, rest) =>
    have := decidableFit layout rest
    inferInstanceAs (Decidable (column.Fits layout first ∧ rest.Fit layout))

theorem length_encode (layout : Layout) {columns : List Column} (entries : Entries columns) :
    (entries.encode layout).length = Bytes.total (columns.map (·.width layout)) := by
  induction columns with
  | nil => rfl
  | cons column columns induction =>
      rcases entries with ⟨first, rest⟩
      rw [encode, List.length_append, induction rest, List.map_cons, Bytes.total, Column.encode,
        Bytes.length_ofNumber]

theorem recovers_decoder {layout : Layout} {columns : List Column} {entries : Entries columns}
    (fit : entries.Fit layout) :
    (Cells.decoder layout columns).Recovers (entries.encode layout) entries.cells := by
  induction columns with
  | nil => exact Decoder.recovers_succeed ()
  | cons column columns induction =>
      rcases entries with ⟨first, rest⟩
      have recoversRest := (induction fit.2).map fun cells => (column.value first, cells)
      exact (Column.recovers_decoder fit.1).bind recoversRest

end Entries

theorem Row.recovers_decoder {ρ : Type} [Row ρ] {layout : Layout}
    {entries : Entries (Row.table ρ).columns} (fit : entries.Fit layout) (rid : Nat) :
    (Row.decoder ρ layout rid).Recovers (entries.encode layout)
      (Row.ofCells rid entries.cells) :=
  (Entries.recovers_decoder fit).map (Row.ofCells rid)

/-- Among pieces of one size, each stands behind those before it. -/
theorem Bytes.HoldsAt.piece {data : Bytes} {position size : Nat} {α : Type}
    {written : α → List UInt8} {items : List α} (sameSize : ∀ item, (written item).length = size)
    (holds : data.HoldsAt position (items.flatMap written)) {index : Nat} {item : α}
    (found : items[index]? = some item) :
    data.HoldsAt (position + index * size) (written item) := by
  induction items generalizing position index with
  | nil => simp at found
  | cons first rest induction =>
      rw [List.flatMap_cons, holdsAt_append, sameSize first] at holds
      cases index with
      | zero =>
          cases found
          rw [Nat.zero_mul]
          exact holds.1
      | succ index =>
          have later := induction holds.2 found
          have samePosition : position + (index + 1) * size = position + size + index * size := by
            rw [Nat.succ_mul]
            omega
          rwa [samePosition]

/-- A table of written rows answers exactly these rows, by their numbers. -/
theorem Table.get?_of_holdsAt {ρ : Type} [Row ρ] {table : Table ρ}
    {rows : List (Entries (Row.table ρ).columns)} (count : table.rowCount = rows.length)
    (holds : table.data.HoldsAt table.start (rows.flatMap (·.encode table.layout)))
    (fit : ∀ entries ∈ rows, entries.Fit table.layout) (rid : Nat) :
    table.get? rid =
      if rid = 0 then none
      else rows[rid - 1]?.map fun entries => Row.ofCells rid entries.cells := by
  cases rid with
  | zero => simp [get?]
  | succ index =>
      rw [get?, if_neg (Nat.succ_ne_zero index), Nat.add_sub_cancel, count]
      cases found : rows[index]? with
      | none =>
          have beyond := List.getElem?_eq_none_iff.mp found
          rw [if_pos (.inr (Nat.lt_succ_of_le beyond))]
          rfl
      | some entries =>
          have inside : index < rows.length := (List.getElem?_eq_some_iff.mp found).1
          have here := holds.piece (fun entries => entries.length_encode table.layout) found
          have decoded := Row.recovers_decoder (fit entries (List.mem_of_getElem? found))
            (index + 1) table.data _ here
          rw [if_neg (by omega), rowSize, Layout.rowSize, decoded]
          rfl

end CilLoader
