import Mathlib.Data.List.TakeWhile
import CilLoader.Metadata

/-!
# Walking through a table

A row that is read takes as many bytes as the layout says. So a walk through a table meets the rows
that can be asked for by their numbers, in ascending order and up to the first damaged one. If none
is damaged, the first row with some property is the one with the smallest number.
-/

namespace CilLoader

namespace Decoder

variable {α β : Type}

/-- Whatever is read, so many bytes are consumed. -/
def Advances (decoder : Decoder α) (size : Nat) : Prop :=
  ∀ data position value stop,
    decoder data position = (.ok value, stop) → stop = position + size

theorem advances_succeed (value : α) : Advances (succeed value) 0 := by
  rintro data position _ _ ⟨⟩
  rfl

theorem advances_ofExcept (result : Except Error α) : Advances (ofExcept result) 0 := by
  cases result with
  | error error =>
      rintro data position _ _ ⟨⟩
  | ok value => exact advances_succeed value

theorem advances_number (width : Nat) : Advances (number width) width := by
  intro data position value stop read
  rw [number] at read
  split at read <;> cases read
  rfl

theorem Advances.bind {first : Decoder α} {next : α → Decoder β} {size rest : Nat}
    (advances : Advances first size) (advancesNext : ∀ value, Advances (next value) rest) :
    Advances (first >>= next) (size + rest) := by
  intro data position value stop read
  rw [bind_apply] at read
  split at read
  · rename_i start middle begun
    have before := advances data position start middle begun
    have after := advancesNext start data middle value stop read
    omega
  · cases read

end Decoder

open Decoder

theorem Column.advances_decoder (layout : Layout) (column : Column) :
    (column.decoder layout).Advances (column.width layout) := by
  cases column with
  | number storage =>
      rw [decoder, width, ← storage.readWidth_eq layout]
      exact advances_number _
  | coded kind => exact (advances_number _).bind fun _ => advances_ofExcept _

theorem Cells.advances_decoder (layout : Layout) (columns : List Column) :
    (Cells.decoder layout columns).Advances (Bytes.total (columns.map (·.width layout))) := by
  induction columns with
  | nil => exact advances_succeed ()
  | cons column columns induction =>
      exact (column.advances_decoder layout).bind fun _ => induction.bind fun _ =>
        advances_succeed _

theorem Row.advances_decoder (ρ : Type) [Row ρ] (layout : Layout) (rid : Nat) :
    (Row.decoder ρ layout rid).Advances (layout.rowSize (Row.table ρ)) :=
  (Cells.advances_decoder layout _).bind fun _ => advances_succeed _

theorem Row.rid_of_decoder {ρ : Type} [Row ρ] {layout : Layout} {rid position stop : Nat}
    {data : Bytes} {row : ρ} (read : Row.decoder ρ layout rid data position = (.ok row, stop)) :
    Row.rid row = rid := by
  rcases bind_eq_ok.mp read with ⟨cells, _, _, ⟨⟩⟩
  exact Row.rid_ofCells rid cells

namespace Table

variable {ρ : Type} [Row ρ] {table : Table ρ}

/-- No row is damaged. -/
def Intact (table : Table ρ) : Prop :=
  ∀ rid, 1 ≤ rid → rid ≤ table.rowCount → ∃ row, table.get? rid = some row

theorem decoder_eq_of_get? {rid : Nat} {row : ρ} (found : table.get? rid = some row) :
    ∃ stop, Row.decoder ρ table.layout rid table.data (table.start + (rid - 1) * table.rowSize) =
      (.ok row, stop) := by
  rw [get?] at found
  split at found
  · cases found
  · split at found
    · rename_i decoded stop read
      cases found
      exact ⟨stop, read⟩
    · cases found

theorem rid_eq_of_get? {rid : Nat} {row : ρ} (found : table.get? rid = some row) :
    Row.rid row = rid := by
  rcases decoder_eq_of_get? found with ⟨stop, read⟩
  exact Row.rid_of_decoder read

/-! ## The walk -/

/-- The place of a walk that has passed some rows. -/
def iteratorAt (table : Table ρ) (passed : Nat) : Iterator ρ :=
  ⟨table, passed, table.start + passed * table.rowSize⟩

theorem iterator_eq_iteratorAt (table : Table ρ) : table.iterator = table.iteratorAt 0 := by
  rw [iterator, iteratorAt, Nat.zero_mul, Nat.add_zero]

theorem next_iteratorAt {passed : Nat} {row : ρ} (found : table.get? (passed + 1) = some row) :
    (table.iteratorAt passed).next = (some row, table.iteratorAt (passed + 1)) := by
  have inside : ¬table.rowCount ≤ passed := Nat.not_le.mpr (rid_of_get? found).2
  rcases decoder_eq_of_get? found with ⟨stop, read⟩
  -- What the row has consumed is its size, so the walk stands where the next row is asked for.
  have place : stop = table.start + (passed + 1) * table.rowSize := by
    rw [Row.advances_decoder ρ table.layout (passed + 1) _ _ _ _ read, Nat.add_sub_cancel,
      Nat.succ_mul, Nat.add_assoc]
    rfl
  rw [Nat.add_sub_cancel] at read
  rw [Iterator.next, iteratorAt, if_neg inside]
  simp only [read, place]
  rfl

theorem fst_next_iteratorAt (passed : Nat) :
    (table.iteratorAt passed).next.1 = table.get? (passed + 1) := by
  rw [Iterator.next, get?, iteratorAt]
  by_cases passedAll : table.rowCount ≤ passed
  · rw [if_pos passedAll, if_pos (.inr (by omega))]
  · rw [if_neg passedAll, if_neg (by omega), Nat.add_sub_cancel]
    dsimp only
    split <;> rfl

/-- A walk meets the rows that can be asked for, up to the first damaged one. -/
theorem collect_iteratorAt (count passed : Nat) (reversed : List ρ) :
    (table.iteratorAt passed).collect count reversed =
      (((List.range' (passed + 1) count).takeWhile fun rid => (table.get? rid).isSome).filterMap
        table.get?).reverse ++ reversed := by
  induction count generalizing passed reversed with
  | zero => rfl
  | succ count induction =>
      rw [Iterator.collect, List.range'_succ, List.takeWhile_cons]
      cases found : table.get? (passed + 1) with
      | none =>
          have ended := (fst_next_iteratorAt passed).trans found
          split
          · rename_i next
            rw [next] at ended
            cases ended
          · simp
      | some row =>
          rw [next_iteratorAt found]
          dsimp only
          rw [induction (passed + 1) (row :: reversed), Option.isSome_some, if_pos rfl,
            List.filterMap_cons_some found, List.reverse_cons, List.append_assoc]
          rfl

theorem rows_eq_takeWhile (table : Table ρ) :
    table.rows =
      ((List.range' 1 table.rowCount).takeWhile fun rid => (table.get? rid).isSome).filterMap
        table.get? := by
  rw [rows, iterator_eq_iteratorAt, collect_iteratorAt, List.append_nil, List.reverse_reverse,
    Nat.zero_add]

theorem get?_of_mem_rows {row : ρ} (member : row ∈ table.rows) :
    table.get? (Row.rid row) = some row := by
  rw [rows_eq_takeWhile, List.mem_filterMap] at member
  rcases member with ⟨rid, _, found⟩
  rwa [rid_eq_of_get? found]

/-- A walk through an intact table meets every row that can be asked for. -/
theorem rows_eq_filterMap (intact : table.Intact) :
    table.rows = (List.range' 1 table.rowCount).filterMap table.get? := by
  have undamaged : ∀ rid ∈ List.range' 1 table.rowCount, (table.get? rid).isSome = true := by
    intro rid member
    have inside := List.mem_range'_1.mp member
    exact Option.isSome_iff_exists.mpr (intact rid inside.1 (by omega))
  rw [rows_eq_takeWhile, List.takeWhile_eq_self_iff.mpr undamaged]

theorem mem_rows (intact : table.Intact) {row : ρ} :
    row ∈ table.rows ↔ table.get? (Row.rid row) = some row := by
  rw [rows_eq_filterMap intact, List.mem_filterMap]
  constructor
  · rintro ⟨rid, _, found⟩
    rwa [rid_eq_of_get? found]
  · intro found
    have inside := rid_of_get? found
    exact ⟨Row.rid row, List.mem_range'_1.mpr (by omega), found⟩

theorem rows_ascending (table : Table ρ) :
    table.rows.Pairwise fun left right => Row.rid left < Row.rid right := by
  rw [rows_eq_takeWhile, List.pairwise_filterMap]
  refine ((List.pairwise_lt_range' 1).sublist (List.takeWhile_sublist _)).imp ?_
  intro left right ascending leftRow foundLeft rightRow foundRight
  rwa [rid_eq_of_get? foundLeft, rid_eq_of_get? foundRight]

/-- A walk that reaches a row has met all rows with smaller numbers. -/
theorem mem_rows_of_le {row other : ρ} (member : row ∈ table.rows) {rid : Nat}
    (found : table.get? rid = some other) (notBehind : rid ≤ Row.rid row) : other ∈ table.rows := by
  rw [rows_eq_takeWhile, List.mem_filterMap] at member ⊢
  rcases member with ⟨reached, walked, foundRow⟩
  rw [rid_eq_of_get? foundRow] at notBehind
  have inside := rid_of_get? found
  have numbered : rid ∈ List.range' 1 table.rowCount := List.mem_range'_1.mpr (by omega)
  have ascending : (List.range' 1 table.rowCount).Pairwise (· < ·) := List.pairwise_lt_range' 1
  have cut : ((List.range' 1 table.rowCount).takeWhile fun rid => (table.get? rid).isSome) ++
      (List.range' 1 table.rowCount).dropWhile (fun rid => (table.get? rid).isSome) =
        List.range' 1 table.rowCount := List.takeWhile_append_dropWhile
  rw [← cut] at numbered ascending
  rcases List.mem_append.mp numbered with met | behind
  · exact ⟨rid, met, found⟩
  · have above := (List.pairwise_append.mp ascending).2.2 reached walked rid behind
    omega

end Table

namespace Metadata

variable {ρ : Type} [Row ρ] {metadata : Metadata}

/-- No row of one kind is damaged. -/
def Intact (metadata : Metadata) (ρ : Type) [Row ρ] : Prop :=
  ∀ rid, 1 ≤ rid → rid ≤ metadata.rowCount (Row.table ρ) →
    ∃ row, metadata.row? ρ rid = some row

instance (metadata : Metadata) (ρ : Type) [Row ρ] : Decidable (metadata.Intact ρ) :=
  decidable_of_iff
    (∀ rid < metadata.rowCount (Row.table ρ) + 1,
      1 ≤ rid → (metadata.row? ρ rid).isSome = true) (by
        simp only [Intact, Option.isSome_iff_exists, Nat.lt_succ_iff]
        exact forall_congr' fun rid => forall_comm)

theorem row?_eq {table : Table ρ} (present : metadata.table? ρ = some table) (rid : Nat) :
    metadata.row? ρ rid = table.get? rid := by
  rw [row?, present, Option.bind_some]

theorem rid_eq_of_row? {rid : Nat} {row : ρ} (found : metadata.row? ρ rid = some row) :
    Row.rid row = rid := by
  rcases Option.bind_eq_some_iff.mp found with ⟨table, _, found⟩
  exact Table.rid_eq_of_get? found

theorem Intact.table (intact : metadata.Intact ρ) {table : Table ρ}
    (present : metadata.table? ρ = some table) : table.Intact := by
  intro rid positive inside
  rw [← row?_eq present]
  apply intact rid positive
  rw [table?, TablesStream.table?] at present
  split at present
  · cases present
    exact inside
  · cases present

theorem row?_of_mem_rows {row : ρ} (member : row ∈ metadata.rows ρ) :
    metadata.row? ρ (Row.rid row) = some row := by
  rw [rows] at member
  split at member
  case _ table present =>
    rw [row?_eq present]
    exact Table.get?_of_mem_rows member
  case _ absent => cases member

theorem mem_rows (intact : metadata.Intact ρ) {row : ρ} :
    row ∈ metadata.rows ρ ↔ metadata.row? ρ (Row.rid row) = some row := by
  rw [rows]
  split
  case _ table present => rw [row?_eq present, Table.mem_rows (intact.table present)]
  case _ absent => simp [row?, absent]

theorem rows_ascending (metadata : Metadata) (ρ : Type) [Row ρ] :
    (metadata.rows ρ).Pairwise fun left right => Row.rid left < Row.rid right := by
  rw [rows]
  split
  case _ table present => exact table.rows_ascending
  case _ absent => exact List.Pairwise.nil

theorem mem_rows_of_le {row other : ρ} (member : row ∈ metadata.rows ρ) {rid : Nat}
    (found : metadata.row? ρ rid = some other) (notBehind : rid ≤ Row.rid row) :
    other ∈ metadata.rows ρ := by
  rw [rows] at member ⊢
  split at member
  case _ table present =>
    rw [row?_eq present] at found
    exact Table.mem_rows_of_le member found notBehind
  case _ absent => cases member

/-- Of the rows with some property, the one with the smallest number. -/
structure IsFirst (metadata : Metadata) (accepts : ρ → Prop) (row : ρ) : Prop where
  present : metadata.row? ρ (Row.rid row) = some row
  accepted : accepts row
  first : ∀ rid other, metadata.row? ρ rid = some other → accepts other → Row.rid row ≤ rid

theorem isFirst_of_find?_rows {accepts : ρ → Prop} [DecidablePred accepts] {row : ρ}
    (found : (metadata.rows ρ).find? (fun row => accepts row) = some row) :
    metadata.IsFirst accepts row := by
  rcases List.find?_eq_some_iff_append.mp found with ⟨accepted, before, after, split, rejected⟩
  have member : row ∈ metadata.rows ρ := by simp [split]
  refine ⟨row?_of_mem_rows member, by simpa using accepted, ?_⟩
  intro rid other foundOther acceptedOther
  by_contra smaller
  have memberOther := mem_rows_of_le member foundOther (by omega)
  have ascending := metadata.rows_ascending ρ
  have sameRid := rid_eq_of_row? foundOther
  rw [split] at ascending memberOther
  rcases List.mem_append.mp memberOther with earlier | notEarlier
  · have rejectedOther := rejected other earlier
    simp [acceptedOther] at rejectedOther
  · rcases List.mem_cons.mp notEarlier with same | later
    · subst same
      omega
    · have above := (List.pairwise_cons.mp (List.pairwise_append.mp ascending).2.1).1 other later
      omega

theorem find?_rows_eq_some (intact : metadata.Intact ρ) {accepts : ρ → Prop}
    [DecidablePred accepts] {row : ρ} :
    (metadata.rows ρ).find? (fun row => accepts row) = some row ↔
      metadata.IsFirst accepts row := by
  refine ⟨isFirst_of_find?_rows, fun isFirst => ?_⟩
  rw [List.find?_eq_some_iff_append]
  rcases List.append_of_mem ((mem_rows intact).mpr isFirst.present) with ⟨before, after, split⟩
  refine ⟨by simpa using isFirst.accepted, before, after, split, ?_⟩
  intro earlier member
  have ascending := metadata.rows_ascending ρ
  have memberEarlier : earlier ∈ metadata.rows ρ := by simp [split, member]
  rw [split] at ascending
  have below := (List.pairwise_append.mp ascending).2.2 earlier member row List.mem_cons_self
  rw [Bool.not_eq_true', decide_eq_false_iff_not]
  intro accepted
  have above := isFirst.first _ _ ((mem_rows intact).mp memberEarlier) accepted
  omega

end Metadata

end CilLoader
