import CilLoader.Proofs.Table.Walk

/-!
# Where a walk stops short

A walk ends at the first damaged row, but an intact row behind it can still be asked for by its
number. So what is walked through and what is asked for are the same rows exactly if no intact row
stands behind a damaged one.
-/

namespace CilLoader

/-- Items up to the first that gives nothing give the same as all items exactly if nothing is given
behind that item. -/
theorem filterMap_takeWhile_eq_iff {α β : Type} (give : α → Option β) (items : List α) :
    (items.takeWhile fun item => (give item).isSome).filterMap give = items.filterMap give ↔
      items.Pairwise fun earlier later => give earlier = none → give later = none := by
  induction items with
  | nil => simp
  | cons item items induction =>
      cases given : give item with
      | some value => simp [given, induction]
      | none =>
          have ended : (item :: items).takeWhile (fun item => (give item).isSome) = [] := by
            simp [given]
          rw [ended, List.filterMap_nil, List.filterMap_cons_none given, eq_comm,
            List.filterMap_eq_nil_iff, List.pairwise_cons]
          constructor
          · intro nothing
            refine ⟨fun later member _ => nothing later member, ?_⟩
            exact List.pairwise_of_forall_mem_list fun _ _ later member _ => nothing later member
          · intro behind later member
            exact behind.1 later member given

namespace Table

variable {ρ : Type} [Row ρ]

/-- No intact row stands behind a damaged one. -/
def Gapless (table : Table ρ) : Prop :=
  ∀ rid later, 1 ≤ rid → rid < later → table.get? rid = none → table.get? later = none

theorem gapless_iff_pairwise (table : Table ρ) :
    table.Gapless ↔ (List.range' 1 table.rowCount).Pairwise fun rid later =>
      table.get? rid = none → table.get? later = none := by
  constructor
  · intro gapless
    refine (List.pairwise_lt_range' 1).imp_of_mem ?_
    intro rid later member _ ascending
    exact gapless rid later (List.mem_range'_1.mp member).1 ascending
  · intro pairwise rid later positive ascending damaged
    by_cases inside : later ≤ table.rowCount
    · have orderly := List.pairwise_iff_getElem.mp pairwise (rid - 1) (later - 1)
        (by rw [List.length_range']; omega) (by rw [List.length_range']; omega) (by omega)
      have atRid : 1 + 1 * (rid - 1) = rid := by omega
      have atLater : 1 + 1 * (later - 1) = later := by omega
      rw [List.getElem_range', List.getElem_range', atRid, atLater] at orderly
      exact orderly damaged
    · rw [get?, if_pos (.inr (Nat.lt_of_not_le inside))]

theorem rows_eq_filterMap_iff (table : Table ρ) :
    table.rows = (List.range' 1 table.rowCount).filterMap table.get? ↔ table.Gapless := by
  rw [rows_eq_takeWhile, filterMap_takeWhile_eq_iff, gapless_iff_pairwise]

end Table

namespace Metadata

/-- Among the rows of one kind, no intact row stands behind a damaged one. -/
def Gapless (metadata : Metadata) (ρ : Type) [Row ρ] : Prop :=
  ∀ rid later, 1 ≤ rid → rid < later → metadata.row? ρ rid = none → metadata.row? ρ later = none

variable {ρ : Type} [Row ρ]

theorem rowCount_eq {metadata : Metadata} {table : Table ρ}
    (present : metadata.table? ρ = some table) :
    metadata.rowCount (Row.table ρ) = table.rowCount := by
  rw [table?, TablesStream.table?] at present
  split at present
  · cases present
    rfl
  · cases present

theorem rows_eq_filterMap_iff (metadata : Metadata) :
    metadata.rows ρ = (List.range' 1 (metadata.rowCount (Row.table ρ))).filterMap
        (metadata.row? ρ) ↔
      metadata.Gapless ρ := by
  cases present : metadata.table? ρ with
  | none =>
      have absent : metadata.row? ρ = fun _ => none := by
        funext rid
        rw [row?, present, Option.bind_none]
      simp [rows, present, Gapless, absent]
  | some table =>
      have asked : metadata.row? ρ = table.get? := funext (row?_eq present)
      rw [rows, present, rowCount_eq present, asked, Gapless, asked]
      exact table.rows_eq_filterMap_iff

end Metadata

/-- What a walk meets, and when it is all that can be asked for, in a table and in an image. -/
theorem walked_eq_asked_iff (ρ : Type) [Row ρ] :
    (∀ table : Table ρ,
      table.rows =
        ((List.range' 1 table.rowCount).takeWhile fun rid => (table.get? rid).isSome).filterMap
          table.get? ∧
      (table.rows = (List.range' 1 table.rowCount).filterMap table.get? ↔ table.Gapless)) ∧
    ∀ metadata : Metadata,
      metadata.rows ρ =
        (List.range' 1 (metadata.rowCount (Row.table ρ))).filterMap (metadata.row? ρ) ↔
          metadata.Gapless ρ :=
  ⟨fun table => ⟨table.rows_eq_takeWhile, table.rows_eq_filterMap_iff⟩,
    fun metadata => metadata.rows_eq_filterMap_iff⟩

/-- The coded index of the first of two rows has a tag that stands for no table. -/
def Table.damagedFirst : Table InterfaceImplRow where
  data := #[1, 0, 3, 0, 1, 0, 4, 0]
  start := 0
  rowCount := 2
  layout := ⟨0, .none⟩

/-- The second row can be asked for, and a walk does not meet it. -/
theorem not_walked_eq_asked :
    ¬∀ table : Table InterfaceImplRow,
      table.rows = (List.range' 1 table.rowCount).filterMap table.get? :=
  fun agree => absurd (agree Table.damagedFirst) (by decide)

end CilLoader
