import Mathlib.Data.List.Nodup
import CilLoader.Metadata.Debug
import CilLoader.Proofs.Table.ListRanges

/-!
# Rows with a key

In a table that is sorted by a key, the rows with one value of the key stand together. A binary
search for either end of them narrows the positions down until what is left of the interval is the
boundary itself. So looking rows up by their key gives the same as walking through the table and
keeping the rows with this key, whether there are several of them, one, or none.
-/

namespace CilLoader

namespace Bisect

/-! ## Searching a boundary -/

/-- What a search for a boundary has found out: positions below `low` are before the boundary, and
those from `high` on are not. -/
structure Narrowed (isBefore : Nat → Bool) (first stop low high : Nat) : Prop where
  firstLow : first ≤ low
  ordered : low ≤ high
  highStop : high ≤ stop
  before : ∀ position, first ≤ position → position < low → isBefore position = true
  behind : ∀ position, high ≤ position → position < stop → isBefore position = false

/-- What is before the boundary has only such positions in front of it. -/
def Falling (isBefore : Nat → Bool) (first stop : Nat) : Prop :=
  ∀ position later, first ≤ position → position ≤ later → later < stop →
    isBefore later = true → isBefore position = true

variable {isBefore : Nat → Bool} {first stop low high : Nat}

theorem narrowed_start (ordered : first ≤ stop) : Narrowed isBefore first stop first stop where
  firstLow := Nat.le_refl first
  ordered := ordered
  highStop := Nat.le_refl stop
  before := fun _ inside below => absurd below (Nat.not_lt.mpr inside)
  behind := fun _ above inside => absurd inside (Nat.not_lt.mpr above)

/-- A position in the interval halves it, on one side or the other. -/
theorem Narrowed.step (narrowed : Narrowed isBefore first stop low high)
    (falling : Falling isBefore first stop) {middle : Nat} (lowMiddle : low ≤ middle)
    (middleHigh : middle < high) :
    if isBefore middle then Narrowed isBefore first stop (middle + 1) high
    else Narrowed isBefore first stop low middle := by
  have middleStop : middle < stop := Nat.lt_of_lt_of_le middleHigh narrowed.highStop
  split
  case isTrue before =>
    refine ⟨Nat.le_succ_of_le (Nat.le_trans narrowed.firstLow lowMiddle), middleHigh,
      narrowed.highStop, ?_, narrowed.behind⟩
    intro position inside upTo
    exact falling position middle inside (Nat.le_of_lt_succ upTo) middleStop before
  case isFalse notBefore =>
    refine ⟨narrowed.firstLow, lowMiddle, Nat.le_of_lt middleStop, narrowed.before, ?_⟩
    intro position from' inside
    rw [Bool.eq_false_iff]
    intro before
    exact notBefore (falling middle position (Nat.le_trans narrowed.firstLow lowMiddle) from' inside
      before)

theorem narrowed_boundaryWithin (falling : Falling isBefore first stop) {bound : Nat}
    (enough : high ≤ low + bound) (narrowed : Narrowed isBefore first stop low high) :
    Narrowed isBefore first stop (boundaryWithin isBefore bound low high)
      (boundaryWithin isBefore bound low high) := by
  induction bound generalizing low high with
  | zero =>
      have closed : high = low := Nat.le_antisymm enough narrowed.ordered
      rwa [closed] at narrowed
  | succ bound induction =>
      rw [boundaryWithin]
      split
      case isTrue open' =>
        dsimp only
        generalize middleIs : low + (high - low) / 2 = middle
        have lowMiddle : low ≤ middle := by omega
        have middleHigh : middle < high := by omega
        have half := narrowed.step falling lowMiddle middleHigh
        split
        case isTrue before =>
          rw [if_pos before] at half
          exact induction (by omega) half
        case isFalse notBefore =>
          rw [if_neg notBefore] at half
          exact induction (by omega) half
      case isFalse closed =>
        have same : high = low := Nat.le_antisymm (Nat.le_of_not_lt closed) narrowed.ordered
        rwa [same] at narrowed

theorem narrowed_boundary (falling : Falling isBefore first stop) (ordered : first ≤ stop) :
    Narrowed isBefore first stop (boundary isBefore first stop)
      (boundary isBefore first stop) :=
  narrowed_boundaryWithin falling (by omega) (narrowed_start ordered)

end Bisect

/-! ## Ranges of rows with a key -/

/-- The row numbers of a table, before a range, in it and behind it. -/
theorem RowRange.range'_eq_append (range : RowRange) {count : Nat} (positive : 1 ≤ range.start)
    (ordered : range.start ≤ range.stop) (inside : range.stop ≤ count + 1) :
    List.range' 1 count = List.range' 1 (range.start - 1) ++ range.toList ++
      List.range' range.stop (count + 1 - range.stop) := by
  have startIs : range.start = 1 + (range.start - 1) := by omega
  have stopIs : range.stop = 1 + (range.start - 1 + (range.stop - range.start)) := by omega
  have size : count =
      range.start - 1 + (range.stop - range.start) + (count + 1 - range.stop) := by omega
  calc List.range' 1 count
      = List.range' 1 (range.start - 1 + (range.stop - range.start)) ++
          List.range' range.stop (count + 1 - range.stop) := by
        conv => lhs; rw [size]
        rw [← List.range'_append_1, ← stopIs]
    _ = List.range' 1 (range.start - 1) ++ range.toList ++
          List.range' range.stop (count + 1 - range.stop) := by
        rw [← List.range'_append_1, ← startIs, toList]

namespace Table

variable {ρ : Type} [Row ρ] {table : Table ρ} {key : ρ → Nat}

/-- The keys of the rows do not descend. -/
def SortedBy (table : Table ρ) (key : ρ → Nat) : Prop :=
  ∀ rid row later laterRow, table.get? rid = some row → table.get? later = some laterRow →
    rid ≤ later → key row ≤ key laterRow

theorem keyAt_of_get? {rid : Nat} {row : ρ} (found : table.get? rid = some row) :
    table.keyAt key rid = key row := by
  rw [keyAt, found]

theorem SortedBy.keyAt_le (sorted : table.SortedBy key) (intact : table.Intact) {rid later : Nat}
    (positive : 1 ≤ rid) (ordered : rid ≤ later) (inside : later < table.rowCount + 1) :
    table.keyAt key rid ≤ table.keyAt key later := by
  rcases intact rid positive (by omega) with ⟨row, found⟩
  rcases intact later (by omega) (by omega) with ⟨laterRow, foundLater⟩
  rw [keyAt_of_get? found, keyAt_of_get? foundLater]
  exact sorted rid row later laterRow found foundLater ordered

/-- The search finds where the keys below a value end, and where those up to it do. -/
structure KeyedRange (table : Table ρ) (key : ρ → Nat) (value : Nat) (range : RowRange) : Prop where
  positive : 1 ≤ range.start
  ordered : range.start ≤ range.stop
  inside : range.stop ≤ table.rowCount + 1
  below : ∀ rid, 1 ≤ rid → rid < range.start → table.keyAt key rid < value
  equal : ∀ rid, range.start ≤ rid → rid < range.stop → table.keyAt key rid = value
  above : ∀ rid, range.stop ≤ rid → rid ≤ table.rowCount → value < table.keyAt key rid

theorem keyedRange_equalRange (intact : table.Intact) (sorted : table.SortedBy key) (value : Nat) :
    table.KeyedRange key value (table.equalRange key value) := by
  have falling (limit : Nat) :
      Bisect.Falling (fun rid => decide (table.keyAt key rid < limit)) 1 (table.rowCount + 1) := by
    intro rid later positive ordered inside below
    have keys := sorted.keyAt_le intact positive ordered inside
    exact decide_eq_true (Nat.lt_of_le_of_lt keys (of_decide_eq_true below))
  -- A key is up to the value exactly if it is below the next one.
  have upTo : (fun rid => decide (table.keyAt key rid ≤ value)) =
      fun rid => decide (table.keyAt key rid < value + 1) := by
    funext rid
    exact decide_eq_decide.mpr Nat.lt_succ_iff.symm
  have room : 1 ≤ table.rowCount + 1 := Nat.le_add_left 1 _
  have lower := Bisect.narrowed_boundary (falling value) room
  have upper := Bisect.narrowed_boundary (falling (value + 1)) room
  rw [equalRange, upTo]
  generalize Bisect.boundary _ 1 (table.rowCount + 1) = start at lower ⊢
  generalize Bisect.boundary _ 1 (table.rowCount + 1) = stop at upper ⊢
  have ordered : start ≤ stop := by
    by_contra crossed
    have below := of_decide_eq_true (lower.before stop upper.firstLow (by omega))
    have notUpTo := of_decide_eq_false (upper.behind stop (Nat.le_refl stop)
      (Nat.lt_of_lt_of_le (by omega) lower.highStop))
    omega
  refine ⟨lower.firstLow, ordered, upper.highStop, ?_, ?_, ?_⟩
  · intro rid positive inside
    exact of_decide_eq_true (lower.before rid positive inside)
  · intro rid from' inside
    have notBelow := of_decide_eq_false (lower.behind rid from'
      (Nat.lt_of_lt_of_le inside upper.highStop))
    have upTo := of_decide_eq_true (upper.before rid (Nat.le_trans lower.firstLow from') inside)
    omega
  · intro rid from' inside
    have notUpTo := of_decide_eq_false (upper.behind rid from' (Nat.lt_succ_of_le inside))
    omega

theorem filter_key_eq_self {value : Nat} {rids : List Nat}
    (same : ∀ rid ∈ rids, table.keyAt key rid = value) :
    (rids.filterMap table.get?).filter (fun row => key row == value) =
      rids.filterMap table.get? := by
  rw [List.filter_eq_self]
  intro row member
  rcases List.mem_filterMap.mp member with ⟨rid, memberRid, found⟩
  exact beq_iff_eq.mpr ((keyAt_of_get? found).symm.trans (same rid memberRid))

theorem filter_key_eq_nil {value : Nat} {rids : List Nat}
    (different : ∀ rid ∈ rids, table.keyAt key rid ≠ value) :
    (rids.filterMap table.get?).filter (fun row => key row == value) = [] := by
  rw [List.filter_eq_nil_iff]
  intro row member same
  rcases List.mem_filterMap.mp member with ⟨rid, memberRid, found⟩
  exact different rid memberRid ((keyAt_of_get? found).trans (beq_iff_eq.mp same))

/-- The rows in the range are those that a walk keeps, since all others have another key. -/
theorem KeyedRange.getAll_eq_filter {value : Nat} {range : RowRange}
    (keyed : table.KeyedRange key value range) (intact : table.Intact) :
    table.getAll range = table.rows.filter fun row => key row == value := by
  have below : ∀ rid ∈ List.range' 1 (range.start - 1), table.keyAt key rid ≠ value := by
    intro rid member
    have inside := List.mem_range'_1.mp member
    exact Nat.ne_of_lt (keyed.below rid inside.1 (by omega))
  have equal : ∀ rid ∈ range.toList, table.keyAt key rid = value := by
    intro rid member
    rw [RowRange.toList, List.mem_range'_1] at member
    exact keyed.equal rid member.1 (by omega)
  have above : ∀ rid ∈ List.range' range.stop (table.rowCount + 1 - range.stop),
      table.keyAt key rid ≠ value := by
    intro rid member
    have inside := List.mem_range'_1.mp member
    exact Nat.ne_of_gt (keyed.above rid inside.1 (by omega))
  rw [rows_eq_filterMap intact,
    range.range'_eq_append keyed.positive keyed.ordered keyed.inside, List.filterMap_append,
    List.filterMap_append, List.filter_append, List.filter_append, filter_key_eq_nil below,
    filter_key_eq_self equal, filter_key_eq_nil above, List.nil_append, List.append_nil, getAll]

/-- The row at the start of the range is the first one in it, if there is one. -/
theorem KeyedRange.head?_getAll {value : Nat} {range : RowRange}
    (keyed : table.KeyedRange key value range) (intact : table.Intact) :
    (table.getAll range).head? =
      if range.start < range.stop then table.get? range.start else none := by
  rw [getAll, RowRange.toList]
  split
  case isTrue nonempty =>
    have size : range.stop - range.start = range.stop - range.start - 1 + 1 := by omega
    have inside := keyed.inside
    rcases intact range.start keyed.positive (by omega) with ⟨row, found⟩
    rw [size, List.range'_succ, List.filterMap_cons_some found, List.head?_cons, found]
  case isFalse empty =>
    have size : range.stop - range.start = 0 := by omega
    rw [size]
    rfl

end Table

namespace Metadata

variable {ρ : Type} [Row ρ] {metadata : Metadata} {key : ρ → Nat}

theorem Ascending.sortedBy (ascending : metadata.Ascending key) (intact : metadata.Intact ρ)
    {table : Table ρ} (present : metadata.table? ρ = some table) : table.SortedBy key := by
  intro rid row later laterRow found foundLater
  rw [← row?_eq present] at found foundLater
  exact ascending.le intact found foundLater

theorem rowsWithKey_eq_filter (intact : metadata.Intact ρ) (ascending : metadata.Ascending key)
    (value : Nat) :
    metadata.rowsWithKey key value = (metadata.rows ρ).filter fun row => key row == value := by
  cases present : metadata.table? ρ with
  | none => simp [rowsWithKey, rows, present]
  | some table =>
      have undamaged := intact.table present
      have keyed := Table.keyedRange_equalRange undamaged (ascending.sortedBy intact present) value
      rw [rowsWithKey, rows, present]
      exact keyed.getAll_eq_filter undamaged

theorem enclosingType?_eq_find? (intact : metadata.Intact NestedClassRow)
    (ascending : metadata.Ascending NestedClassRow.nested) (type : Nat) :
    metadata.enclosingType? type =
      ((metadata.rows NestedClassRow).find? (·.nested == type)).map (·.enclosing) := by
  cases present : metadata.table? NestedClassRow with
  | none => simp [enclosingType?, rows, present]
  | some table =>
      have undamaged := intact.table present
      have keyed := Table.keyedRange_equalRange undamaged (ascending.sortedBy intact present) type
      rw [enclosingType?, rows, present, ← List.head?_filter]
      dsimp only
      rw [← keyed.getAll_eq_filter undamaged, keyed.head?_getAll undamaged]
      generalize table.equalRange (fun row => row.nested) type = range
      cases table.get? range.start with
      | none => simp
      | some row => by_cases nonempty : range.start < range.stop <;> simp [nonempty]

/-- If no type stands inside two others, the type around a type is the one that it is listed in. -/
theorem enclosingType?_eq_some_iff (intact : metadata.Intact NestedClassRow)
    (ascending : metadata.Ascending NestedClassRow.nested) (unique : metadata.nestedTypes.Nodup)
    {type enclosing : Nat} :
    metadata.enclosingType? type = some enclosing ↔ type ∈ metadata.nestedTypesOf enclosing := by
  rw [enclosingType?_eq_find? intact ascending, Option.map_eq_some_iff, nestedTypesOf]
  simp only [List.mem_map, List.mem_filter, beq_iff_eq]
  constructor
  · rintro ⟨row, found, rfl⟩
    exact ⟨row, ⟨List.mem_of_find?_eq_some found, rfl⟩, by simpa using List.find?_some found⟩
  · rintro ⟨row, ⟨member, rfl⟩, rfl⟩
    cases found : (metadata.rows NestedClassRow).find? (·.nested == row.nested) with
    | none => simpa using List.find?_eq_none.mp found row member
    | some other =>
        have sameKey : other.nested = row.nested := by simpa using List.find?_some found
        have same :=
          List.inj_on_of_nodup_map unique (List.mem_of_find?_eq_some found) member sameKey
        exact ⟨other, rfl, congrArg NestedClassRow.enclosing same⟩

/-- What is looked up by a key is what a walk through the table keeps. -/
theorem keyedRows_eq_walkedRows (metadata : Metadata) :
    (metadata.Intact InterfaceImplRow → metadata.Ascending InterfaceImplRow.implementor →
      ∀ type, metadata.interfaceImpls type =
        (metadata.rows InterfaceImplRow).filter (·.implementor == type)) ∧
    (metadata.Intact LocalScopeRow → metadata.Ascending LocalScopeRow.method →
      ∀ method, metadata.localScopes method =
        (metadata.rows LocalScopeRow).filter (·.method == method)) ∧
    (metadata.Intact NestedClassRow → metadata.Ascending NestedClassRow.nested →
      (∀ type, metadata.enclosingType? type =
        ((metadata.rows NestedClassRow).find? (·.nested == type)).map (·.enclosing)) ∧
      (∀ type, metadata.enclosingType? type = none ↔
        ∀ rid row, metadata.row? NestedClassRow rid = some row → row.nested ≠ type) ∧
      (metadata.nestedTypes.Nodup → ∀ type enclosing,
        metadata.enclosingType? type = some enclosing ↔
          type ∈ metadata.nestedTypesOf enclosing)) := by
  refine ⟨rowsWithKey_eq_filter, rowsWithKey_eq_filter, ?_⟩
  intro intact ascending
  refine ⟨enclosingType?_eq_find? intact ascending, ?_, ?_⟩
  · intro type
    rw [enclosingType?_eq_find? intact ascending, Option.map_eq_none_iff, List.find?_eq_none]
    constructor
    · intro absent rid row found same
      have member : row ∈ metadata.rows NestedClassRow :=
        (mem_rows intact).mpr ((rid_eq_of_row? found).symm ▸ found)
      exact absent row member (beq_iff_eq.mpr same)
    · intro absent row member same
      exact absent _ row ((mem_rows intact).mp member) (beq_iff_eq.mp same)
  · intro unique type enclosing
    exact enclosingType?_eq_some_iff intact ascending unique

/-- Three interfaces, three types inside others and three scopes, each sorted by the row they belong
to. -/
def keyedData : Bytes := #[
  -- the root
  0x42, 0x53, 0x4A, 0x42, 1, 0, 1, 0, 0, 0, 0, 0, 0, 0, 0, 0, 0, 0, 1, 0,
  -- the header of the stream
  0x20, 0, 0, 0, 0x6C, 0, 0, 0, 0x23, 0x7E, 0, 0,
  0, 0, 0, 0, 2, 0, 0, 1, 0, 2, 0, 0, 0, 2, 4, 0, 0, 0, 0, 0, 0, 0, 0, 0,
  3, 0, 0, 0, 3, 0, 0, 0, 3, 0, 0, 0,
  -- the interfaces: two of the first type and one of the third
  1, 0, 4, 0, 1, 0, 8, 0, 3, 0, 4, 0,
  -- the types inside others: two inside the first and one inside the third
  2, 0, 1, 0, 3, 0, 1, 0, 5, 0, 3, 0,
  -- the scopes: one of the first method and two of the greatest row number that a column can hold
  1, 0, 0, 0, 1, 0, 1, 0, 0, 0, 0, 0, 9, 0, 0, 0,
  0xFF, 0xFF, 0, 0, 1, 0, 1, 0, 0, 0, 0, 0, 9, 0, 0, 0,
  0xFF, 0xFF, 0, 0, 1, 0, 1, 0, 2, 0, 0, 0, 3, 0, 0, 0]

theorem keyedRows_eq_walkedRows_several :
    ∃ metadata, read keyedData = .ok metadata ∧
      metadata.Intact InterfaceImplRow ∧ metadata.Ascending InterfaceImplRow.implementor ∧
      metadata.Intact LocalScopeRow ∧ metadata.Ascending LocalScopeRow.method ∧
      metadata.Intact NestedClassRow ∧ metadata.Ascending NestedClassRow.nested ∧
      metadata.nestedTypes.Nodup ∧
      (metadata.interfaceImpls 1).map (·.rid) = [1, 2] ∧
      (metadata.localScopes 0xFFFF).map (·.rid) = [2, 3] ∧
      metadata.enclosingType? 5 = some 3 ∧ metadata.enclosingType? 4 = none := by
  have evaluated : (read keyedData).toOption.any (fun metadata => decide (
      metadata.Intact InterfaceImplRow ∧ metadata.Ascending InterfaceImplRow.implementor ∧
      metadata.Intact LocalScopeRow ∧ metadata.Ascending LocalScopeRow.method ∧
      metadata.Intact NestedClassRow ∧ metadata.Ascending NestedClassRow.nested ∧
      metadata.nestedTypes.Nodup ∧
      ((metadata.rows InterfaceImplRow).filter (·.implementor == 1)).map (·.rid) = [1, 2] ∧
      ((metadata.rows LocalScopeRow).filter (·.method == 0xFFFF)).map (·.rid) = [2, 3] ∧
      5 ∈ metadata.nestedTypesOf 3 ∧ 4 ∉ metadata.nestedTypes)) = true := by
    decide +kernel
  simp only [Option.any_eq_true, decide_eq_true_eq] at evaluated
  obtain ⟨metadata, made, interfaces, interfacesSorted, scopes, scopesSorted, nested, nestedSorted,
    unique, walkedInterfaces, walkedScopes, listed, unlisted⟩ := evaluated
  obtain ⟨keyedInterfaces, keyedScopes, keyedTypes⟩ := keyedRows_eq_walkedRows metadata
  obtain ⟨_, absent, around⟩ := keyedTypes nested nestedSorted
  refine ⟨metadata, Error.toOption_eq_some.mp made, interfaces, interfacesSorted, scopes,
    scopesSorted, nested, nestedSorted, unique, ?_, ?_, (around unique 5 3).mpr listed, ?_⟩
  · rw [keyedInterfaces interfaces interfacesSorted 1, walkedInterfaces]
  · rw [keyedScopes scopes scopesSorted 0xFFFF, walkedScopes]
  · refine (absent 4).mpr fun rid row found same => unlisted ?_
    have member := (mem_rows nested).mpr ((rid_eq_of_row? found).symm ▸ found)
    exact List.mem_map.mpr ⟨row, member, same⟩

end Metadata

end CilLoader
