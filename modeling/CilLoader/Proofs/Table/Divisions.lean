import CilLoader.Metadata.Debug
import CilLoader.Proofs.Table.ListRanges

/-!
# Rows divided among their owners

If the starts of lists ascend, each list ends where the next one begins, and the last one ends with
the target table. So the owners divide the rows of the target table among them, from the first start
on: every row is in the list of one owner, and the lists taken one after the other are the rows in
order. Starts at zero or behind the target table are moved into it, where they still ascend.
-/

namespace CilLoader

namespace RowRange

/-- The ranges of owners, counted from one, that divide some row numbers among them. -/
structure Divides (ranges : Nat → RowRange) (owners : Nat) (whole : RowRange) : Prop where
  begins : (ranges 1).start = whole.start
  ordered : ∀ owner, 1 ≤ owner → owner ≤ owners → (ranges owner).start ≤ (ranges owner).stop
  joined : ∀ owner, 1 ≤ owner → owner < owners →
    (ranges owner).stop = (ranges (owner + 1)).start
  ends : (ranges owners).stop = whole.stop

namespace Divides

variable {ranges : Nat → RowRange} {owners : Nat} {whole : RowRange}

theorem stop_le_start (divides : Divides ranges owners whole) {owner later : Nat}
    (positive : 1 ≤ owner) (before : owner < later) (inside : later ≤ owners) :
    (ranges owner).stop ≤ (ranges later).start := by
  induction later, before using Nat.le_induction with
  | base => exact Nat.le_of_eq (divides.joined owner positive inside)
  | succ later before induction =>
      calc (ranges owner).stop
          ≤ (ranges later).start := induction (by omega)
        _ ≤ (ranges later).stop := divides.ordered later (by omega) (by omega)
        _ = (ranges (later + 1)).start := divides.joined later (by omega) (by omega)

/-- What the first owners have got so far is all that stands before the stop of the last of them. -/
theorem flatMap_toList_upTo (divides : Divides ranges owners whole) {count : Nat}
    (positive : 1 ≤ count) (inside : count ≤ owners) :
    whole.start ≤ (ranges count).stop ∧
      (List.range' 1 count).flatMap (fun owner => (ranges owner).toList) =
        List.range' whole.start ((ranges count).stop - whole.start) := by
  induction count, positive using Nat.le_induction with
  | base =>
      have ordered := divides.ordered 1 (Nat.le_refl 1) inside
      rw [divides.begins] at ordered
      refine ⟨ordered, ?_⟩
      rw [List.range'_one, List.flatMap_singleton, toList, divides.begins]
  | succ count positive induction =>
      rcases induction (by omega) with ⟨behindStart, soFar⟩
      have joined := divides.joined count positive inside
      have ordered := divides.ordered (count + 1) (by omega) inside
      refine ⟨by omega, ?_⟩
      have place : whole.start + ((ranges count).stop - whole.start) =
          (ranges (count + 1)).start := by omega
      have size : (ranges count).stop - whole.start +
          ((ranges (count + 1)).stop - (ranges (count + 1)).start) =
            (ranges (count + 1)).stop - whole.start := by omega
      rw [List.range'_1_concat, List.flatMap_append, soFar, List.flatMap_singleton,
        Nat.add_comm 1 count, toList, ← place, List.range'_append_1, place, size]

/-- The lists of all owners, one after the other, are the whole. -/
theorem flatMap_toList (divides : Divides ranges owners whole) (positive : 1 ≤ owners) :
    (List.range' 1 owners).flatMap (fun owner => (ranges owner).toList) = whole.toList := by
  rw [(divides.flatMap_toList_upTo positive (Nat.le_refl owners)).2, divides.ends, toList]

theorem owner_unique (divides : Divides ranges owners whole) {owner other rid : Nat}
    (isOwner : 1 ≤ owner ∧ owner ≤ owners) (isOwnerToo : 1 ≤ other ∧ other ≤ owners)
    (contains : (ranges owner).contains rid = true)
    (containsToo : (ranges other).contains rid = true) : owner = other := by
  simp only [RowRange.contains, Bool.and_eq_true, decide_eq_true_eq] at contains containsToo
  rcases Nat.lt_trichotomy owner other with before | same | behind
  · have apart := divides.stop_le_start isOwner.1 before isOwnerToo.2
    omega
  · exact same
  · have apart := divides.stop_le_start isOwnerToo.1 behind isOwner.2
    omega

/-- Exactly the rows of the whole have an owner, and no row has two. -/
theorem contains_iff_existsUnique (divides : Divides ranges owners whole) (positive : 1 ≤ owners)
    (rid : Nat) :
    whole.contains rid = true ↔
      ∃! owner, (1 ≤ owner ∧ owner ≤ owners) ∧ (ranges owner).contains rid = true := by
  have owned : whole.contains rid = true ↔
      ∃ owner, (1 ≤ owner ∧ owner ≤ owners) ∧ (ranges owner).contains rid = true := by
    rw [← mem_toList, ← divides.flatMap_toList positive, List.mem_flatMap]
    refine exists_congr fun owner => and_congr ?_ mem_toList
    rw [List.mem_range'_1]
    omega
  rw [owned]
  constructor
  · rintro ⟨owner, isOwner, contains⟩
    refine ⟨owner, ⟨isOwner, contains⟩, ?_⟩
    rintro other ⟨isOwnerToo, containsToo⟩
    exact divides.owner_unique isOwnerToo isOwner containsToo contains
  · exact ExistsUnique.exists

end Divides

end RowRange

open RowRange

namespace Metadata

variable {ρ : Type} [Row ρ] {metadata : Metadata} {list : ρ → Nat} {target : TableId}

/-- The rows of a table from some row on. -/
def rowsFrom (metadata : Metadata) (target : TableId) (start : Nat) : RowRange where
  start := clamp 1 (metadata.rowCount target + 1) start
  stop := metadata.rowCount target + 1

theorem contains_rowsFrom {start rid : Nat} :
    (metadata.rowsFrom target start).contains rid = true ↔
      1 ≤ rid ∧ start ≤ rid ∧ rid ≤ metadata.rowCount target := by
  rw [RowRange.contains, Bool.and_eq_true, decide_eq_true_eq, decide_eq_true_eq]
  simp only [rowsFrom, clamp]
  omega

theorem listRange_of_next {owner : Nat} {row next : ρ}
    (found : metadata.row? ρ owner = some row)
    (foundNext : metadata.row? ρ (owner + 1) = some next) :
    metadata.listRange list target owner =
      let start := (metadata.rowsFrom target (list row)).start
      ⟨start, clamp start (metadata.rowCount target + 1) (list next)⟩ := by
  rcases Option.bind_eq_some_iff.mp found with ⟨table, present, foundRow⟩
  rw [row?_eq present] at foundNext
  simp only [listRange, present, foundRow, foundNext, rowsFrom]

theorem listRange_of_last {owner : Nat} {row : ρ} (found : metadata.row? ρ owner = some row)
    (last : metadata.row? ρ (owner + 1) = none) :
    metadata.listRange list target owner = metadata.rowsFrom target (list row) := by
  rcases Option.bind_eq_some_iff.mp found with ⟨table, present, foundRow⟩
  rw [row?_eq present] at last
  simp only [listRange, present, foundRow, last, rowsFrom]

theorem start_listRange {owner : Nat} {row : ρ} (found : metadata.row? ρ owner = some row) :
    (metadata.listRange list target owner).start =
      (metadata.rowsFrom target (list row)).start := by
  cases foundNext : metadata.row? ρ (owner + 1) with
  | none => rw [listRange_of_last found foundNext]
  | some next => rw [listRange_of_next found foundNext]

/-- Where the starts ascend, moving the next start behind this one and into the table is moving it
into the table. -/
theorem Ascending.stop_listRange (ascending : metadata.Ascending list) {owner : Nat} {row next : ρ}
    (found : metadata.row? ρ owner = some row)
    (foundNext : metadata.row? ρ (owner + 1) = some next) :
    (metadata.listRange list target owner).stop =
      (metadata.rowsFrom target (list next)).start := by
  have ordered := ascending owner row next found foundNext
  rw [listRange_of_next found foundNext]
  simp only [rowsFrom, clamp]
  omega

theorem start_le_stop_listRange (owner : Nat) :
    (metadata.listRange list target owner).start ≤
      (metadata.listRange list target owner).stop := by
  rw [listRange]
  repeat' split
  all_goals simp only [RowRange.empty, clamp]
  all_goals omega

theorem Ascending.divides (ascending : metadata.Ascending list) (intact : metadata.Intact ρ)
    {first : ρ} (found : metadata.row? ρ 1 = some first) :
    Divides (metadata.listRange list target) (metadata.rowCount (Row.table ρ))
      (metadata.rowsFrom target (list first)) where
  begins := start_listRange found
  ordered := fun owner _ _ => start_le_stop_listRange owner
  joined := by
    intro owner positive before
    rcases intact owner positive (by omega) with ⟨row, foundRow⟩
    rcases intact (owner + 1) (by omega) before with ⟨next, foundNext⟩
    rw [ascending.stop_listRange foundRow foundNext, start_listRange foundNext]
  ends := by
    have owners := (rid_of_row? found).2
    rcases intact (metadata.rowCount (Row.table ρ)) owners (Nat.le_refl _) with ⟨last, foundLast⟩
    have noNext : metadata.row? ρ (metadata.rowCount (Row.table ρ) + 1) = none := by
      by_contra someNext
      rcases Option.ne_none_iff_exists'.mp someNext with ⟨next, foundNext⟩
      have inside := (rid_of_row? foundNext).2
      omega
    rw [listRange_of_last foundLast noNext]
    rfl

theorem localVariables_eq_filterMap (scope : Nat) :
    metadata.localVariables scope =
      (metadata.listRange LocalScopeRow.variableList .localVariable scope).toList.filterMap
        (metadata.row? LocalVariableRow) := by
  rw [localVariables]
  cases present : metadata.table? LocalVariableRow with
  | none => simp [row?, present]
  | some table =>
      have asked : metadata.row? LocalVariableRow = table.get? := funext (row?_eq present)
      rw [asked]
      rfl

/-- The owners of a table divide the rows of the target table among them, from a start on. -/
structure DividesRows (metadata : Metadata) (ranges : Nat → RowRange) (owners : Nat)
    (target : TableId) (start : Nat) : Prop where
  consecutive : ∀ owner, 1 ≤ owner → owner < owners →
    (ranges owner).stop = (ranges (owner + 1)).start
  apart : ∀ owner later, 1 ≤ owner → owner < later → later ≤ owners →
    (ranges owner).start ≤ (ranges owner).stop ∧ (ranges owner).stop ≤ (ranges later).start ∧
      (ranges later).start ≤ (ranges later).stop
  inside : ∀ owner rid, 1 ≤ owner → owner ≤ owners → (ranges owner).contains rid = true →
    1 ≤ rid ∧ rid ≤ metadata.rowCount target
  listed : (List.range' 1 owners).flatMap (fun owner => (ranges owner).toList) =
    (metadata.rowsFrom target start).toList
  owned : ∀ rid, (1 ≤ rid ∧ start ≤ rid ∧ rid ≤ metadata.rowCount target) ↔
    ∃! owner, (1 ≤ owner ∧ owner ≤ owners) ∧ (ranges owner).contains rid = true

theorem Ascending.dividesRows (ascending : metadata.Ascending list) (intact : metadata.Intact ρ)
    {first : ρ} (found : metadata.row? ρ 1 = some first) :
    metadata.DividesRows (metadata.listRange list target) (metadata.rowCount (Row.table ρ)) target
      (list first) := by
  have divides : Divides (metadata.listRange list target) _ _ := ascending.divides intact found
  have owners := (rid_of_row? found).2
  exact {
    consecutive := divides.joined
    apart := fun owner later positive before inside =>
      ⟨start_le_stop_listRange owner, divides.stop_le_start positive before inside,
        start_le_stop_listRange later⟩
    inside := by
      intro owner rid _ _ contains
      rcases contains_listRange_iff.mp contains with ⟨positive, inside, _⟩
      exact ⟨positive, inside⟩
    listed := divides.flatMap_toList owners
    owned := fun rid =>
      contains_rowsFrom.symm.trans (divides.contains_iff_existsUnique owners rid) }

/-- Types divide the methods among them, methods the parameters, and scopes the local variables. -/
theorem lists_divide_rows (metadata : Metadata) :
    (metadata.Intact TypeDefRow → metadata.Ascending TypeDefRow.methodList →
      ∀ first, metadata.row? TypeDefRow 1 = some first →
        metadata.DividesRows metadata.methodRange (metadata.rowCount .typeDef) .methodDef
          first.methodList) ∧
    (metadata.Intact MethodDefRow → metadata.Ascending MethodDefRow.paramList →
      ∀ first, metadata.row? MethodDefRow 1 = some first →
        metadata.DividesRows metadata.paramRange (metadata.rowCount .methodDef) .param
          first.paramList) ∧
    (metadata.Intact LocalScopeRow → metadata.Ascending LocalScopeRow.variableList →
      ∀ first, metadata.row? LocalScopeRow 1 = some first →
        metadata.DividesRows (metadata.listRange LocalScopeRow.variableList .localVariable)
          (metadata.rowCount .localScope) .localVariable first.variableList ∧
        (List.range' 1 (metadata.rowCount .localScope)).flatMap metadata.localVariables =
          (metadata.rowsFrom .localVariable first.variableList).toList.filterMap
            (metadata.row? LocalVariableRow)) := by
  refine ⟨fun intact ascending _ found => ascending.dividesRows intact found,
    fun intact ascending _ found => ascending.dividesRows intact found, ?_⟩
  intro intact ascending first found
  have divides : metadata.DividesRows
      (metadata.listRange LocalScopeRow.variableList .localVariable) _ .localVariable _ :=
    ascending.dividesRows intact found
  refine ⟨divides, ?_⟩
  calc (List.range' 1 (metadata.rowCount .localScope)).flatMap metadata.localVariables
      = ((List.range' 1 (metadata.rowCount .localScope)).flatMap fun scope =>
          (metadata.listRange LocalScopeRow.variableList .localVariable scope).toList).filterMap
            (metadata.row? LocalVariableRow) := by
        rw [List.filterMap_flatMap, ← funext localVariables_eq_filterMap]
    _ = (metadata.rowsFrom .localVariable first.variableList).toList.filterMap
          (metadata.row? LocalVariableRow) := by
        rw [← divides.listed]
        rfl

/-- Three types, three methods and three scopes whose lists ascend. Some start at zero, at the same
row, or behind the target table, and the first parameter has no method. -/
def dividedData : Bytes := #[
  -- the root
  0x42, 0x53, 0x4A, 0x42, 1, 0, 1, 0, 0, 0, 0, 0, 0, 0, 0, 0, 0, 0, 1, 0,
  -- the header of the stream
  0x20, 0, 0, 0, 0xDA, 0, 0, 0, 0x23, 0x7E, 0, 0,
  0, 0, 0, 0, 2, 0, 0, 1, 0x44, 1, 0, 0, 0, 0, 0x0C, 0, 0, 0, 0, 0, 0, 0, 0, 0,
  3, 0, 0, 0, 3, 0, 0, 0, 4, 0, 0, 0, 3, 0, 0, 0, 3, 0, 0, 0,
  -- the types, whose methods start at zero, at the second one and behind the last
  0, 0, 0, 0, 0, 0, 0, 0, 0, 0, 1, 0, 0, 0,
  0, 0, 0, 0, 0, 0, 0, 0, 0, 0, 1, 0, 2, 0,
  0, 0, 0, 0, 0, 0, 0, 0, 0, 0, 1, 0, 9, 0,
  -- the methods, whose parameters start at the second, at the second and at the fourth one
  0, 0, 0, 0, 0, 0, 0, 0, 0, 0, 0, 0, 2, 0,
  0, 0, 0, 0, 0, 0, 0, 0, 0, 0, 0, 0, 2, 0,
  0, 0, 0, 0, 0, 0, 0, 0, 0, 0, 0, 0, 4, 0,
  -- the parameters
  0, 0, 0, 0, 0, 0, 0, 0, 1, 0, 0, 0, 0, 0, 2, 0, 0, 0, 0, 0, 1, 0, 0, 0,
  -- the scopes, whose variables start at zero, at the third and at the third one
  1, 0, 0, 0, 0, 0, 1, 0, 0, 0, 0, 0, 9, 0, 0, 0,
  1, 0, 0, 0, 3, 0, 1, 0, 1, 0, 0, 0, 2, 0, 0, 0,
  2, 0, 0, 0, 3, 0, 1, 0, 0, 0, 0, 0, 9, 0, 0, 0,
  -- the variables
  0, 0, 0, 0, 0, 0, 0, 0, 1, 0, 0, 0, 0, 0, 0, 0, 0, 0]

theorem lists_divide_rows_strayStarts :
    ∃ metadata, read dividedData = .ok metadata ∧
      metadata.Intact TypeDefRow ∧ metadata.Ascending TypeDefRow.methodList ∧
      metadata.DividesRows metadata.methodRange 3 .methodDef 0 ∧
      metadata.Intact MethodDefRow ∧ metadata.Ascending MethodDefRow.paramList ∧
      metadata.DividesRows metadata.paramRange 3 .param 2 ∧
      metadata.Intact LocalScopeRow ∧ metadata.Ascending LocalScopeRow.variableList ∧
      ((List.range' 1 3).flatMap metadata.localVariables).map (·.rid) = [1, 2, 3] := by
  have evaluated : (read dividedData).toOption.any (fun metadata => decide (
      metadata.Intact TypeDefRow ∧ metadata.Ascending TypeDefRow.methodList ∧
      metadata.Intact MethodDefRow ∧ metadata.Ascending MethodDefRow.paramList ∧
      metadata.Intact LocalScopeRow ∧ metadata.Ascending LocalScopeRow.variableList ∧
      metadata.rowCount .typeDef = 3 ∧ metadata.rowCount .methodDef = 3 ∧
      metadata.rowCount .localScope = 3 ∧
      (metadata.row? TypeDefRow 1).map (·.methodList) = some 0 ∧
      (metadata.row? MethodDefRow 1).map (·.paramList) = some 2 ∧
      (metadata.row? LocalScopeRow 1).map (·.variableList) = some 0 ∧
      ((metadata.rowsFrom .localVariable 0).toList.filterMap
        (metadata.row? LocalVariableRow)).map (·.rid) = [1, 2, 3])) = true := by
    decide +kernel
  simp only [Option.any_eq_true, decide_eq_true_eq, Option.map_eq_some_iff] at evaluated
  obtain ⟨metadata, made, types, typesAscend, methods, methodsAscend, scopes, scopesAscend,
    typeCount, methodCount, scopeCount, ⟨firstType, foundType, firstMethod⟩,
    ⟨firstOwner, foundOwner, firstParam⟩, ⟨firstScope, foundScope, firstVariable⟩, numbers⟩ :=
      evaluated
  obtain ⟨ofTypes, ofMethods, ofScopes⟩ := lists_divide_rows metadata
  have methodLists := ofTypes types typesAscend firstType foundType
  have paramLists := ofMethods methods methodsAscend firstOwner foundOwner
  have variableLists := (ofScopes scopes scopesAscend firstScope foundScope).2
  rw [typeCount, firstMethod] at methodLists
  rw [methodCount, firstParam] at paramLists
  rw [scopeCount, firstVariable] at variableLists
  refine ⟨metadata, Error.toOption_eq_some.mp made, types, typesAscend, methodLists, methods,
    methodsAscend, paramLists, scopes, scopesAscend, ?_⟩
  rw [variableLists, numbers]

end Metadata

end CilLoader
