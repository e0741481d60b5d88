import CilLoader.Context.Resolution
import CilLoader.Proofs.Module.Definitions
import CilLoader.Proofs.Table.Walk

/-!
# The names in a module

Which row of a module has a name: the first one that stands inside no other type, among the types
that the module defines, or among those that it exports. In an intact module, this is the row that
is found.
-/

namespace CilLoader

namespace Metadata

variable {metadata : Metadata} {«namespace» name : String}

def Readable (metadata : Metadata) (index : Nat) : Prop :=
  ∃ text, metadata.string index = .ok text

instance (index : Nat) : Decidable (metadata.Readable index) :=
  decidable_of_iff ((metadata.string index).isOk = true) (by
    rw [Readable]
    cases metadata.string index <;> simp [Except.isOk, Except.toBool])

/-- What a row names with its two columns. -/
def Names (metadata : Metadata) («namespace» name : String) (namespaceIndex nameIndex : Nat) :
    Prop :=
  metadata.string namespaceIndex = .ok «namespace» ∧ metadata.string nameIndex = .ok name

theorem names_iff_toOption {namespaceIndex nameIndex : Nat} :
    (metadata.string namespaceIndex).toOption = some «namespace» ∧
        (metadata.string nameIndex).toOption = some name ↔
      metadata.Names «namespace» name namespaceIndex nameIndex := by
  rw [Names]
  cases metadata.string namespaceIndex <;> cases metadata.string nameIndex <;>
    simp [Except.toOption]

instance (namespaceIndex nameIndex : Nat) :
    Decidable (metadata.Names «namespace» name namespaceIndex nameIndex) :=
  decidable_of_iff _ names_iff_toOption

theorem isNamed_eq {namespaceIndex nameIndex : Nat}
    (readableNamespace : metadata.Readable namespaceIndex)
    (readableName : metadata.Readable nameIndex) :
    metadata.isNamed «namespace» name namespaceIndex nameIndex =
      .ok (decide (metadata.Names «namespace» name namespaceIndex nameIndex)) := by
  rcases readableNamespace with ⟨foundNamespace, readNamespace⟩
  rcases readableName with ⟨foundName, readName⟩
  simp only [isNamed, Names, readNamespace, readName, Error.ok_bind, Except.ok.injEq]
  split
  · rename_i sameName
    simp [sameName, pure, Except.pure]
  · rename_i otherName
    simp [otherName, pure, Except.pure]

theorem firstWhere?_eq {ρ : Type} {accepts : ρ → Except Error Bool} {holds : ρ → Bool}
    {rows : List ρ} (decides : ∀ row ∈ rows, accepts row = .ok (holds row)) :
    firstWhere? accepts rows = .ok (rows.find? holds) := by
  induction rows with
  | nil => rfl
  | cons row rows induction =>
      have rest := induction fun other member => decides other (List.mem_cons_of_mem row member)
      rw [firstWhere?, decides row List.mem_cons_self, Error.ok_bind, rest, List.find?_cons]
      cases holds row <;> rfl

theorem of_firstWhere?_eq_some {ρ : Type} {accepts : ρ → Except Error Bool} {rows : List ρ}
    {row : ρ} (found : firstWhere? accepts rows = .ok (some row)) :
    row ∈ rows ∧ accepts row = .ok true := by
  induction rows with
  | nil => cases found
  | cons other rows induction =>
      rcases Error.bind_eq_ok.mp found with ⟨accepted, decided, found⟩
      cases accepted with
      | true =>
          cases found
          exact ⟨List.mem_cons_self, decided⟩
      | false =>
          rcases induction found with ⟨member, accepted⟩
          exact ⟨List.mem_cons_of_mem other member, accepted⟩

end Metadata

namespace Module

/-- The row of a type that the module defines under a name, and not inside another type. Of several
it is the first. -/
def Defines (module : Module) («namespace» name : String) (row : TypeDefRow) : Prop :=
  module.metadata.IsFirst (fun row => TypeAttributes.isNested row.flags = false ∧
    module.metadata.Names «namespace» name row.namespace row.name) row

/-- The row of a type that the module exports under a name, and not inside another one. -/
def Exports (module : Module) («namespace» name : String) (row : ExportedTypeRow) : Prop :=
  module.metadata.IsFirst (fun row => row.implementation.table ≠ .exportedType ∧
    module.metadata.Names «namespace» name row.namespace row.name) row

/-- The module says that the type with a name is in another assembly. -/
def Forwards (module : Module) («namespace» name : String) (reference : Token) : Prop :=
  ∃ row, module.Exports «namespace» name row ∧ row.implementation.table = .assemblyRef ∧
    row.implementation.token = reference

/-- All rows and names that count for finding types can be read. -/
structure Intact (module : Module) : Prop where
  types : module.metadata.Intact TypeDefRow
  typeNames : ∀ row ∈ module.metadata.rows TypeDefRow,
    module.metadata.Readable row.namespace ∧ module.metadata.Readable row.name
  params : ∀ row ∈ module.metadata.rows GenericParamRow, module.metadata.Readable row.name
  exports : module.metadata.Intact ExportedTypeRow
  exportNames : ∀ row ∈ module.metadata.rows ExportedTypeRow,
    module.metadata.Readable row.namespace ∧ module.metadata.Readable row.name

instance (module : Module) : Decidable module.Intact :=
  decidable_of_iff
    (module.metadata.Intact TypeDefRow ∧
      (∀ row ∈ module.metadata.rows TypeDefRow,
        module.metadata.Readable row.namespace ∧ module.metadata.Readable row.name) ∧
      (∀ row ∈ module.metadata.rows GenericParamRow, module.metadata.Readable row.name) ∧
      module.metadata.Intact ExportedTypeRow ∧
      ∀ row ∈ module.metadata.rows ExportedTypeRow,
        module.metadata.Readable row.namespace ∧ module.metadata.Readable row.name)
    ⟨fun ⟨types, typeNames, params, exports, exportNames⟩ =>
        ⟨types, typeNames, params, exports, exportNames⟩,
      fun ⟨types, typeNames, params, exports, exportNames⟩ =>
        ⟨types, typeNames, params, exports, exportNames⟩⟩

variable {module : Module} {«namespace» name : String}

/-! ## Definitions -/

theorem exists_typeAt (intact : module.Intact) {row : TypeDefRow}
    (defines : module.Defines «namespace» name row) :
    ∃ type, module.typeAt row.rid = .ok type ∧ type.module = module.id ∧
      type.token = typeToken row.rid ∧ type.namespace = «namespace» ∧ type.name = name ∧
      TypeAttributes.isNested type.flags = false := by
  have params : ∀ param ∈ module.metadata.genericParams (typeToken row.rid),
      ∃ text, module.metadata.string param.name = .ok text := by
    intro param member
    rw [Metadata.genericParams, List.mem_mergeSort, List.mem_filter] at member
    exact intact.params param member.1
  rcases Error.exists_mapM_eq_ok params with ⟨texts, readParams⟩
  rcases defines.accepted with ⟨notNested, readNamespace, readName⟩
  have found : module.metadata.requireRow TypeDefRow row.rid = .ok row := by
    have present : module.metadata.row? TypeDefRow row.rid = some row := defines.present
    rw [Metadata.requireRow, present]
  refine ⟨⟨module.id, typeToken row.rid, «namespace», name, row.flags,
    if row.baseType.isNull then none else some row.baseType.token, texts⟩, ?_, rfl, rfl, rfl, rfl,
    notNested⟩
  simp only [typeAt, found, readParams, readNamespace, readName, Error.ok_bind]
  rfl

/-- The types under their names, and the first that has a name. -/
theorem typeIndex_lookup {rows : List TypeDefRow}
    (readable : ∀ row ∈ rows,
      module.metadata.Readable row.namespace ∧ module.metadata.Readable row.name) :
    ∃ index, (rows.mapM fun row => do
        let «namespace» ← module.metadata.string row.namespace
        let name ← module.metadata.string row.name
        return ((«namespace», name), row.rid)) = .ok index ∧
      index.lookup («namespace», name) =
        (rows.find? fun row =>
          module.metadata.Names «namespace» name row.namespace row.name).map (·.rid) := by
  induction rows with
  | nil => exact ⟨[], rfl, rfl⟩
  | cons row rows induction =>
      rcases readable row List.mem_cons_self with
        ⟨⟨foundNamespace, readNamespace⟩, foundName, readName⟩
      rcases induction fun other member => readable other (List.mem_cons_of_mem row member) with
        ⟨index, read, found⟩
      refine ⟨((foundNamespace, foundName), row.rid) :: index, ?_, ?_⟩
      · simp only [List.mapM_cons, readNamespace, readName, Error.ok_bind, read]
        rfl
      · have names : module.metadata.Names «namespace» name row.namespace row.name ↔
            («namespace», name) = (foundNamespace, foundName) := by
          rw [Metadata.Names, readNamespace, readName, Except.ok.injEq, Except.ok.injEq,
            Prod.mk.injEq, eq_comm, @eq_comm _ foundName]
        rw [List.lookup_cons, found, List.find?_cons]
        by_cases same : («namespace», name) = (foundNamespace, foundName)
        · simp [names.mpr same, same]
        · have different : ¬module.metadata.Names «namespace» name row.namespace row.name :=
            fun same' => same (names.mp same')
          simp only [different, decide_false]
          rw [beq_false_of_ne same]

/-- The first row with a name, among those of the types that do not stand inside another type. -/
theorem find?_outer (rows : List TypeDefRow) :
    ((rows.filter fun row => !TypeAttributes.isNested row.flags).find? fun row =>
        module.metadata.Names «namespace» name row.namespace row.name) =
      rows.find? fun row => decide (TypeAttributes.isNested row.flags = false ∧
        module.metadata.Names «namespace» name row.namespace row.name) := by
  rw [List.find?_filter]
  simp only [Bool.not_eq_true', decide_eq_true_eq]

/-- The number of a type is found by its name exactly if the module defines the type. -/
theorem exists_typeIndex (intact : module.Intact) («namespace» name : String) :
    ∃ index, module.typeIndex = .ok index ∧
      ∀ rid, index.lookup («namespace», name) = some rid ↔
        ∃ row, module.Defines «namespace» name row ∧ row.rid = rid := by
  have readable : ∀ row ∈ (module.metadata.rows TypeDefRow).filter fun row =>
      !TypeAttributes.isNested row.flags,
      module.metadata.Readable row.namespace ∧ module.metadata.Readable row.name :=
    fun row member => intact.typeNames row (List.mem_filter.mp member).1
  rcases typeIndex_lookup readable with ⟨index, read, found⟩
  refine ⟨index, read, ?_⟩
  intro rid
  rw [found, find?_outer, Option.map_eq_some_iff]
  exact exists_congr fun row => and_congr_left' (Metadata.find?_rows_eq_some intact.types)

/-- Whatever else is damaged, a type that is found is made from a row that does not stand inside
another type and has the name that it was looked for by. -/
theorem exists_row_of_getType? {type : TypeDefinition}
    (found : module.getType? «namespace» name = .ok (some type)) :
    ∃ row ∈ module.metadata.rows TypeDefRow, TypeAttributes.isNested row.flags = false ∧
      module.metadata.Names «namespace» name row.namespace row.name ∧
      module.typeAt row.rid = .ok type := by
  rcases Error.bind_eq_ok.mp found with ⟨index, read, found⟩
  cases entry : index.lookup («namespace», name) with
  | none =>
      rw [entry] at found
      cases found
  | some rid =>
      rw [entry] at found
      rcases Error.bind_eq_ok.mp found with ⟨made, madeAt, found⟩
      cases found
      rcases List.lookup_eq_some_iff.mp entry with ⟨before, after, split, _⟩
      have member : ((«namespace», name), rid) ∈ index := by simp [split]
      rcases Error.exists_of_mem_mapM read member with ⟨row, memberRow, named⟩
      rcases Error.bind_eq_ok.mp named with ⟨foundNamespace, readNamespace, named⟩
      rcases Error.bind_eq_ok.mp named with ⟨foundName, readName, named⟩
      cases named
      have outer := List.mem_filter.mp memberRow
      exact ⟨row, outer.1, by simpa using outer.2, ⟨readNamespace, readName⟩, madeAt⟩

/-- A type that is found has the name and says that it stands inside no other type. -/
theorem named_of_getType? {type : TypeDefinition}
    (found : module.getType? «namespace» name = .ok (some type)) :
    type.namespace = «namespace» ∧ type.name = name ∧
      TypeAttributes.isNested type.flags = false := by
  rcases exists_row_of_getType? found with ⟨row, member, outer, ⟨named, namedSo⟩, made⟩
  rcases row_of_typeAt made with ⟨other, present, _, _, readNamespace, readName, flags⟩
  -- The row that the walk has met is the one that the type is made from.
  have same : other = row := Option.some.inj (present.symm.trans (Metadata.row?_of_mem_rows member))
  subst same
  rw [named, Except.ok.injEq] at readNamespace
  rw [namedSo, Except.ok.injEq] at readName
  exact ⟨readNamespace.symm, readName.symm, flags ▸ outer⟩

theorem getType?_eq_some_iff (intact : module.Intact) {type : TypeDefinition} :
    module.getType? «namespace» name = .ok (some type) ↔
      ∃ row, module.Defines «namespace» name row ∧ module.typeAt row.rid = .ok type := by
  rcases exists_typeIndex intact «namespace» name with ⟨index, read, found⟩
  rw [getType?, read, Error.ok_bind]
  constructor
  · intro answer
    cases entry : index.lookup («namespace», name) with
    | none =>
        rw [entry] at answer
        cases answer
    | some rid =>
        rcases (found rid).mp entry with ⟨row, defines, rfl⟩
        rw [entry] at answer
        rcases Error.bind_eq_ok.mp answer with ⟨made, madeAt, answer⟩
        cases answer
        exact ⟨row, defines, madeAt⟩
  · rintro ⟨row, defines, madeAt⟩
    rw [(found row.rid).mpr ⟨row, defines, rfl⟩]
    dsimp only
    rw [madeAt]
    rfl

theorem getType?_eq_none_iff (intact : module.Intact) :
    module.getType? «namespace» name = .ok none ↔
      ∀ row, ¬module.Defines «namespace» name row := by
  rcases exists_typeIndex intact «namespace» name with ⟨index, read, found⟩
  constructor
  · intro answer row defines
    rcases exists_typeAt intact defines with ⟨type, madeAt, _⟩
    rw [(getType?_eq_some_iff intact).mpr ⟨row, defines, madeAt⟩] at answer
    cases answer
  · intro undefined
    have noEntry : index.lookup («namespace», name) = none := by
      rw [Option.eq_none_iff_forall_ne_some]
      intro rid entry
      rcases (found rid).mp entry with ⟨row, defines, _⟩
      exact undefined row defines
    rw [getType?, read, Error.ok_bind, noEntry]
    rfl

/-! ## Nested types -/

/-- A type that is found inside another one is listed under it and has the name that it was looked
for by. -/
theorem exists_rid_of_nestedType? {enclosing type : TypeDefinition}
    (found : module.nestedType? enclosing name = .ok (some type)) :
    enclosing.module = module.id ∧ type.name = name ∧
      ∃ rid ∈ module.metadata.nestedTypesOf enclosing.token.row, module.typeAt rid = .ok type := by
  rw [nestedType?] at found
  split at found
  case isTrue => cases found
  case isFalse sameModule =>
    rcases Error.bind_eq_ok.mp found with ⟨row?, searched, found⟩
    cases row? with
    | none => cases found
    | some row =>
        rcases Error.bind_eq_ok.mp found with ⟨_, made, ⟨rfl⟩⟩
        rcases Metadata.of_firstWhere?_eq_some searched with ⟨candidate, named⟩
        rcases List.mem_filterMap.mp candidate with ⟨rid, listed, present⟩
        rcases Error.bind_eq_ok.mp named with ⟨foundName, readName, accepted⟩
        have sameName : foundName = name := by simpa using Except.ok.inj accepted
        have sameRid : row.rid = rid := Metadata.rid_eq_of_row? present
        rw [sameRid] at made
        rcases row_of_typeAt made with ⟨_, presentAgain, _, _, _, readAgain, _⟩
        cases present.symm.trans presentAgain
        have nameRead : type.name = foundName := Except.ok.inj (readAgain.symm.trans readName)
        exact ⟨not_not.mp sameModule, nameRead.trans sameName, rid, listed, made⟩

/-! ## Forwarders -/

theorem findExportedType_eq (intact : module.Intact) («namespace» name : String) :
    module.metadata.findExportedType «namespace» name =
      .ok ((module.metadata.rows ExportedTypeRow).find? fun row =>
        decide (row.implementation.table ≠ .exportedType ∧
          module.metadata.Names «namespace» name row.namespace row.name)) := by
  let outer := (module.metadata.rows ExportedTypeRow).filter fun row =>
    row.implementation.table ≠ .exportedType
  have decides : ∀ row ∈ outer,
      module.metadata.isNamed «namespace» name row.namespace row.name =
        .ok (decide (module.metadata.Names «namespace» name row.namespace row.name)) := by
    intro row member
    rcases intact.exportNames row (List.mem_filter.mp member).1 with ⟨readNamespace, readName⟩
    exact Metadata.isNamed_eq readNamespace readName
  rw [Metadata.findExportedType, Metadata.firstWhere?_eq decides, List.find?_filter]
  simp only [decide_eq_true_eq]

open CilLoader.Action

theorem forwarder?_eq_some_iff (intact : module.Intact) {reference : Token} :
    forwarder? module «namespace» name = .ok (some reference) ↔
      module.Forwards «namespace» name reference := by
  rw [forwarder?, findExportedType_eq intact, Error.ok_bind]
  constructor
  · intro answer
    split at answer
    case h_1 => cases answer
    case h_2 row found =>
      split at answer
      case isTrue table =>
        cases answer
        exact ⟨row, (Metadata.find?_rows_eq_some intact.exports).mp found, table, rfl⟩
      case isFalse => cases answer
  · rintro ⟨row, exports, table, rfl⟩
    rw [(Metadata.find?_rows_eq_some intact.exports).mpr exports]
    dsimp only
    rw [if_pos table]
    rfl

theorem forwarder?_eq_none_iff (intact : module.Intact) :
    forwarder? module «namespace» name = .ok none ↔
      ∀ reference, ¬module.Forwards «namespace» name reference := by
  constructor
  · intro answer reference forwards
    rw [(forwarder?_eq_some_iff intact).mpr forwards] at answer
    cases answer
  · intro kept
    rw [forwarder?, findExportedType_eq intact, Error.ok_bind]
    split
    case h_1 => rfl
    case h_2 row found =>
      have exports := (Metadata.find?_rows_eq_some intact.exports).mp found
      have otherTable : row.implementation.table ≠ .assemblyRef :=
        fun table => kept _ ⟨row, exports, table, rfl⟩
      rw [if_neg otherTable]
      rfl

end Module

end CilLoader
