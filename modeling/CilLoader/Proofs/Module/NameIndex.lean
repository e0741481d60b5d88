import CilLoader.Executable.Container
import CilLoader.Proofs.Module.Interning
import CilLoader.Proofs.Module.Names

/-!
# The index of names

A type can be found by its name in two ways: in the index of all names, which a module keeps, or by
a walk through the rows that ends at the first hit. The index is made only if all names can be read,
and then both ways come to the same row. While some name is damaged, a walk may still get past it,
but the index is not made, however often a module is asked.
-/

namespace CilLoader

namespace Module

variable {module : Module} {«namespace» name : String}

theorem readable_of_typeIndex {index : List ((String × String) × Nat)}
    (read : module.typeIndex = .ok index) {row : TypeDefRow}
    (member : row ∈ (module.metadata.rows TypeDefRow).filter fun row =>
      !TypeAttributes.isNested row.flags) :
    module.metadata.Readable row.namespace ∧ module.metadata.Readable row.name := by
  rcases Error.exists_value_of_mem read member with ⟨entry, _, named⟩
  rcases Error.bind_eq_ok.mp named with ⟨foundNamespace, readNamespace, named⟩
  rcases Error.bind_eq_ok.mp named with ⟨foundName, readName, _⟩
  exact ⟨⟨foundNamespace, readNamespace⟩, foundName, readName⟩

/-- If the index can be made, it holds the row that the walk comes to. -/
theorem findTypeDef_of_typeIndex {index : List ((String × String) × Nat)}
    (read : module.typeIndex = .ok index) («namespace» name : String) :
    let scanned := (module.metadata.rows TypeDefRow).find? fun row =>
      decide (TypeAttributes.isNested row.flags = false ∧
        module.metadata.Names «namespace» name row.namespace row.name)
    module.metadata.findTypeDef «namespace» name = .ok scanned ∧
      index.lookup («namespace», name) = scanned.map (·.rid) := by
  have readable := @readable_of_typeIndex module index read
  rcases @typeIndex_lookup module «namespace» name _ @readable with ⟨sameIndex, readAgain, found⟩
  have same : index = sameIndex := Except.ok.inj (read.symm.trans readAgain)
  have decides : ∀ row ∈ (module.metadata.rows TypeDefRow).filter fun row =>
      !TypeAttributes.isNested row.flags,
      module.metadata.isNamed «namespace» name row.namespace row.name =
        .ok (decide (module.metadata.Names «namespace» name row.namespace row.name)) :=
    fun row member => Metadata.isNamed_eq (readable member).1 (readable member).2
  rw [Metadata.findTypeDef, Metadata.firstWhere?_eq decides, find?_outer]
  rw [find?_outer, ← same] at found
  exact ⟨rfl, found⟩

theorem findTypeDef_of_getType? {found : Option TypeDefinition}
    (few : module.metadata.rowCount .typeDef < 0x1000000)
    (answer : module.getType? «namespace» name = .ok found) :
    let scanned := (module.metadata.rows TypeDefRow).find? fun row =>
      decide (TypeAttributes.isNested row.flags = false ∧
        module.metadata.Names «namespace» name row.namespace row.name)
    module.metadata.findTypeDef «namespace» name = .ok scanned ∧
      found.map (·.token.row) = scanned.map (·.rid) := by
  rcases Error.bind_eq_ok.mp answer with ⟨index, read, answer⟩
  obtain ⟨scans, sameRow⟩ := findTypeDef_of_typeIndex read «namespace» name
  refine ⟨scans, ?_⟩
  rw [← sameRow]
  cases entry : index.lookup («namespace», name) with
  | none =>
      rw [entry] at answer
      cases answer
      rfl
  | some rid =>
      rw [entry] at answer
      rcases Error.bind_eq_ok.mp answer with ⟨type, made, ⟨rfl⟩⟩
      exact congrArg some (token_row_of_typeAt few made)

/-- A damaged name of any type that the walk would meet is an error whatever is looked for. -/
theorem getType?_eq_error {row : TypeDefRow} (member : row ∈ module.metadata.rows TypeDefRow)
    (outer : TypeAttributes.isNested row.flags = false)
    (damaged : ¬(module.metadata.Readable row.namespace ∧ module.metadata.Readable row.name)) :
    ∃ error, ∃ culprit ∈ module.metadata.rows TypeDefRow,
      TypeAttributes.isNested culprit.flags = false ∧
      (module.metadata.string culprit.namespace = .error error ∨
        module.metadata.string culprit.name = .error error) ∧
      ∀ «namespace» name, module.getType? «namespace» name = .error error := by
  cases read : module.typeIndex with
  | ok index =>
      have memberOuter : row ∈ (module.metadata.rows TypeDefRow).filter fun row =>
          !TypeAttributes.isNested row.flags := List.mem_filter.mpr ⟨member, by simpa using outer⟩
      exact absurd (readable_of_typeIndex read memberOuter) damaged
  | error error =>
      rcases Error.exists_of_mapM_eq_error read with ⟨culprit, culpritMember, failed⟩
      have walked := List.mem_filter.mp culpritMember
      refine ⟨error, culprit, walked.1, by simpa using walked.2, ?_, ?_⟩
      · rcases Error.bind_eq_error.mp failed with failed | ⟨foundNamespace, _, failed⟩
        · exact .inl failed
        · rcases Error.bind_eq_error.mp failed with failed | ⟨foundName, _, impossible⟩
          · exact .inr failed
          · cases impossible
      · intro «namespace» name
        rw [getType?, read, Error.error_bind]

end Module

namespace Interned

/-- Whatever a module has been asked before, it finds the type of the row that a walk comes to,
which is the first with the name. If a name of any row on the whole walk is damaged, it finds no
type at all. -/
theorem getType?_eq_findTypeDef {module : Module}
    (few : module.metadata.rowCount .typeDef < 0x1000000) («namespace» name : String) :
    let scanned := module.metadata.findTypeDef «namespace» name
    let answer (earlier : List Request) :=
      ((getType? module «namespace» name).outcome (askAll module earlier {}).2).1
    (∀ earlier found, answer earlier = .ok found → ∃ row?, scanned = .ok row? ∧
      found.map (·.value.token.row) = row?.map (·.rid) ∧
      (∀ row, row? = some row → module.Defines «namespace» name row) ∧
      (row? = none → ∀ row ∈ module.metadata.rows TypeDefRow,
        TypeAttributes.isNested row.flags = false →
          ¬module.metadata.Names «namespace» name row.namespace row.name)) ∧
    ∀ row ∈ module.metadata.rows TypeDefRow, TypeAttributes.isNested row.flags = false →
      ¬(module.metadata.Readable row.namespace ∧ module.metadata.Readable row.name) →
        ∃ error, ∃ culprit ∈ module.metadata.rows TypeDefRow,
          TypeAttributes.isNested culprit.flags = false ∧
          (module.metadata.string culprit.namespace = .error error ∨
            module.metadata.string culprit.name = .error error) ∧
          ∀ earlier, answer earlier = .error error := by
  have transparent (earlier : List Request) :=
    getType?_transparent (askAll_sound (Interning.sound_start module) earlier).2.1 «namespace» name
  refine ⟨?_, ?_⟩
  · intro earlier found answered
    have plain := (transparent earlier).plain_eq_ok answered
    obtain ⟨scans, sameRow⟩ := Module.findTypeDef_of_getType? few plain
    rw [Option.map_map] at sameRow
    refine ⟨_, scans, sameRow, ?_, ?_⟩
    · exact fun row first => Metadata.isFirst_of_find?_rows first
    · intro none row member outer named
      have rejected := List.find?_eq_none.mp none row member
      exact rejected (by simpa using ⟨outer, named⟩)
  · intro row member outer damaged
    rcases Module.getType?_eq_error member outer damaged with
      ⟨error, culprit, culpritMember, culpritOuter, unreadable, fails⟩
    exact ⟨error, culprit, culpritMember, culpritOuter, unreadable,
      fun earlier => (transparent earlier).eq_error (fails «namespace» name)⟩

open scoped Container

/-- An assembly with three types, the first of them inside another one. The first two are named
alike, and the name of the third stands at an index. -/
def namesImage (index : UInt8) : Bytes := #[
  -- the root
  0x42, 0x53, 0x4A, 0x42, 1, 0, 1, 0, 0, 0, 0, 0, 0, 0, 0, 0, 0, 0, 3, 0,
  -- the headers of the streams
  0x44, 0, 0, 0, 0x60, 0, 0, 0, 0x23, 0x7E, 0, 0,
  0xA4, 0, 0, 0, 5, 0, 0, 0, 0x23, 0x53, 0x74, 0x72, 0x69, 0x6E, 0x67, 0x73, 0, 0, 0, 0,
  0xA9, 0, 0, 0, 1, 0, 0, 0, 0x23, 0x42, 0x6C, 0x6F, 0x62, 0, 0, 0,
  -- three types and one assembly
  0, 0, 0, 0, 2, 0, 0, 1, 4, 0, 0, 0, 1, 0, 0, 0, 0, 0, 0, 0, 0, 0, 0, 0,
  3, 0, 0, 0, 1, 0, 0, 0,
  2, 0, 0, 0, 3, 0, 0, 0, 0, 0, 1, 0, 1, 0,
  1, 0, 0, 0, 3, 0, 0, 0, 0, 0, 1, 0, 1, 0,
  1, 0, 0, 0, index, 0, 0, 0, 0, 0, 1, 0, 1, 0,
  4, 0x80, 0, 0, 1, 0, 0, 0, 0, 0, 0, 0, 0, 0, 0, 0, 0, 0, 1, 0, 0, 0,
  -- the strings
  0, 0x41, 0, 0x4D, 0,
  -- the blobs
  0]

def named (index : UInt8) : Except Error Module := do
  Module.ofImage 1 (← Image.ofBytes ⟨"/A"⟩ (namesImage index)) none

/-- A module of three types finds the second row, after it has looked for another name in vain. -/
def findsSecond (module : Module) : Bool :=
  module.metadata.rowCount .typeDef = 3 &&
    match ((getType? module "" "M").outcome (askAll module [.getType "" "A"] {}).2).1 with
    | .ok (some found) => found.value.token.row = 2
    | _ => false

/-- A module of three types has a walk end at the second row, and the name of some row is damaged.
-/
def walksToSecond (module : Module) : Bool :=
  module.metadata.rowCount .typeDef = 3 &&
    (match module.metadata.findTypeDef "" "M" with
      | .ok (some row) => row.rid = 2
      | _ => false) &&
    (module.metadata.rows TypeDefRow).any fun row =>
      decide (TypeAttributes.isNested row.flags = false ∧
        ¬(module.metadata.Readable row.namespace ∧ module.metadata.Readable row.name))

/-- Of the types with the same name that stand in no other type, the second row is found. With a
name behind the end of the heap, only the walk finds it. -/
theorem getType?_eq_findTypeDef_damaged :
    (∃ module found row, named 3 = .ok module ∧
      ((getType? module "" "M").outcome (askAll module [.getType "" "A"] {}).2).1 =
        .ok (some found) ∧
      module.metadata.findTypeDef "" "M" = .ok (some row) ∧ found.value.token.row = row.rid ∧
      module.Defines "" "M" row ∧ row.rid = 2) ∧
    ∃ module row error, named 9 = .ok module ∧
      module.metadata.findTypeDef "" "M" = .ok (some row) ∧ row.rid = 2 ∧
      ∀ earlier, ((getType? module "" "M").outcome (askAll module earlier {}).2).1 =
        .error error := by
  have intact : (named 3).toOption.any findsSecond = true := by decide +kernel
  have damaged : (named 9).toOption.any walksToSecond = true := by decide +kernel
  rcases (Option.any_eq_true _ _).mp intact with ⟨intactModule, intactMade, finds⟩
  rcases (Option.any_eq_true _ _).mp damaged with ⟨damagedModule, damagedMade, walks⟩
  refine ⟨?_, ?_⟩
  · simp only [findsSecond, Bool.and_eq_true, decide_eq_true_eq] at finds
    obtain ⟨types, finds⟩ := finds
    split at finds
    case h_2 => cases finds
    case h_1 found answered =>
      have second := decide_eq_true_eq.mp finds
      obtain ⟨row?, scans, sameRow, first, _⟩ :=
        (getType?_eq_findTypeDef (by omega) "" "M").1 [.getType "" "A"] (some found) answered
      cases row? with
      | none => cases sameRow
      | some row =>
          have sameRow : found.value.token.row = row.rid := Option.some.inj sameRow
          exact ⟨intactModule, found, row, Error.toOption_eq_some.mp intactMade, answered, scans,
            sameRow, first row rfl, sameRow.symm.trans second⟩
  · simp only [walksToSecond, Bool.and_eq_true, List.any_eq_true, decide_eq_true_eq] at walks
    obtain ⟨⟨types, walks⟩, culprit, member, outer, unreadable⟩ := walks
    obtain ⟨error, _, _, _, _, fails⟩ :=
      (getType?_eq_findTypeDef (by omega) "" "M").2 culprit member outer unreadable
    split at walks
    case h_2 => cases walks
    case h_1 row scans =>
      exact ⟨damagedModule, row, error, Error.toOption_eq_some.mp damagedMade, scans,
        decide_eq_true_eq.mp walks, fails⟩

end Interned

end CilLoader
