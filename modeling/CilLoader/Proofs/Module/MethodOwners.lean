import CilLoader.Executable.Container
import CilLoader.Proofs.Module.Definitions
import CilLoader.Proofs.Table.ListRanges

/-!
# Methods and the types they belong to

A type owns the methods in its list, and the owner of a method is found by a search through the
types. If the lists ascend, the two agree: a type is the owner of exactly the methods in its list.
Whatever the image, the search never answers a type whose list the method is not in.
-/

namespace CilLoader

namespace Metadata

variable {metadata : Metadata}

theorem contains_methodRange_of_methodOwner? {method type : Nat}
    (owned : metadata.methodOwner? method = some type) :
    (metadata.methodRange type).contains method = true := by
  rw [methodOwner?] at owned
  split at owned
  · cases owned
  · split at owned
    · cases owned
    · exact (Option.filter_eq_some_iff.mp owned).2

theorem methodOwner?_eq_some_iff (intact : metadata.Intact TypeDefRow)
    (ascending : metadata.Ascending TypeDefRow.methodList) {method type : Nat} :
    metadata.methodOwner? method = some type ↔
      (metadata.methodRange type).contains method = true := by
  refine ⟨contains_methodRange_of_methodOwner?, fun contains => ?_⟩
  rcases contains_listRange_iff.mp contains with ⟨positive, inside, row, found, _⟩
  cases present : metadata.table? TypeDefRow with
  | none => simp [row?, present] at found
  | some table =>
      have isRow : ¬(method = 0 ∨ metadata.rowCount .methodDef < method) := by omega
      have last := ascending.last?_eq intact present contains
      simp only [methodOwner?, present, if_neg isRow]
      rw [last]
      exact Option.filter_eq_some_iff.mpr ⟨rfl, contains⟩

end Metadata

namespace Module

variable {module : Module}

/-- Whatever the image, the methods of a type are those in its list. Each knows its owner by itself,
and its own token is cut where its number does not fit. -/
theorem owner_of_mem_methodsOf {type : TypeDefinition} {methods : List MethodDefinition}
    (listed : module.methodsOf type = .ok methods) {method : MethodDefinition}
    (member : method ∈ methods) :
    ∃ rid owner, (module.metadata.methodRange type.token.row).contains rid = true ∧
      module.metadata.methodOwner? (rid % 0x1000000) = some owner ∧
        method.owner = typeToken owner := by
  rw [methodsOf] at listed
  split at listed
  · cases listed
  · rcases Error.exists_of_mem_mapM listed member with ⟨rid, inside, found⟩
    rcases owner_of_methodByToken found with ⟨owner, owned, known, _⟩
    rw [methodToken, Token.row_ofParts] at owned
    exact ⟨rid, owner, RowRange.mem_toList.mp inside, owned, known⟩

theorem methodOwner?_inverts_methodRange
    (intact : module.metadata.Intact TypeDefRow)
    (ascending : module.metadata.Ascending TypeDefRow.methodList)
    (fewTypes : module.metadata.rowCount .typeDef < 0x1000000)
    (fewMethods : module.metadata.rowCount .methodDef < 0x1000000) :
    (∀ method type, module.metadata.methodOwner? method = some type ↔
      (module.metadata.methodRange type).contains method = true) ∧
    (∀ first method, module.metadata.row? TypeDefRow 1 = some first →
      1 ≤ method → first.methodList ≤ method → method ≤ module.metadata.rowCount .methodDef →
        ∃ owner, module.metadata.methodOwner? method = some owner ∧
          ∀ type, (module.metadata.methodRange type).contains method = true → type = owner) ∧
    (∀ rid type methods, module.typeAt rid = .ok type → module.methodsOf type = .ok methods →
      ∀ method ∈ methods, method.owner = type.token) ∧
    -- This holds of any image.
    ∀ (other : Metadata) (method type : Nat), other.methodOwner? method = some type →
      (other.methodRange type).contains method = true := by
  have inverts {method type : Nat} : module.metadata.methodOwner? method = some type ↔
      (module.metadata.methodRange type).contains method = true :=
    Metadata.methodOwner?_eq_some_iff intact ascending
  refine ⟨fun _ _ => inverts, ?_, ?_,
    fun _ _ _ => Metadata.contains_methodRange_of_methodOwner?⟩
  · intro first method found positive starts inside
    rcases Metadata.exists_contains_listRange found starts positive inside with
      ⟨owner, contains⟩
    exact ⟨owner, inverts.mpr contains, fun type containsToo =>
      ascending.owner_unique intact containsToo contains⟩
  · intro rid type methods made listed method member
    rcases owner_of_mem_methodsOf listed member with ⟨number, owner, contains, owned, known⟩
    have numberInside := (Metadata.contains_listRange_iff.mp contains).2.1
    -- Neither number is cut by its token, so both lists are those of the numbers themselves.
    rw [Nat.mod_eq_of_lt (by omega)] at owned
    rw [token_row_of_typeAt fewTypes made] at contains
    have same : owner = rid := ascending.owner_unique intact (inverts.mp owned) contains
    rw [known, same, token_of_typeAt made]

open scoped Container

/-- An assembly with four types and four methods. The lists of the first two types start at the
second method, that of the third at the fourth, and that of the last behind all methods. -/
def listsImage : Bytes := #[
  -- the root
  0x42, 0x53, 0x4A, 0x42, 1, 0, 1, 0, 0, 0, 0, 0, 0, 0, 0, 0, 0, 0, 3, 0,
  -- the headers of the streams
  0x44, 0, 0, 0, 0xAA, 0, 0, 0, 0x23, 0x7E, 0, 0,
  0xEE, 0, 0, 0, 5, 0, 0, 0, 0x23, 0x53, 0x74, 0x72, 0x69, 0x6E, 0x67, 0x73, 0, 0, 0, 0,
  0xF3, 0, 0, 0, 5, 0, 0, 0, 0x23, 0x42, 0x6C, 0x6F, 0x62, 0, 0, 0,
  -- four types, four methods and one assembly
  0, 0, 0, 0, 2, 0, 0, 1, 0x44, 0, 0, 0, 1, 0, 0, 0, 0, 0, 0, 0, 0, 0, 0, 0,
  4, 0, 0, 0, 4, 0, 0, 0, 1, 0, 0, 0,
  0, 0, 0, 0, 3, 0, 0, 0, 0, 0, 1, 0, 2, 0,
  0, 0, 0, 0, 3, 0, 0, 0, 0, 0, 1, 0, 2, 0,
  0, 0, 0, 0, 3, 0, 0, 0, 0, 0, 1, 0, 4, 0,
  0, 0, 0, 0, 3, 0, 0, 0, 0, 0, 1, 0, 9, 0,
  0, 0, 0, 0, 0, 0, 0, 0, 3, 0, 1, 0, 1, 0,
  0, 0, 0, 0, 0, 0, 0, 0, 3, 0, 1, 0, 1, 0,
  0, 0, 0, 0, 0, 0, 0, 0, 3, 0, 1, 0, 1, 0,
  0, 0, 0, 0, 0, 0, 0, 0, 3, 0, 1, 0, 1, 0,
  4, 0x80, 0, 0, 1, 0, 0, 0, 0, 0, 0, 0, 0, 0, 0, 0, 0, 0, 1, 0, 0, 0,
  -- the strings
  0, 0x41, 0, 0x4D, 0,
  -- the blobs
  0, 3, 0, 0, 1]

def listed : Except Error Module := do
  Module.ofImage 1 (← Image.ofBytes ⟨"/A"⟩ listsImage) none

/-- The third method belongs to the second type, and every method of the third type knows it. -/
theorem methodOwner?_inverts_methodRange_lists :
    ∃ module, listed = .ok module ∧ module.metadata.Intact TypeDefRow ∧
      module.metadata.Ascending TypeDefRow.methodList ∧
      module.metadata.rowCount .typeDef = 4 ∧ module.metadata.rowCount .methodDef = 4 ∧
      module.metadata.methodOwner? 3 = some 2 ∧
      (∃ owner, module.metadata.methodOwner? 4 = some owner ∧
        ∀ type, (module.metadata.methodRange type).contains 4 = true → type = owner) ∧
      ∃ type methods, module.typeAt 3 = .ok type ∧ module.methodsOf type = .ok methods ∧
        methods.length = 1 ∧ ∀ method ∈ methods, method.owner = type.token := by
  have evaluated : listed.toOption.any (fun module =>
      decide (module.metadata.Intact TypeDefRow ∧
        module.metadata.Ascending TypeDefRow.methodList ∧
        module.metadata.rowCount .typeDef = 4 ∧ module.metadata.rowCount .methodDef = 4 ∧
        (module.metadata.methodRange 2).contains 3 = true) &&
      (module.metadata.row? TypeDefRow 1).any (fun first => decide (first.methodList ≤ 4)) &&
      (module.typeAt 3).toOption.any fun type =>
        (module.methodsOf type).toOption.any fun methods =>
          decide (methods.length = 1)) = true := by
    decide +kernel
  simp only [Option.any_eq_true, Bool.and_eq_true, decide_eq_true_eq] at evaluated
  obtain ⟨module, made, ⟨⟨intact, ascending, types, methodRows, contains⟩, first, found, starts⟩,
    type, typeMade, methods, methodsMade, single⟩ := evaluated
  obtain ⟨inverts, owned, known, _⟩ :=
    methodOwner?_inverts_methodRange intact ascending (by omega) (by omega)
  refine ⟨module, Error.toOption_eq_some.mp made, intact, ascending, types, methodRows,
    (inverts 3 2).mpr contains, owned first 4 found (by decide) starts (by omega), type, methods,
    Error.toOption_eq_some.mp typeMade, Error.toOption_eq_some.mp methodsMade, single,
    known 3 type methods (Error.toOption_eq_some.mp typeMade)
      (Error.toOption_eq_some.mp methodsMade)⟩

end Module

end CilLoader
