import Mathlib.Logic.Equiv.Basic
import CilLoader.Module

/-!
# Modules from the same image

The same image can be made a module more than once, under a new number each time. All such modules
give the same answers but for their numbers, both in what they answer and in what they are asked
about.
-/

namespace CilLoader

/-- The type as it looks if two modules change their numbers. -/
def TypeDefinition.exchanged (left right : ModuleId) (type : TypeDefinition) : TypeDefinition :=
  { type with module := Equiv.swap left right type.module }

namespace Module

/-- The modules are made from the same image. Their numbers may differ. -/
structure SameSource (left right : Module) : Prop where
  image : left.image = right.image
  identity : left.identity = right.identity

theorem SameSource.path {left right : Module} (same : left.SameSource right) :
    left.path = right.path := by
  rw [Module.path, same.image, Module.path]

theorem SameSource.metadata {left right : Module} (same : left.SameSource right) :
    left.metadata = right.metadata := by
  rw [Module.metadata, same.image, Module.metadata]

theorem SameSource.simpleName {left right : Module} (same : left.SameSource right) :
    left.simpleName = right.simpleName := by
  rw [Module.simpleName, same.identity, Module.simpleName]

theorem SameSource.refl (module : Module) : module.SameSource module :=
  ⟨rfl, rfl⟩

variable {left right : Module}

/-! ## Types -/

theorem SameSource.typeAt (same : left.SameSource right) (rid : Nat) :
    left.typeAt rid = (right.typeAt rid).map fun type => { type with module := left.id } := by
  simp only [Module.typeAt, same.metadata, Error.map_bind]
  rfl

theorem SameSource.typeByToken (same : left.SameSource right) (token : Token) :
    left.typeByToken token =
      (right.typeByToken token).map fun type => { type with module := left.id } := by
  rw [Module.typeByToken, Module.typeByToken]
  split
  · exact same.typeAt token.row
  · rfl

theorem SameSource.getType? (same : left.SameSource right) («namespace» name : String) :
    left.getType? «namespace» name =
      (right.getType? «namespace» name).map
        (Option.map fun type => { type with module := left.id }) := by
  have sameIndex : left.typeIndex = right.typeIndex := by
    simp only [typeIndex, same.metadata]
  rw [Module.getType?, Module.getType?, sameIndex, Error.map_bind]
  apply congrArg
  funext index
  split
  · rfl
  · rw [same.typeAt, Error.map_bind]
    cases right.typeAt _ <;> rfl

theorem module_of_getType? {module : Module} {«namespace» name : String} {type : TypeDefinition}
    (found : module.getType? «namespace» name = .ok (some type)) : type.module = module.id := by
  have same := (SameSource.refl module).getType? «namespace» name
  rw [found] at same
  exact congrArg TypeDefinition.module (Option.some.inj (Except.ok.inj same))

theorem exchanged_module_eq_iff (left right : ModuleId) (type : TypeDefinition) :
    (type.exchanged left right).module = right ↔ type.module = left := by
  rw [TypeDefinition.exchanged, Equiv.swap_apply_eq_iff, Equiv.swap_apply_right]

theorem SameSource.nestedType? (same : left.SameSource right) (enclosing : TypeDefinition)
    (name : String) :
    left.nestedType? enclosing name =
      (right.nestedType? (enclosing.exchanged left.id right.id) name).map
        (Option.map fun type => { type with module := left.id }) := by
  have sameRow (row : Nat) : left.nestedRow? row name = right.nestedRow? row name := by
    simp only [nestedRow?, same.metadata]
  rw [Module.nestedType?, Module.nestedType?]
  simp only [ne_eq, exchanged_module_eq_iff, sameRow]
  split
  · rfl
  · rw [Error.map_bind]
    apply congrArg
    funext found
    cases found with
    | none => rfl
    | some row =>
        dsimp only
        rw [same.typeAt, Error.map_bind]
        cases right.typeAt row.rid <;> rfl

/-! ## Methods -/

theorem SameSource.methodByToken (same : left.SameSource right) (token : Token) :
    left.methodByToken token =
      (right.methodByToken token).map fun method => { method with module := left.id } := by
  rw [Module.methodByToken, Module.methodByToken, same.metadata]
  split
  · rfl
  · split
    · simp only [Error.map_bind]
      rfl
    · rfl

theorem SameSource.methodsOf (same : left.SameSource right) (type : TypeDefinition) :
    left.methodsOf type =
      (right.methodsOf (type.exchanged left.id right.id)).map
        (List.map fun method => { method with module := left.id }) := by
  rw [Module.methodsOf, Module.methodsOf]
  simp only [ne_eq, exchanged_module_eq_iff]
  split
  · rfl
  · rw [Error.map_mapM, same.metadata]
    exact congrArg (List.mapM · _) (funext fun rid => same.methodByToken (methodToken rid))

theorem SameSource.findMethod? (same : left.SameSource right) (type : TypeDefinition)
    (name : String) :
    left.findMethod? type name =
      (right.findMethod? (type.exchanged left.id right.id) name).map
        (Option.map fun method => { method with module := left.id }) := by
  rw [Module.findMethod?, Module.findMethod?, same.methodsOf, Error.map_bind]
  cases right.methodsOf (type.exchanged left.id right.id) with
  | error error => rfl
  | ok methods => exact congrArg Except.ok List.find?_map

end Module

end CilLoader
