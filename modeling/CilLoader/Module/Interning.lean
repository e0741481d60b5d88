import CilLoader.Module

/-!
# Handles of types and methods

A module makes each of its types and methods once and hands out the same one to whoever asks for it
again. What has been made is kept under its row number. The names of all types are kept as well,
once they could all be read. A question that fails leaves behind what was made for it.
-/

namespace CilLoader

/-- Something that was made once. Two handles are the same if they have the same number. -/
structure Handle (α : Type) where
  number : Nat
  value : α
deriving Repr

/-- The handles that have been made, each under the number of its row, the last one first. -/
abbrev Pool (α : Type) := List (Nat × Handle α)

/-- The handle for a row. It is made if there is none, provided that its value can be. -/
def Pool.intern (pool : Pool α) (rid : Nat) (make : Except Error α) :
    Except Error (Handle α) × Pool α :=
  match pool.lookup rid with
  | some handle => (.ok handle, pool)
  | none =>
    match make with
    | .ok value =>
      let handle := ⟨pool.length, value⟩
      (.ok handle, (rid, handle) :: pool)
    | .error error => (.error error, pool)

/-- What a module has made so far. -/
structure Interning where
  /-- The types under their names, once all names have been read. -/
  index : Option (List ((String × String) × Nat)) := none
  types : Pool TypeDefinition := []
  methods : Pool MethodDefinition := []
deriving Repr

/-- A question to a module, which may make it keep more. -/
abbrev Interned := ExceptT Error (StateM Interning)

namespace Interned

def ofExcept (result : Except Error α) : Interned α :=
  ExceptT.mk (pure result)

/-! ## Types -/

def typeAt (module : Module) (rid : Nat) : Interned (Handle TypeDefinition) :=
  ExceptT.mk fun interning =>
    let (answer, types) := interning.types.intern rid (module.typeAt rid)
    (answer, { interning with types })

def typeByToken (module : Module) (token : Token) : Interned (Handle TypeDefinition) :=
  if token.table = TableId.typeDef.number then typeAt module token.row
  else throw (.typeResolution token)

/-- The types under their names, which are kept only if all of them can be read. -/
def typeIndex (module : Module) : Interned (List ((String × String) × Nat)) := do
  match (← get).index with
  | some index => return index
  | none =>
    let index ← ofExcept module.typeIndex
    modify fun interning => { interning with index := some index }
    return index

def getType? (module : Module) («namespace» name : String) :
    Interned (Option (Handle TypeDefinition)) := do
  match (← typeIndex module).lookup («namespace», name) with
  | none => return none
  | some rid => return some (← typeAt module rid)

def nestedType? (module : Module) (enclosing : TypeDefinition) (name : String) :
    Interned (Option (Handle TypeDefinition)) :=
  if enclosing.module ≠ module.id then return none
  else do
    match ← ofExcept (module.nestedRow? enclosing.token.row name) with
    | none => return none
    | some row => return some (← typeAt module row.rid)

/-! ## Methods -/

def methodByToken (module : Module) (token : Token) : Interned (Handle MethodDefinition) :=
  if token.table ≠ TableId.methodDef.number then throw (.typeResolution token)
  else
    ExceptT.mk fun interning =>
      let (answer, methods) := interning.methods.intern token.row (module.methodByToken token)
      (answer, { interning with methods })

def methodsOf (module : Module) (type : TypeDefinition) :
    Interned (List (Handle MethodDefinition)) :=
  if type.module ≠ module.id then throw (.typeResolution type.token)
  else
    (module.metadata.methodRange type.token.row).toList.mapM fun rid =>
      methodByToken module (Module.methodToken rid)

def findMethod? (module : Module) (type : TypeDefinition) (name : String) :
    Interned (Option (Handle MethodDefinition)) := do
  return (← methodsOf module type).find? (·.value.name == name)

end Interned

end CilLoader
