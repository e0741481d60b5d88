import CilLoader.Image
import CilLoader.Module.Definition
import CilLoader.Text.UpperCase

/-!
# Modules

A module is a loaded image that declares an assembly. It answers questions about the types and
methods it defines. The answers depend on the image alone.
-/

namespace CilLoader

/-- The form of a name under which names that differ in case only are the same. -/
def foldName (name : String) : String :=
  UpperCase.ofText name

structure Module where
  id : ModuleId
  identity : Identity
  image : Image
deriving DecidableEq, Repr

namespace Module

/-- Takes an image as a module. It must declare an assembly, whose name must be the expected one if
a name is expected. -/
def ofImage (id : ModuleId) (image : Image) (expected : Option String) : Except Error Module := do
  match ← image.metadata.identity? with
  | none => .error (.notAnAssembly image.path)
  | some identity =>
    match expected with
    | none => .ok { id, identity, image }
    | some name =>
      if foldName name = foldName identity.name then .ok { id, identity, image }
      else .error (.nameMismatch identity.name name image.path)

def simpleName (module : Module) : String :=
  module.identity.name

def path (module : Module) : Path :=
  module.image.path

def metadata (module : Module) : Metadata :=
  module.image.metadata

/-! ## Types -/

def typeToken (rid : Nat) : Token :=
  Token.ofParts TableId.typeDef.number rid

def typeAt (module : Module) (rid : Nat) : Except Error TypeDefinition := do
  let token := typeToken rid
  let row ← module.metadata.requireRow TypeDefRow rid
  let genericParams ← (module.metadata.genericParams token).mapM fun param =>
    module.metadata.string param.name
  let «namespace» ← module.metadata.string row.namespace
  let name ← module.metadata.string row.name
  return {
    module := module.id
    token
    «namespace»
    name
    flags := row.flags
    baseType := if row.baseType.isNull then none else some row.baseType.token
    genericParams }

def typeByToken (module : Module) (token : Token) : Except Error TypeDefinition :=
  if token.table = TableId.typeDef.number then module.typeAt token.row
  else .error (.typeResolution token)

/-- The names and rows of all types that do not stand inside another type. All names must be
intact. -/
def typeIndex (module : Module) : Except Error (List ((String × String) × Nat)) :=
  ((module.metadata.rows TypeDefRow).filter fun row => !TypeAttributes.isNested row.flags).mapM
    fun row => do
      let «namespace» ← module.metadata.string row.namespace
      let name ← module.metadata.string row.name
      return ((«namespace», name), row.rid)

/-- The type with a name, unless there is none. Of several the first counts. -/
def getType? (module : Module) («namespace» name : String) :
    Except Error (Option TypeDefinition) := do
  let index ← module.typeIndex
  match index.lookup («namespace», name) with
  | none => return none
  | some rid => return some (← module.typeAt rid)

/-- The row of the type with a name inside another type. Of several the first counts. -/
def nestedRow? (module : Module) (enclosing : Nat) (name : String) :
    Except Error (Option TypeDefRow) :=
  let candidates :=
    (module.metadata.nestedTypesOf enclosing).filterMap (module.metadata.row? TypeDefRow)
  Metadata.firstWhere?
    (fun row => do return decide ((← module.metadata.string row.name) = name)) candidates

def nestedType? (module : Module) (enclosing : TypeDefinition) (name : String) :
    Except Error (Option TypeDefinition) :=
  if enclosing.module ≠ module.id then .ok none
  else do
    match ← module.nestedRow? enclosing.token.row name with
    | none => return none
    | some row => return some (← module.typeAt row.rid)

/-! ## Methods -/

def methodToken (rid : Nat) : Token :=
  Token.ofParts TableId.methodDef.number rid

/-- The method that a token names. It must belong to some type. -/
def methodByToken (module : Module) (token : Token) : Except Error MethodDefinition :=
  if token.table ≠ TableId.methodDef.number then .error (.typeResolution token)
  else
    match module.metadata.row? MethodDefRow token.row, module.metadata.methodOwner? token.row with
    | some row, some owner => do
      let name ← module.metadata.string row.name
      let signature ← module.metadata.methodSignature token.row
      return {
        module := module.id
        token
        name
        flags := row.flags
        owner := typeToken owner
        signature
        params := module.metadata.paramRange token.row }
    | _, _ => .error (.typeResolution token)

def methodsOf (module : Module) (type : TypeDefinition) : Except Error (List MethodDefinition) :=
  if type.module ≠ module.id then .error (.typeResolution type.token)
  else
    (module.metadata.methodRange type.token.row).toList.mapM fun rid =>
      module.methodByToken (methodToken rid)

/-- The first method of a type with a name. All methods of the type must be intact. -/
def findMethod? (module : Module) (type : TypeDefinition) (name : String) :
    Except Error (Option MethodDefinition) := do
  let methods ← module.methodsOf type
  return methods.find? (·.name == name)

end Module

end CilLoader
