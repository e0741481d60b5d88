import CilLoader.Context.Resolution

/-!
# Runtime interfaces and field layouts

Which interfaces a type has at run time. A definition has those its metadata lists, and an
instantiation has the same ones over its arguments. A vector has those of the generic array class
over its element type, unless the element is a pointer; all other arrays have those of the array
class. What remains has none. The generic array class is kept once it has been found.
-/

namespace CilLoader

variable [ExecutableParser]

/-- A way to find the interfaces of a type. -/
inductive InterfaceAlgorithm where
  | configured
  | metadata
  | arrayOf (type : TypeDefinition)
  | baseArray
deriving DecidableEq, Repr

def Context.withArrayClass (context : Context) (type : TypeDefinition) : Context :=
  { context with arrayClass := some type }

namespace Action

/-- The interfaces that metadata lists for a definition, over the arguments of an instantiation. -/
def metadataInterfaces (type : TypeDesc) : Action (List TypeDesc) := do
  match type.definition? with
  | none => return []
  | some definition =>
    match (← context).registry.get? definition.module with
    | none => fail (.typeResolution definition.token)
    | some module =>
      (module.metadata.interfaceImpls definition.token.row).mapM fun row => do
        let interface ← resolveTypeReference module row.interface.token
        return interface.instantiate type.arguments []

/-- The interfaces of a vector, given the generic array class. -/
def arrayInterfaces (arrayClass : TypeDefinition) : TypeDesc → Action (List TypeDesc)
  | .vector element => metadataInterfaces (.instantiated arrayClass [element])
  | _ => return []

def baseArrayInterfaces (type : TypeDesc) : Action (List TypeDesc) := do
  if type.isArray then metadataInterfaces (← ofExcept ((← context).requireWellKnown .array))
  else return []

def interfacesBy : InterfaceAlgorithm → TypeDesc → Action (List TypeDesc)
  | .configured, type => do
    match (← context).config.interfaceSource with
    | .metadata => metadataInterfaces type
    | .supplied interfaces => ofExcept (interfaces type)
  | .metadata, type => metadataInterfaces type
  | .arrayOf arrayClass, type => arrayInterfaces arrayClass type
  | .baseArray, type => baseArrayInterfaces type

/-- The class that the system module or one it forwards to defines. It is looked for until it is
found, and not again. -/
def genericArrayClass : Action TypeDefinition := do
  match (← context).arrayClass with
  | some type => return type
  | none =>
    match (← context).system with
    | none => fail (.typeFault (.systemTypeUnbound "Array`1"))
    | some binding =>
      let type ← resolveType binding.module WellKnownType.namespace "Array`1"
      modify fun context => context.withArrayClass type
      return type

/-- The way in which the interfaces of a type are found, if it can have any. -/
def interfaceAlgorithm? : TypeDesc → Action (Option InterfaceAlgorithm)
  | .definition _ => return some .configured
  | .instantiated _ _ => return some .configured
  | .vector element =>
    if element.isPointer then return some .baseArray
    else do return some (.arrayOf (← genericArrayClass))
  | .array _ _ => return some .baseArray
  | _ => return none

def runtimeInterfaces (type : TypeDesc) : Action (List TypeDesc) := do
  match ← interfaceAlgorithm? type with
  | some algorithm => interfacesBy algorithm type
  | none => return []

end Action

namespace Context

def hasFieldLayout (type : TypeDesc) : Bool :=
  type.definition?.isSome

def fieldLayout (context : Context) (type : TypeDesc) : Except Error FieldLayout :=
  if hasFieldLayout type then context.layout type
  else .error (.typeFault (.noFieldLayout type.text))

end Context

end CilLoader
