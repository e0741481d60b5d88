import CilLoader.Context.Bounded
import CilLoader.Context.Loading
import CilLoader.Context.SystemModule

/-!
# Resolving types

A token or a signature of a module is turned into a type. A type that a module does not define may
be forwarded to another module, and so on for at most sixteen steps. A reference to a nested type
names the reference to the type around it, again for at most sixteen steps. A type specification
stands for a signature.
-/

namespace CilLoader

variable [ExecutableParser]

def PrimitiveType.wellKnown? : PrimitiveType → Option WellKnownType
  | void => some .void
  | boolean => some .boolean
  | char => some .char
  | i1 => some .sbyte
  | u1 => some .byte
  | i2 => some .int16
  | u2 => some .uint16
  | i4 => some .int32
  | u4 => some .uint32
  | i8 => some .int64
  | u8 => some .uint64
  | r4 => some .single
  | r8 => some .double
  | string => some .string
  | typedByRef => none
  | i => some .intPtr
  | u => some .uintPtr
  | object => some .object

namespace Action

/-- How many forwarders, or how many enclosing types, are followed. -/
def hopLimit : Nat := 16

def resolveAssemblyReference (module : Module) (token : Token) : Action Module := do
  if token.table = TableId.assemblyRef.number then
    let identity ← ofExcept (module.metadata.referencedIdentity token.row)
    resolveAssembly identity.name
  else fail (.typeResolution token)

def forwarder? (module : Module) («namespace» name : String) : Except Error (Option Token) := do
  match ← module.metadata.findExportedType «namespace» name with
  | none => return none
  | some row =>
    if row.implementation.table = .assemblyRef then return some row.implementation.token
    else return none

/-- The type with a name, looked for in a module and then in those it is forwarded to, `room` being
one more than the number of forwarders that may still be followed. -/
def resolveTypeWithin : (room : Nat) → (module : Module) → («namespace» name : String) →
    Action TypeDefinition
  | 0, _, _, _ => fail (.recursionLimit hopLimit)
  | room + 1, module, «namespace», name => do
    match ← ofExcept (module.getType? «namespace» name) with
    | some type => return type
    | none =>
      match ← ofExcept (forwarder? module «namespace» name) with
      | some reference =>
        let target ← resolveAssemblyReference module reference
        resolveTypeWithin room target «namespace» name
      | none => fail (.typeNotFound module.simpleName «namespace» name)

def resolveType (module : Module) («namespace» name : String) : Action TypeDefinition :=
  resolveTypeWithin (hopLimit + 1) module «namespace» name

/-- The type with a name inside another type, which must belong to a registered module. -/
def resolveNested (reference : Token) (enclosing : TypeDefinition) (name : String) :
    Action TypeDefinition := do
  match (← context).registry.get? enclosing.module with
  | none => fail (.typeResolution reference)
  | some owner =>
    match ← ofExcept (owner.nestedType? enclosing name) with
    | some type => return type
    | none => fail (.typeNotFound owner.simpleName enclosing.fullName name)

/-- The type that a type reference names, `room` being one more than the number of enclosing types
that may still be looked for. -/
def resolveTypeRefWithin : (room : Nat) → (module : Module) → (token : Token) →
    Action TypeDefinition
  | 0, _, _ => fail (.recursionLimit hopLimit)
  | room + 1, module, token => do
    match module.metadata.row? TypeRefRow token.row with
    | none => fail (.typeResolution token)
    | some row =>
      let «namespace» ← ofExcept (module.metadata.string row.namespace)
      let name ← ofExcept (module.metadata.string row.name)
      let scope := row.resolutionScope
      match scope.table with
      | .assemblyRef =>
        let target ← resolveAssemblyReference module scope.token
        resolveType target «namespace» name
      | .module => resolveType module «namespace» name
      | .typeRef =>
        let enclosing ← resolveTypeRefWithin room module scope.token
        resolveNested token enclosing name
      | _ => fail (.typeResolution token)

def resolveTypeRef (module : Module) (token : Token) : Action TypeDefinition :=
  resolveTypeRefWithin (hopLimit + 1) module token

def resolvePrimitive (type : PrimitiveType) : Action TypeDesc := do
  match type.wellKnown? with
  | some kind => ofExcept ((← context).requireWellKnown kind)
  | none =>
    match (← context).system with
    | none => fail (.typeFault (.systemTypeUnbound "TypedReference"))
    | some binding =>
      return .definition (← resolveType binding.module WellKnownType.namespace "TypedReference")

def genericHead (token : Token) : TypeDesc → Action TypeDefinition
  | .definition type => succeed type
  | _ => fail (.typeFault (.genericHeadNotDefinition token))

end Action

namespace Bounded

open CilLoader.Action

mutual
/-- The type that a signature denotes, if tokens denote what `reference` says. -/
def resolveSignatureWith (reference : Token → Bounded TypeDesc) : TypeSignature → Bounded TypeDesc
  | .primitive type => ofAction (resolvePrimitive type)
  | .named _ token => reference token
  | .generic _ token arguments => do
    let type ← ofAction (genericHead token (← reference token))
    let arguments ← resolveSignaturesWith reference arguments
    return .instantiated type arguments
  | .typeVariable index => return .parameter .type index
  | .methodVariable index => return .parameter .method index
  | .vector element => do return .vector (← resolveSignatureWith reference element)
  | .array element rank _ _ => do return .array (← resolveSignatureWith reference element) rank
  | .pointer target => do return .pointer (← resolveSignatureWith reference target)
  | .byRef target => do return .byRef (← resolveSignatureWith reference target)
  | .pinned target => resolveSignatureWith reference target
  | .function (.mk convention _ returnType parameters) => do
    let parameters ← resolveSignaturesWith reference parameters
    let returnType ← resolveSignatureWith reference returnType
    return .function convention.hasThis returnType parameters

def resolveSignaturesWith (reference : Token → Bounded TypeDesc) :
    List TypeSignature → Bounded (List TypeDesc)
  | [] => return []
  | signature :: signatures => do
    let type ← resolveSignatureWith reference signature
    let types ← resolveSignaturesWith reference signatures
    return type :: types
end

/-- The type that a token denotes, given up if more than `bound` type specifications are inside one
another. -/
def resolveReferenceWithin (module : Module) : (bound : Nat) → (token : Token) → Bounded TypeDesc
  | bound, token =>
    if token.table = TableId.typeDef.number then
      ofAction do return .definition (← ofExcept (module.typeByToken token))
    else if token.table = TableId.typeRef.number then
      ofAction do return .definition (← resolveTypeRef module token)
    else if token.table = TableId.typeSpec.number then
      match bound with
      | 0 => giveUp
      | bound + 1 => do
        let signature ← ofAction (ofExcept (module.metadata.typeSpecSignature token.row))
        resolveSignatureWith (resolveReferenceWithin module bound) signature
    else ofAction (fail (.typeResolution token))

/-- The type that a token denotes if it names no type specification. -/
def directReference (module : Module) (token : Token) : Action TypeDesc :=
  if token.table = TableId.typeDef.number then do
    return .definition (← ofExcept (module.typeByToken token))
  else if token.table = TableId.typeRef.number then do
    return .definition (← resolveTypeRef module token)
  else fail (.typeResolution token)

theorem resolveReferenceWithin_of_otherTable {module : Module} {token : Token}
    (otherTable : token.table ≠ TableId.typeSpec.number) (bound : Nat) :
    resolveReferenceWithin module bound token = ofAction (directReference module token) := by
  rw [resolveReferenceWithin.eq_def, directReference]
  simp only [if_neg otherTable]
  split
  · rfl
  · split <;> rfl

theorem resolveReferenceWithin_zero {module : Module} {token : Token}
    (table : token.table = TableId.typeSpec.number) :
    resolveReferenceWithin module 0 token = giveUp := by
  rw [resolveReferenceWithin, table]
  rfl

theorem resolveReferenceWithin_succ {module : Module} {token : Token}
    (table : token.table = TableId.typeSpec.number) (bound : Nat) :
    resolveReferenceWithin module (bound + 1) token = (do
      let signature ← ofAction (ofExcept (module.metadata.typeSpecSignature token.row))
      resolveSignatureWith (resolveReferenceWithin module bound) signature) := by
  rw [resolveReferenceWithin, table]
  rfl

end Bounded

namespace Action

/-- How many type specifications of a module can stand inside one another, unless one contains
itself. -/
def specificationBound (module : Module) : Nat :=
  module.metadata.rowCount .typeSpec + 1

def resolveTypeReference (module : Module) (token : Token) : Action TypeDesc :=
  (Bounded.resolveReferenceWithin module (specificationBound module) token).settle .endlessType

def resolveSignature (module : Module) (signature : TypeSignature) : Action TypeDesc :=
  (Bounded.resolveSignatureWith
    (Bounded.resolveReferenceWithin module (specificationBound module)) signature).settle
      .endlessType

end Action

end CilLoader
