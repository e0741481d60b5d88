import CilLoader.Metadata.Lookup

/-!
# Definitions of types and methods

What a module says about the types and methods it defines. A definition belongs to one loaded
module and is told apart by that module and its token; everything else about it follows from these
two.
-/

namespace CilLoader

/-- A number that is never given to two modules. Later modules have greater numbers. -/
abbrev ModuleId := Nat

structure TypeDefinition where
  module : ModuleId
  token : Token
  «namespace» : String
  name : String
  flags : Nat
  baseType : Option Token
  genericParams : List String
deriving DecidableEq, Repr

namespace TypeDefinition

/-- Whether two values stand for the same type of the same module. -/
def same (left right : TypeDefinition) : Bool :=
  left.module == right.module && left.token == right.token

def fullName (type : TypeDefinition) : String :=
  if type.namespace.isEmpty then type.name else type.namespace ++ "." ++ type.name

def isInterface (type : TypeDefinition) : Bool :=
  TypeAttributes.isInterface type.flags

def isGeneric (type : TypeDefinition) : Bool :=
  !type.genericParams.isEmpty

end TypeDefinition

structure MethodDefinition where
  module : ModuleId
  token : Token
  name : String
  flags : Nat
  owner : Token
  signature : MethodSignature
  params : RowRange
deriving Repr

namespace MethodDefinition

def same (left right : MethodDefinition) : Bool :=
  left.module == right.module && left.token == right.token

def isStatic (method : MethodDefinition) : Bool :=
  MethodAttributes.isStatic method.flags

end MethodDefinition

end CilLoader
