import CilLoader.Token

/-!
# Signatures

The shape of a type or of a method as metadata spells it. Types are still named by token: what a
token denotes depends on the module that the signature comes from.
-/

namespace CilLoader

/-- The types that a signature names by one byte. -/
inductive PrimitiveType where
  | void
  | boolean
  | char
  | i1
  | u1
  | i2
  | u2
  | i4
  | u4
  | i8
  | u8
  | r4
  | r8
  | string
  | typedByRef
  | i
  | u
  | object
deriving DecidableEq, Repr

namespace PrimitiveType

def all : List PrimitiveType := [
  void, boolean, char, i1, u1, i2, u2, i4, u4, i8, u8, r4, r8, string, typedByRef, i, u, object]

def code : PrimitiveType → Nat
  | void => 0x01
  | boolean => 0x02
  | char => 0x03
  | i1 => 0x04
  | u1 => 0x05
  | i2 => 0x06
  | u2 => 0x07
  | i4 => 0x08
  | u4 => 0x09
  | i8 => 0x0A
  | u8 => 0x0B
  | r4 => 0x0C
  | r8 => 0x0D
  | string => 0x0E
  | typedByRef => 0x16
  | i => 0x18
  | u => 0x19
  | object => 0x1C

def name : PrimitiveType → String
  | void => "Void"
  | boolean => "Boolean"
  | char => "Char"
  | i1 => "I1"
  | u1 => "U1"
  | i2 => "I2"
  | u2 => "U2"
  | i4 => "I4"
  | u4 => "U4"
  | i8 => "I8"
  | u8 => "U8"
  | r4 => "R4"
  | r8 => "R8"
  | string => "String"
  | typedByRef => "TypedByRef"
  | i => "I"
  | u => "U"
  | object => "Object"

def ofCode? (code : Nat) : Option PrimitiveType :=
  all.find? (·.code == code)

theorem ofCode?_code (type : PrimitiveType) : ofCode? type.code = some type := by
  cases type <;> rfl

end PrimitiveType

inductive NominalKind where
  | reference
  | value
deriving DecidableEq, Repr

namespace NominalKind

def code : NominalKind → Nat
  | reference => 0x12
  | value => 0x11

def ofCode? : Nat → Option NominalKind
  | 0x12 => some reference
  | 0x11 => some value
  | _ => none

theorem ofCode?_code (kind : NominalKind) : ofCode? kind.code = some kind := by
  cases kind <;> rfl

end NominalKind

/-- How a method is called: whether it has a receiver, whether the receiver is among the declared
parameters, and whether it takes a variable number of arguments. -/
structure CallingConvention where
  hasThis : Bool
  explicitThis : Bool
  isVarArg : Bool
deriving DecidableEq, Repr

mutual
inductive TypeSignature where
  | primitive (type : PrimitiveType)
  | named (kind : NominalKind) (token : Token)
  | generic (kind : NominalKind) (token : Token) (arguments : List TypeSignature)
  | typeVariable (index : Nat)
  | methodVariable (index : Nat)
  | vector (element : TypeSignature)
  | array (element : TypeSignature) (rank : Nat) (sizes : List Nat) (lowerBounds : List Int)
  | pointer (target : TypeSignature)
  | byRef (target : TypeSignature)
  | pinned (target : TypeSignature)
  | function (method : MethodSignature)

inductive MethodSignature where
  | mk (convention : CallingConvention) (genericCount : Nat) (returnType : TypeSignature)
      (parameters : List TypeSignature)
end

deriving instance Repr for TypeSignature, MethodSignature

namespace MethodSignature

def convention : MethodSignature → CallingConvention
  | mk convention _ _ _ => convention

def genericCount : MethodSignature → Nat
  | mk _ genericCount _ _ => genericCount

def returnType : MethodSignature → TypeSignature
  | mk _ _ returnType _ => returnType

def parameters : MethodSignature → List TypeSignature
  | mk _ _ _ parameters => parameters

end MethodSignature

instance : Inhabited TypeSignature :=
  ⟨.primitive .void⟩

end CilLoader
