import CilLoader.Bytes.Compressed
import CilLoader.Signature

/-!
# Decoding signatures

A type is announced by one byte. Custom modifiers in front of a type are skipped, and so is the
mark that separates the variable arguments of a method. Types may be nested less than fifty deep.
-/

namespace CilLoader

namespace SignatureCode

/-- The nesting depth that no type may reach. -/
def depthLimit : Nat := 50

def pointer : Nat := 0x0F
def byRef : Nat := 0x10
def typeVariable : Nat := 0x13
def array : Nat := 0x14
def generic : Nat := 0x15
def function : Nat := 0x1B
def vector : Nat := 0x1D
def methodVariable : Nat := 0x1E
def requiredModifier : Nat := 0x1F
def optionalModifier : Nat := 0x20
def sentinel : Nat := 0x41
def pinned : Nat := 0x45

end SignatureCode

namespace CallingConvention

def ofByte (byte : Nat) : CallingConvention where
  hasThis := byte.testBit 5
  explicitThis := byte.testBit 6
  isVarArg := byte % 16 == 5

end CallingConvention

namespace Decoder

open SignatureCode

/-- Skips custom modifiers, each a code and a token, at most `bound` of them. -/
def modifiersUpTo : (bound : Nat) → Decoder Unit
  | 0 => succeed ()
  | bound + 1 => do
    if ← hasMore then
      let code ← peek
      if code = requiredModifier ∨ code = optionalModifier then
        let _ ← byte
        let _ ← compressedToken
        modifiersUpTo bound
      else succeed ()
    else succeed ()

/-- Skips all custom modifiers. Each takes at least one byte, which bounds their number. -/
def modifiers : Decoder Unit :=
  fun data position => modifiersUpTo (data.size - position) data position

def counted (item : Decoder α) : Decoder (List α) := do
  let count ← compressed
  times count item

/-- A parameter, possibly behind the mark that starts the variable arguments. -/
def parameter (type : Decoder TypeSignature) : Decoder TypeSignature := do
  let code ← peek
  if code = sentinel then
    let _ ← byte
    type
  else type

def methodOver (type : Decoder TypeSignature) : Decoder MethodSignature := do
  let convention ← byte
  let genericCount ← if convention.testBit 4 then compressed else succeed 0
  let parameterCount ← compressed
  let returnType ← type
  let parameters ← times parameterCount (parameter type)
  return .mk (CallingConvention.ofByte convention) genericCount returnType parameters

/-- An array type: its element, its rank, and what is known about its bounds. -/
def arrayOver (type : Decoder TypeSignature) : Decoder TypeSignature := do
  let element ← type
  let rank ← compressed
  let sizes ← counted compressed
  let lowerBounds ← counted compressedSigned
  return .array element rank sizes lowerBounds

/-- A generic type with its arguments, of which there must be at least one. -/
def genericOver (type : Decoder TypeSignature) : Decoder TypeSignature := do
  let head ← byte
  match NominalKind.ofCode? head with
  | none => fail (.malformed (.genericHead head))
  | some kind =>
    let token ← compressedToken
    let count ← compressed
    if count = 0 then fail (.malformed .genericWithoutArguments)
    else
      let arguments ← times count type
      return .generic kind token arguments

/-- What follows the code of a type, the types inside it being read by the given decoder. -/
def typeBody (type : Decoder TypeSignature) (code : Nat) : Decoder TypeSignature :=
  match PrimitiveType.ofCode? code, NominalKind.ofCode? code with
  | some primitive, _ => succeed (.primitive primitive)
  | none, some kind => do return .named kind (← compressedToken)
  | none, none =>
    if code = pointer then do return .pointer (← type)
    else if code = byRef then do return .byRef (← type)
    else if code = pinned then do return .pinned (← type)
    else if code = vector then do return .vector (← type)
    else if code = typeVariable then do return .typeVariable (← compressed)
    else if code = methodVariable then do return .methodVariable (← compressed)
    else if code = array then arrayOver type
    else if code = generic then genericOver type
    else if code = function then do return .function (← methodOver type)
    else fail (.malformed (.elementType code))

def typeWithin : (room : Nat) → Decoder TypeSignature
  | 0 => fail (.recursionLimit depthLimit)
  | room + 1 => do
    modifiers
    let code ← byte
    typeBody (typeWithin room) code

def methodWithin (room : Nat) : Decoder MethodSignature :=
  methodOver (typeWithin room)

def typeSignature : Decoder TypeSignature :=
  typeWithin (depthLimit - 1)

def methodSignature : Decoder MethodSignature :=
  methodWithin (depthLimit - 1)

end Decoder

/-- Reads several signatures one after another. A type that is nested too deep leaves its mark: it
is not taken off the nesting again, so that less depth is left for the signatures after it. -/
structure SignatureReader where
  cursor : Cursor
  nesting : Nat
deriving DecidableEq, Repr

namespace SignatureReader

def start (data : Bytes) : SignatureReader :=
  ⟨Cursor.start data, 0⟩

def room (reader : SignatureReader) : Nat :=
  SignatureCode.depthLimit - 1 - reader.nesting

def read (reader : SignatureReader) (decoder : Nat → Decoder α) :
    Except Error α × SignatureReader :=
  match reader.cursor.run (decoder reader.room) with
  | (.error (.recursionLimit limit), cursor) =>
    (.error (.recursionLimit limit), ⟨cursor, reader.nesting + 1⟩)
  | (result, cursor) => (result, ⟨cursor, reader.nesting⟩)

def readType (reader : SignatureReader) : Except Error TypeSignature × SignatureReader :=
  reader.read Decoder.typeWithin

def readMethod (reader : SignatureReader) : Except Error MethodSignature × SignatureReader :=
  reader.read Decoder.methodWithin

end SignatureReader

end CilLoader
