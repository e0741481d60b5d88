import CilLoader.Signature.Decoder

/-!
# Descending into signatures

A reader of signatures counts the types that it is inside of. The count goes up in front of a type
and down again behind it, also if the type turns out to be damaged. A type at the limit is given up
before anything of it is read, and so is not left again.

What a type and a method consist of is written down for every monad that decoders lift into. It is
the same for decoders that are given some room, and for a reader that changes its count on the way.
-/

namespace CilLoader

open SignatureCode

namespace Grammar

variable {m : Type → Type} [Monad m] [MonadLiftT Decoder m] {α : Type}

def times : (count : Nat) → m α → m (List α)
  | 0, _ => pure []
  | count + 1, item => do
    let first ← item
    let rest ← times count item
    return first :: rest

/-- A parameter, possibly behind the mark that starts the variable arguments. -/
def parameter (type : m TypeSignature) : m TypeSignature := do
  let code ← Decoder.peek
  if code = sentinel then
    let _ ← Decoder.byte
    type
  else type

def methodOver (type : m TypeSignature) : m MethodSignature := do
  let convention ← Decoder.byte
  let genericCount ← if convention.testBit 4 then Decoder.compressed else pure 0
  let parameterCount ← Decoder.compressed
  let returnType ← type
  let parameters ← times parameterCount (parameter type)
  return .mk (CallingConvention.ofByte convention) genericCount returnType parameters

def arrayOver (type : m TypeSignature) : m TypeSignature := do
  let element ← type
  let rank ← Decoder.compressed
  let sizes ← Decoder.counted Decoder.compressed
  let lowerBounds ← Decoder.counted Decoder.compressedSigned
  return .array element rank sizes lowerBounds

def genericOver (type : m TypeSignature) : m TypeSignature := do
  let head ← Decoder.byte
  match NominalKind.ofCode? head with
  | none => Decoder.fail (.malformed (.genericHead head))
  | some kind =>
    let token ← Decoder.compressedToken
    let count ← Decoder.compressed
    if count = 0 then Decoder.fail (.malformed .genericWithoutArguments)
    else
      let arguments ← times count type
      return .generic kind token arguments

/-- What follows the code of a type. -/
def typeBody (type : m TypeSignature) (code : Nat) : m TypeSignature :=
  match PrimitiveType.ofCode? code, NominalKind.ofCode? code with
  | some primitive, _ => pure (.primitive primitive)
  | none, some kind => do return .named kind (← Decoder.compressedToken)
  | none, none =>
    if code = pointer then do return .pointer (← type)
    else if code = byRef then do return .byRef (← type)
    else if code = pinned then do return .pinned (← type)
    else if code = vector then do return .vector (← type)
    else if code = typeVariable then do return .typeVariable (← Decoder.compressed)
    else if code = methodVariable then do return .methodVariable (← Decoder.compressed)
    else if code = array then arrayOver type
    else if code = generic then genericOver type
    else if code = function then do return .function (← methodOver type)
    else Decoder.fail (.malformed (.elementType code))

end Grammar

/-- Reads with a reader, which is left where the reading ends or fails. -/
def Descent (α : Type) : Type :=
  SignatureReader → Except Error α × SignatureReader

namespace Descent

variable {α β : Type}

instance : Monad Descent where
  pure value := fun reader => (.ok value, reader)
  bind first next := fun reader =>
    match first reader with
    | (.ok value, after) => next value after
    | (.error error, after) => (.error error, after)

/-- Decoders do not touch the count. -/
instance : MonadLift Decoder Descent where
  monadLift decoder := fun reader =>
    match reader.cursor.run decoder with
    | (result, cursor) => (result, ⟨cursor, reader.nesting⟩)

/-- Goes inside of a type, which the reading does not do at the limit. -/
def inside (reading : Descent α) : Descent α := fun reader =>
  let entered : SignatureReader := ⟨reader.cursor, reader.nesting + 1⟩
  if depthLimit ≤ entered.nesting then (.error (.recursionLimit depthLimit), entered)
  else
    match reading entered with
    | (result, after) => (result, ⟨after.cursor, after.nesting - 1⟩)

/-- Goes down at most so many levels. -/
def typeDown : (levels : Nat) → Descent TypeSignature
  | 0 => inside (Decoder.fail (.recursionLimit depthLimit) : Decoder TypeSignature)
  | levels + 1 => inside do
    Decoder.modifiers
    let code ← Decoder.byte
    Grammar.typeBody (typeDown levels) code

/-- There are no more levels than the limit allows. -/
def type : Descent TypeSignature :=
  typeDown depthLimit

def method : Descent MethodSignature :=
  Grammar.methodOver type

/-- What a reader can be asked for. -/
inductive Request where
  | type
  | method
deriving DecidableEq, Repr

def ask : Request → Descent (TypeSignature ⊕ MethodSignature)
  | .type => do return .inl (← type)
  | .method => do return .inr (← method)

/-- The answers to several requests, and what they leave of the reader. -/
def askAll : List Request → SignatureReader →
    List (Except Error (TypeSignature ⊕ MethodSignature)) × SignatureReader
  | [], reader => ([], reader)
  | request :: requests, reader =>
    let (answer, after) := ask request reader
    let (answers, last) := askAll requests after
    (answer :: answers, last)

end Descent

end CilLoader
