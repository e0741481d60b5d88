import CilLoader.Module.Definition

/-!
# Resolved types

What a token or a signature denotes once all modules involved are known: a type definition, an
instantiation of a generic one, or a type made from others. Type parameters stay open until they are
instantiated.
-/

namespace CilLoader

inductive ParameterKind where
  | type
  | method
deriving DecidableEq, Repr

inductive TypeDesc where
  | definition (type : TypeDefinition)
  | instantiated (type : TypeDefinition) (arguments : List TypeDesc)
  | vector (element : TypeDesc)
  | array (element : TypeDesc) (rank : Nat)
  | pointer (target : TypeDesc)
  | byRef (target : TypeDesc)
  | function (hasThis : Bool) (returnType : TypeDesc) (parameters : List TypeDesc)
  | parameter (kind : ParameterKind) (index : Nat)
deriving Repr

namespace TypeDesc

/-- The definition behind a type, if it is a definition or an instantiation. -/
def definition? : TypeDesc → Option TypeDefinition
  | definition type => some type
  | instantiated type _ => some type
  | _ => none

def arguments : TypeDesc → List TypeDesc
  | instantiated _ arguments => arguments
  | _ => []

/-- The type that an array, pointer or reference is made from. -/
def element? : TypeDesc → Option TypeDesc
  | vector element => some element
  | array element _ => some element
  | pointer target => some target
  | byRef target => some target
  | _ => none

def isArray : TypeDesc → Bool
  | vector _ => true
  | array _ _ => true
  | _ => false

def isPointer : TypeDesc → Bool
  | pointer _ => true
  | _ => false

mutual
def hasParameters : TypeDesc → Bool
  | definition _ => false
  | instantiated _ arguments => anyHasParameters arguments
  | vector element => hasParameters element
  | array element _ => hasParameters element
  | pointer target => hasParameters target
  | byRef target => hasParameters target
  | function _ returnType parameters =>
    hasParameters returnType || anyHasParameters parameters
  | parameter _ _ => true

def anyHasParameters : List TypeDesc → Bool
  | [] => false
  | type :: types => hasParameters type || anyHasParameters types
end

/-- What a type parameter stands for. A parameter without an argument stands for itself. -/
def argumentFor (typeArguments methodArguments : List TypeDesc) (kind : ParameterKind)
    (index : Nat) : TypeDesc :=
  let arguments :=
    match kind with
    | .type => typeArguments
    | .method => methodArguments
  arguments.getD index (parameter kind index)

mutual
/-- The type over some arguments. A type without parameters is left alone. -/
def instantiate (typeArguments methodArguments : List TypeDesc) (type : TypeDesc) : TypeDesc :=
  if !type.hasParameters then type
  else
    match type with
    | definition type => definition type
    | instantiated type arguments =>
      instantiated type (instantiateAll typeArguments methodArguments arguments)
    | vector element => vector (instantiate typeArguments methodArguments element)
    | array element rank => array (instantiate typeArguments methodArguments element) rank
    | pointer target => pointer (instantiate typeArguments methodArguments target)
    | byRef target => byRef (instantiate typeArguments methodArguments target)
    | function hasThis returnType parameters =>
      function hasThis (instantiate typeArguments methodArguments returnType)
        (instantiateAll typeArguments methodArguments parameters)
    | parameter kind index => argumentFor typeArguments methodArguments kind index

def instantiateAll (typeArguments methodArguments : List TypeDesc) :
    List TypeDesc → List TypeDesc
  | [] => []
  | type :: types =>
    instantiate typeArguments methodArguments type ::
      instantiateAll typeArguments methodArguments types
end

mutual
/-- Whether two types are the same, definitions being compared by module and token. -/
def same : TypeDesc → TypeDesc → Bool
  | definition left, definition right => left.same right
  | instantiated left leftArguments, instantiated right rightArguments =>
    left.same right && sameAll leftArguments rightArguments
  | vector left, vector right => same left right
  | array left leftRank, array right rightRank => same left right && leftRank == rightRank
  | pointer left, pointer right => same left right
  | byRef left, byRef right => same left right
  | function leftThis leftReturn leftParameters, function rightThis rightReturn rightParameters =>
    leftThis == rightThis && same leftReturn rightReturn &&
      sameAll leftParameters rightParameters
  | parameter leftKind leftIndex, parameter rightKind rightIndex =>
    leftKind == rightKind && leftIndex == rightIndex
  | _, _ => false

def sameAll : List TypeDesc → List TypeDesc → Bool
  | [], [] => true
  | left :: lefts, right :: rights => same left right && sameAll lefts rights
  | _, _ => false
end

instance : BEq TypeDesc :=
  ⟨same⟩

mutual
/-- The text of a type: arguments in angle brackets, one comma less than an array has
dimensions, and numbered type parameters. -/
def text : TypeDesc → String
  | definition type => type.fullName
  | instantiated type arguments => type.fullName ++ "<" ++ textAll arguments ++ ">"
  | vector element => text element ++ "[]"
  | array element rank =>
    text element ++ "[" ++ String.ofList (List.replicate (rank - 1) ',') ++ "]"
  | pointer target => text target ++ "*"
  | byRef target => text target ++ "&"
  | function _ returnType parameters =>
    "method " ++ text returnType ++ " *(" ++ textAll parameters ++ ")"
  | parameter .type index => "!" ++ toString index
  | parameter .method index => "!!" ++ toString index

def textAll : List TypeDesc → String
  | [] => ""
  | [type] => text type
  | type :: next :: types => text type ++ "," ++ textAll (next :: types)
end

end TypeDesc

/-- A method, or a generic method with arguments for its type parameters. -/
inductive MethodDesc where
  | definition (method : MethodDefinition)
  | instantiated (method : MethodDefinition) (typeArguments methodArguments : List TypeDesc)
deriving Repr

namespace MethodDesc

def definition? : MethodDesc → Option MethodDefinition
  | definition method => some method
  | instantiated _ _ _ => none

def same : MethodDesc → MethodDesc → Bool
  | definition left, definition right => left.same right
  | instantiated left leftTypes leftMethods, instantiated right rightTypes rightMethods =>
    left.same right && TypeDesc.sameAll leftTypes rightTypes &&
      TypeDesc.sameAll leftMethods rightMethods
  | _, _ => false

end MethodDesc

end CilLoader
