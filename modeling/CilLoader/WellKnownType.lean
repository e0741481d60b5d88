/-!
# Well-known types

The types of the system module that a compiler cannot do without. All of them live in the
namespace `System`. Each has a rank, counted from one.
-/

namespace CilLoader

inductive WellKnownType where
  | void
  | boolean
  | char
  | sbyte
  | byte
  | int16
  | uint16
  | int32
  | uint32
  | int64
  | uint64
  | intPtr
  | uintPtr
  | single
  | double
  | valueType
  | enum
  | nullable
  | object
  | string
  | array
  | multicastDelegate
  | runtimeTypeHandle
  | runtimeMethodHandle
  | runtimeFieldHandle
  | exception
deriving DecidableEq, Repr

namespace WellKnownType

def all : List WellKnownType := [
  void, boolean, char, sbyte, byte, int16, uint16, int32, uint32, int64, uint64, intPtr, uintPtr,
  single, double, valueType, enum, nullable, object, string, array, multicastDelegate,
  runtimeTypeHandle, runtimeMethodHandle, runtimeFieldHandle, exception]

def «namespace» : String :=
  "System"

def slot (type : WellKnownType) : Nat :=
  type.ctorIdx

def rank (type : WellKnownType) : Nat :=
  type.slot + 1

/-- The type of a rank. Rank zero belongs to none. -/
def ofRank? : Nat → Option WellKnownType
  | 0 => none
  | slot + 1 => all[slot]?

/-- The name of the type in metadata, without its namespace. -/
def name : WellKnownType → String
  | void => "Void"
  | boolean => "Boolean"
  | char => "Char"
  | sbyte => "SByte"
  | byte => "Byte"
  | int16 => "Int16"
  | uint16 => "UInt16"
  | int32 => "Int32"
  | uint32 => "UInt32"
  | int64 => "Int64"
  | uint64 => "UInt64"
  | intPtr => "IntPtr"
  | uintPtr => "UIntPtr"
  | single => "Single"
  | double => "Double"
  | valueType => "ValueType"
  | enum => "Enum"
  | nullable => "Nullable`1"
  | object => "Object"
  | string => "String"
  | array => "Array"
  | multicastDelegate => "MulticastDelegate"
  | runtimeTypeHandle => "RuntimeTypeHandle"
  | runtimeMethodHandle => "RuntimeMethodHandle"
  | runtimeFieldHandle => "RuntimeFieldHandle"
  | exception => "Exception"

theorem mem_all (type : WellKnownType) : type ∈ all := by
  cases type <;> decide

end WellKnownType

end CilLoader
