/-!
# Attribute flags

Rows of metadata carry flags as one number. Every kind of row has its own named masks; a name
applies when all bits of its mask are set. Some masks overlap, so several names can apply at once.
-/

namespace CilLoader

structure Flag where
  name : String
  mask : Nat
deriving DecidableEq, Repr

namespace Flag

def holds (flag : Flag) (bits : Nat) : Bool :=
  bits &&& flag.mask == flag.mask

def namesIn (flags : List Flag) (bits : Nat) : List String :=
  (flags.filter (·.holds bits)).map (·.name)

end Flag

namespace TypeAttributes

def flags : List Flag := [
  ⟨"PUBLIC", 0x1⟩, ⟨"NESTED_PUBLIC", 0x2⟩, ⟨"NESTED_PRIVATE", 0x3⟩, ⟨"INTERFACE", 0x20⟩,
  ⟨"SEQUENTIAL_LAYOUT", 0x8⟩, ⟨"EXPLICIT_LAYOUT", 0x10⟩, ⟨"ABSTRACT", 0x80⟩, ⟨"SEALED", 0x100⟩,
  ⟨"SPECIAL_NAME", 0x400⟩, ⟨"IMPORT", 0x1000⟩, ⟨"SERIALIZABLE", 0x2000⟩,
  ⟨"BEFORE_FIELD_INIT", 0x100000⟩]

/-- Whether the type stands inside another one: its visibility, the lowest three bits, is neither
private nor public. -/
def isNested (bits : Nat) : Bool :=
  2 ≤ bits % 8

def isInterface (bits : Nat) : Bool :=
  bits.testBit 5

end TypeAttributes

namespace MethodAttributes

def flags : List Flag := [
  ⟨"STATIC", 0x10⟩, ⟨"FINAL", 0x20⟩, ⟨"VIRTUAL", 0x40⟩, ⟨"HIDE_BY_SIG", 0x80⟩,
  ⟨"NEW_SLOT", 0x100⟩, ⟨"ABSTRACT", 0x400⟩, ⟨"SPECIAL_NAME", 0x800⟩, ⟨"PINVOKE_IMPL", 0x2000⟩,
  ⟨"RT_SPECIAL_NAME", 0x1000⟩]

def isStatic (bits : Nat) : Bool :=
  bits.testBit 4

end MethodAttributes

namespace ParamAttributes

def flags : List Flag := [
  ⟨"IN", 0x1⟩, ⟨"OUT", 0x2⟩, ⟨"OPTIONAL", 0x10⟩, ⟨"HAS_DEFAULT", 0x1000⟩,
  ⟨"HAS_FIELD_MARSHAL", 0x2000⟩]

end ParamAttributes

namespace LocalVariableAttributes

def flags : List Flag := [⟨"DEBUGGER_HIDDEN", 0x1⟩]

def isHidden (bits : Nat) : Bool :=
  bits.testBit 0

end LocalVariableAttributes

namespace AssemblyAttributes

def flags : List Flag := [⟨"PUBLIC_KEY", 0x1⟩, ⟨"RETARGETABLE", 0x100⟩]

/-- Whether a reference gives the whole public key rather than its token. -/
def hasFullKey (bits : Nat) : Bool :=
  bits.testBit 0

end AssemblyAttributes

end CilLoader
