import CilLoader.Token

/-!
# Symbols

What a debugger needs to know about the methods of an image: which source spans their code comes
from and what their local variables are called.
-/

namespace CilLoader

/-- A code offset and the source span that it comes from. -/
structure SourcePoint where
  ilOffset : Nat
  document : String
  startLine : Nat
  startColumn : Nat
  endLine : Nat
  endColumn : Nat
deriving DecidableEq, Repr

structure LocalVariable where
  slot : Nat
  name : String
  /-- Whether the variable was made by the compiler rather than declared. -/
  isGenerated : Bool
deriving DecidableEq, Repr

structure Symbols where
  points : Token → List SourcePoint
  locals : Token → List LocalVariable

end CilLoader
