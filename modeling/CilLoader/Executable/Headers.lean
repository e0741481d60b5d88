import CilLoader.Bytes
import CilLoader.Executable.Section

/-!
# Headers of executable images

What the headers of an executable image have to say about its metadata: where the runtime header is,
and in which sections the image is stored. How the headers are read is a parameter, and so is which
images count as damaged.
-/

namespace CilLoader

structure OptionalHeader where
  /-- The address of the runtime header, unless the image has none. -/
  runtimeHeader : Option Nat
deriving DecidableEq, Repr

structure ExecutableHeaders where
  optional : Option OptionalHeader
  sections : List Section
deriving DecidableEq, Repr

class ExecutableParser where
  /-- The headers of an image, unless it is damaged. -/
  headers? : Bytes → Option ExecutableHeaders

end CilLoader
