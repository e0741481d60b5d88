import Mathlib.Data.List.Forall2
import Mathlib.Data.List.Perm.Basic
import CilLoader.Executable.Container
import CilLoader.Proofs.Context.SourceSelection

/-!
# Preloading

The input files are preloaded by name: what is asked for is the stem of each file name, and it is
read as a display name. So a file is loaded if its stem is bare. The request for another one leads
to a file with a shorter name, which is the same file only if there are links between them. Without
links, the names of different input files differ, and then not all of them can be loaded.
-/

namespace CilLoader

open CilLoader.Configuration

namespace Identity

end Identity

namespace Context

variable {built system : FileSystem} {config : Configuration} {context after : Context}
  {inputs references : List Path} {modules : List Module}

/-! ## Where requests lead -/

section

variable [ExecutableParser]

/-! ## Asking for names one after another -/

/-- The module is answered when the file of the entry is asked for by its name. -/
def Answers (entry : String × AssemblyFile) (module : Module) : Prop :=
  foldName (Identity.simpleNameOf entry.2.name) = foldName module.simpleName

end

open scoped Container

end Context

end CilLoader
