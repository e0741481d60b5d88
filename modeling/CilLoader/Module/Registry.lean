import CilLoader.Module

/-!
# The registry of modules

The modules that have been loaded, by number and by folded name. A name belongs to the first module
that is committed under it. Committing the same file again answers the module that is there already;
another file with the same name is rejected.
-/

namespace CilLoader

inductive Commit where
  | inserted (module : Module)
  | existing (module : Module)
deriving DecidableEq, Repr

def Commit.module : Commit → Module
  | inserted module => module
  | existing module => module

def Commit.isInserted : Commit → Bool
  | inserted _ => true
  | existing _ => false

structure Registry where
  /-- The modules in ascending order of their numbers. -/
  byId : List Module
  /-- The modules under their folded names. -/
  byName : List (String × Module)
deriving DecidableEq, Repr

namespace Registry

def empty : Registry :=
  ⟨[], []⟩

/-- The module whose name agrees with a name but for case. -/
def getByName? (registry : Registry) (name : String) : Option Module :=
  registry.byName.lookup (foldName name)

def get? (registry : Registry) (id : ModuleId) : Option Module :=
  registry.byId.find? (·.id == id)

/-- The module with the smallest number among those that were loaded from a path. -/
def findByPath? (registry : Registry) (path : Path) : Option Module :=
  registry.byId.find? (·.path.same path)

def modules (registry : Registry) : List Module :=
  registry.byId

def size (registry : Registry) : Nat :=
  registry.byId.length

def insertById (module : Module) : List Module → List Module
  | [] => [module]
  | other :: others =>
    if module.id < other.id then module :: other :: others
    else other :: insertById module others

def insert (registry : Registry) (module : Module) : Registry where
  byId := insertById module registry.byId
  byName := (foldName module.simpleName, module) :: registry.byName

/-- Commits a module, unless its name is taken. -/
def commit (registry : Registry) (module : Module) : Except Error Commit × Registry :=
  match registry.getByName? module.simpleName with
  | none => (.ok (.inserted module), registry.insert module)
  | some existing =>
    if existing.path.same module.path then (.ok (.existing existing), registry)
    else
      (.error (.duplicateSimpleName module.simpleName existing.path module.path), registry)

end Registry

end CilLoader
