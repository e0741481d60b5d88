import CilLoader.Context
import CilLoader.Symbols.PortablePdb

/-!
# Loading modules

A module is found by the simple name of its assembly: among the modules that are loaded, then among
the input files, then among the reference files. It can also be loaded from a path. Symbols are
looked for once a module has been registered, and never make loading fail.
-/

namespace CilLoader

variable [ExecutableParser]

namespace Action

/-- Opens an image and notes its path, even if it cannot be opened. -/
def openImage (path : Path) : Action Image := do
  modify fun context => { context with opened := path :: context.opened }
  let data ← ofExcept ((← fileSystem).read path)
  ofExcept (Image.ofBytes path data)

def makeModule (image : Image) (expected : Option String) : Action Module := do
  let module ← ofExcept (Module.ofImage (← context).nextId image expected)
  modify fun context => { context with nextId := context.nextId + 1 }
  return module

def commit (module : Module) : Action Commit :=
  fun _ context =>
    let (result, registry) := context.registry.commit module
    (result, { context with registry })

/-- Looks for symbols in the image beside the image at a path. Damaged symbols are ignored. -/
def portablePdbFor (image : Path) : Action (Option Symbols) :=
  fun system context =>
    let path := PortablePdb.pathFor image
    if !system.isFile path then (.ok none, context)
    else
      let read := do PortablePdb.ofMetadata (← openImage path).metadata |> ofExcept
      match read system context with
      | (.ok pdb, context) => (.ok (some pdb.symbols), context)
      | (.error _, context) => (.ok none, context)

def symbolsFor (image : Path) : Action (Option Symbols) := do
  let config := (← context).config
  if config.withSymbols then
    match config.symbolSource with
    | .portablePdb => portablePdbFor image
    | .supplied symbols => return symbols image
  else return none

def attachSymbols (module : Module) : Action Unit := do
  let found ← symbolsFor module.path
  modify fun context => { context with symbols := context.symbols ++ [(module.id, found)] }

def addModule (path : Path) (expected : Option String) : Action Module := do
  let path ← ofExcept ((← fileSystem).canonicalize path)
  let image ← openImage path
  match ← commit (← makeModule image expected) with
  | .inserted module =>
    attachSymbols module
    return module
  | .existing module => return module

/-- The module that a display name asks for, unless there is no file for its name. -/
def tryResolveAssembly (name : String) : Action (Option Module) := do
  let simpleName := Identity.simpleNameOf name
  match (← context).registry.getByName? simpleName with
  | some module => return some module
  | none =>
    match (← context).config.source? simpleName with
    | none => return none
    | some file => return some (← addModule file.path (some simpleName))

def resolveAssembly (name : String) : Action Module := do
  match ← tryResolveAssembly name with
  | some module => return module
  | none => fail (.assemblyNotFound (Identity.simpleNameOf name))

/-- The module at a path, loaded unless it is there already. -/
def resolveModuleByPath (path : Path) : Action Module := do
  let path ← ofExcept ((← fileSystem).canonicalize path)
  match (← context).registry.findByPath? path with
  | some module => return module
  | none => addModule path none

/-- Loads all input files. Answers their modules in ascending order of their numbers. -/
def preloadInputs : Action (List Module) := do
  let modules ← (← context).config.inputs.mapM fun (_, file) => resolveAssembly file.name
  return modules.mergeSort fun left right => left.id ≤ right.id

/-- Makes a module of the image at a path without registering it. -/
def loadDetached (path : Path) : Action Module := do
  let data ← ofExcept ((← fileSystem).read path)
  makeModule (← ofExcept (Image.ofBytes path data)) none

end Action

end CilLoader
