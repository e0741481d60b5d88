import CilLoader.FileSystem
import CilLoader.Module
import CilLoader.Symbols
import CilLoader.TypeDesc

/-!
# Configuration

Which files a context may load, by the folded stem of their names, and what it takes from outside:
symbols, field layouts and runtime interfaces. Each name belongs to one input file. Of several
reference files with one name, the first counts.
-/

namespace CilLoader

/-- A file that may hold an assembly, and the name that its file name suggests. -/
structure AssemblyFile where
  name : String
  path : Path
deriving DecidableEq, Repr

structure FieldLayout where
  size : Nat
  alignment : Nat
  offsets : List (Token × Nat)
deriving DecidableEq, Repr

inductive SymbolSource where
  /-- From portable PDB images beside the images. -/
  | portablePdb
  /-- From outside, by the path of the image. -/
  | supplied (symbols : Path → Option Symbols)

/-- How the runtime interfaces of definitions and instantiations are found. -/
inductive InterfaceSource where
  | metadata
  | supplied (interfaces : TypeDesc → Except Error (List TypeDesc))

structure Configuration where
  inputs : List (String × AssemblyFile)
  references : List (String × AssemblyFile)
  withSymbols : Bool
  symbolSource : SymbolSource
  layout : Option (TypeDesc → Except Error FieldLayout)
  interfaceSource : InterfaceSource

namespace Configuration

/-- No files, symbols from beside the images, and no field layout yet. -/
def initial : Configuration where
  inputs := []
  references := []
  withSymbols := true
  symbolSource := .portablePdb
  layout := none
  interfaceSource := .metadata

def assemblyFile (system : FileSystem) (path : Path) : Except Error AssemblyFile :=
  if !system.isFile path then .error (.configuration (.inputMissing path))
  else
    match path.fileStem? with
    | none => .error (.configuration (.nameUnderivable path))
    | some name => do return { name, path := ← system.canonicalize path }

def addFile (files : List (String × AssemblyFile)) (file : AssemblyFile) :
    List (String × AssemblyFile) :=
  files ++ [(foldName file.name, file)]

/-- Adds an input file. Its name must not be taken by another one. -/
def addInput (config : Configuration) (system : FileSystem) (path : Path) :
    Except Error Configuration := do
  let file ← assemblyFile system path
  match config.inputs.lookup (foldName file.name) with
  | some existing =>
    .error (.configuration (.inputDuplicated file.name existing.path file.path))
  | none => return { config with inputs := addFile config.inputs file }

def addInputs (config : Configuration) (system : FileSystem) (paths : List Path) :
    Except Error Configuration :=
  paths.foldlM (fun config path => config.addInput system path) config

/-- Offers a reference file, which is ignored if its name is taken. -/
def offerReference (config : Configuration) (file : AssemblyFile) : Configuration :=
  match config.references.lookup (foldName file.name) with
  | some _ => config
  | none => { config with references := addFile config.references file }

def addReference (config : Configuration) (system : FileSystem) (path : Path) :
    Except Error Configuration := do
  return config.offerReference (← assemblyFile system path)

def isAssemblyPath (path : Path) : Bool :=
  match path.extension? with
  | none => false
  | some extension =>
    Text.sameLetters extension.toList "dll".toList ||
      Text.sameLetters extension.toList "exe".toList

/-- Adds the assemblies in a directory as reference files, in order of their names. -/
def addReferenceDirectory (config : Configuration) (system : FileSystem) (path : Path) :
    Except Error Configuration :=
  if !system.isDirectory path then .error (.configuration (.referenceDirectoryMissing path))
  else do
    let paths ← system.list path
    let assemblies := paths.filter fun path => isAssemblyPath path && system.isFile path
    assemblies.foldlM (fun config path => config.addReference system path) config

def input? (config : Configuration) (name : String) : Option AssemblyFile :=
  config.inputs.lookup (foldName name)

def reference? (config : Configuration) (name : String) : Option AssemblyFile :=
  config.references.lookup (foldName name)

/-- The file to load for a name: an input file if there is one. -/
def source? (config : Configuration) (name : String) : Option AssemblyFile :=
  config.input? name <|> config.reference? name

end Configuration

end CilLoader
