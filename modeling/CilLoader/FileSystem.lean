import CilLoader.Bytes
import CilLoader.Error

/-!
# File systems

The files that images are loaded from, as a value. A place in a file system is the list of names on
the way from the root. A path leads to a place if every name on its way exists and everything before
its end is a directory; a separator or a dot at its end also asks for a directory. A symbolic link
stands for the path that is its target, seen from the directory that the link is in, and is followed
wherever it is on the way, at its end too.
-/

namespace CilLoader

/-- The names on the way from the root. -/
abbrev Place := List (List Char)

structure FileSystem where
  files : List (Place × Bytes)
  /-- The directories apart from the root. -/
  directories : List Place
  /-- The targets of symbolic links, by the place of the link. -/
  links : List (Place × Path) := []
deriving DecidableEq, Repr

namespace FileSystem

def empty : FileSystem :=
  ⟨[], [], []⟩

def fileAt? (system : FileSystem) (place : Place) : Option Bytes :=
  system.files.lookup place

def hasDirectory (system : FileSystem) (place : Place) : Bool :=
  place.isEmpty || system.directories.contains place

def linkAt? (system : FileSystem) (place : Place) : Option Path :=
  system.links.lookup place

/-- How many links are followed for one path. -/
def maxLinks : Nat := 40

/-- Takes the parts of a path one by one, as far as the first link. There the target of the link is
put in front of the parts ahead, and `jump` goes on from the place that the target starts at. -/
def walk (system : FileSystem) (jump : Place → List (List Char) → Except Error Place)
    (place : Place) : List (List Char) → Except Error Place
  | [] => .ok place
  | part :: parts =>
    if !system.hasDirectory place then .error .notADirectory
    else if part.isEmpty || part == ['.'] then walk system jump place parts
    else if part == ['.', '.'] then walk system jump place.dropLast parts
    else
      let next := place ++ [part]
      match system.linkAt? next with
      | some target => jump (if target.isAbsolute then [] else place) (target.parts ++ parts)
      | none =>
        if (system.fileAt? next).isSome || system.hasDirectory next then
          walk system jump next parts
        else .error .fileNotFound

def followWithin (system : FileSystem) :
    (links : Nat) → Place → List (List Char) → Except Error Place
  | 0 => system.walk fun _ _ => .error .tooManyLinks
  | links + 1 => system.walk (system.followWithin links)

def follow (system : FileSystem) : Place → List (List Char) → Except Error Place :=
  system.followWithin maxLinks

def find (system : FileSystem) (path : Path) : Except Error Place :=
  if path.text.isEmpty then .error .fileNotFound else system.follow [] path.parts

/-- The absolute path of a place, which has neither dots nor repeated separators. -/
def pathOf (place : Place) : Path :=
  ⟨"/" ++ String.intercalate "/" (place.map String.ofList)⟩

def canonicalize (system : FileSystem) (path : Path) : Except Error Path := do
  return pathOf (← system.find path)

def read (system : FileSystem) (path : Path) : Except Error Bytes := do
  match system.fileAt? (← system.find path) with
  | some contents => .ok contents
  | none => .error .isADirectory

def isFile (system : FileSystem) (path : Path) : Bool :=
  match system.find path with
  | .ok place => (system.fileAt? place).isSome
  | .error _ => false

def isDirectory (system : FileSystem) (path : Path) : Bool :=
  match system.find path with
  | .ok place => system.hasDirectory place
  | .error _ => false

def nameIn? (directory place : Place) : Option String :=
  match place.getLast? with
  | some name => if place.dropLast = directory then some (String.ofList name) else none
  | none => none

/-- The places that something is at, apart from the root. -/
def places (system : FileSystem) : List Place :=
  system.files.map (·.1) ++ system.directories ++ system.links.map (·.1)

/-- The names in a directory, in ascending order. -/
def namesIn (system : FileSystem) (directory : Place) : List String :=
  (system.places.filterMap (nameIn? directory)).mergeSort fun left right => !decide (right < left)

def list (system : FileSystem) (path : Path) : Except Error (List Path) := do
  let place ← system.find path
  return (system.namesIn place).map path.join

/-- Adds a directory and everything above it. -/
def addDirectory (system : FileSystem) (place : Place) : FileSystem where
  files := system.files
  directories :=
    (List.range place.length).foldl
      (fun directories length =>
        let prefixPlace := place.take (length + 1)
        if directories.contains prefixPlace then directories else directories ++ [prefixPlace])
      system.directories
  links := system.links

/-- Removes the file or the link at a place. -/
def remove (system : FileSystem) (place : Place) : FileSystem where
  files := system.files.filter fun file => file.1 ≠ place
  directories := system.directories
  links := system.links.filter fun link => link.1 ≠ place

/-- Puts a file at a place, in the stead of the file or the link that may be there. -/
def write (system : FileSystem) (place : Place) (contents : Bytes) : FileSystem :=
  let system := (system.remove place).addDirectory place.dropLast
  { system with files := system.files ++ [(place, contents)] }

end FileSystem

end CilLoader
