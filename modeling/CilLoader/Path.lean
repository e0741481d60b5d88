import CilLoader.Text.Cut

/-!
# File paths

A path keeps the text it was written with, which is what messages show. What it denotes are its
components: repeated separators and inner `.` components do not count, whereas `..` does, because
the directory before it may not be what it seems. Two paths are the same when their components are.
-/

namespace CilLoader

structure Path where
  text : String
deriving DecidableEq, Repr, Inhabited

namespace Path

/-- The parts of a path between its separators, empty ones included. -/
def parts (path : Path) : List (List Char) :=
  Text.cut '/' path.text.toList

def isAbsolute (path : Path) : Bool :=
  path.text.toList.head? == some '/'

/-- The meaningful parts of a path: empty parts are dropped, and so is `.` unless a relative path
starts with it. An absolute path starts with an empty component. -/
def components (path : Path) : List (List Char) :=
  let kept := path.parts.filter fun part => !part.isEmpty && part != ['.']
  if path.isAbsolute then [] :: kept
  else if path.parts.head? == some ['.'] then ['.'] :: kept
  else kept

def same (left right : Path) : Bool :=
  left.components == right.components

@[simp]
theorem same_self (path : Path) : path.same path = true := by
  simp [same]

/-- Removes the parts at the end of a path that do not count. -/
def dropTrailing (parts : List (List Char)) : List (List Char) :=
  (parts.reverse.dropWhile fun part => part.isEmpty || part == ['.']).reverse

/-- The last component, when it names a file: neither the root nor `..`. -/
def fileName? (path : Path) : Option (List Char) :=
  match (dropTrailing path.parts).getLast? with
  | none => none
  | some name => if name = ['.', '.'] then none else some name

/-- The part of a file name before its last dot. A dot that starts the name does not count. -/
def stemOf (name : List Char) : List Char :=
  match (name.reverse.dropWhile (· != '.')).reverse with
  | [] => name
  | ['.'] => name
  | upToDot => upToDot.dropLast

/-- The part of a file name after its last dot, if it has a dot that does not start it. -/
def extensionOf? (name : List Char) : Option (List Char) :=
  match (name.reverse.dropWhile (· != '.')).reverse with
  | [] => none
  | ['.'] => none
  | upToDot => some (name.drop upToDot.length)

def fileStem? (path : Path) : Option String :=
  path.fileName?.map fun name => String.ofList (stemOf name)

def extension? (path : Path) : Option String :=
  path.fileName?.bind fun name => (extensionOf? name).map String.ofList

def join (directory : Path) (name : String) : Path :=
  if directory.text.toList.getLast? = some '/' then ⟨directory.text ++ name⟩
  else ⟨directory.text ++ "/" ++ name⟩

/-- Whether taking the extension away from the end of a path would leave it at `..`, which names no
file. That is so if the stem of the file is a single dot and nothing follows the file name. -/
def losesFileName (path : Path) (name : List Char) : Bool :=
  stemOf name == ['.'] && dropTrailing path.parts == path.parts

/-- Replaces the extension of the file that a path names. Whatever follows the file name is cut
off. A path that names no file stays as it is, and one that names none without the extension is left
without it. -/
def withExtension (path : Path) (extension : String) : Path :=
  match path.fileName? with
  | none => path
  | some name =>
    let directory := (dropTrailing path.parts).dropLast
    let file :=
      if path.losesFileName name then ".."
      else String.ofList (stemOf name) ++ "." ++ extension
    ⟨String.intercalate "/" (directory.map String.ofList ++ [file])⟩

example : (withExtension ⟨"/a/Foo.dll"⟩ "pdb").text = "/a/Foo.pdb" := by decide
example : (withExtension ⟨"/a/.Foo/."⟩ "pdb").text = "/a/.Foo.pdb" := by decide
example : (withExtension ⟨"/a/..dll"⟩ "pdb").text = "/a/.." := by decide
example : (withExtension ⟨"/a/..dll/"⟩ "pdb").text = "/a/..pdb" := by decide
example : same ⟨"/a/./x"⟩ ⟨"/a//x"⟩ = true := by decide
example : same ⟨"/a/../x"⟩ ⟨"/x"⟩ = false := by decide

end Path

end CilLoader
