import CilLoader.Error
import CilLoader.Text.Blank
import CilLoader.Text.Cut
import CilLoader.Text.Number

/-!
# Assembly versions

A version has four parts of 16 bits. Its text may leave out the last two, which are then zero.
-/

namespace CilLoader

structure Version where
  major : UInt16
  minor : UInt16
  build : UInt16
  revision : UInt16
deriving DecidableEq, Repr

namespace Version

def zero : Version :=
  ⟨0, 0, 0, 0⟩

instance : Inhabited Version :=
  ⟨zero⟩

def parts (version : Version) : List Nat :=
  [version.major.toNat, version.minor.toNat, version.build.toNat, version.revision.toNat]

/-- The version with the given parts, missing ones being zero. There must be two, three or four. -/
def ofParts? : List Nat → Option Version
  | [major, minor] => some ⟨UInt16.ofNat major, UInt16.ofNat minor, 0, 0⟩
  | [major, minor, build] => some ⟨UInt16.ofNat major, UInt16.ofNat minor, UInt16.ofNat build, 0⟩
  | [major, minor, build, revision] =>
    some ⟨UInt16.ofNat major, UInt16.ofNat minor, UInt16.ofNat build, UInt16.ofNat revision⟩
  | _ => none

/-- Reads the text of a version, which may have blanks around it. -/
def parse? (text : List Char) : Option Version := do
  let parts ← (Text.cut '.' (Blank.trim text)).mapM Number.readWord?
  ofParts? parts

/-- Reads the text of a version; the error shows the text as it was given. -/
def parse (text : List Char) : Except Error Version :=
  match parse? text with
  | some version => .ok version
  | none => .error (.malformed (.assemblyVersion (String.ofList text)))

def text (version : Version) : String :=
  String.intercalate "." (version.parts.map toString)

end Version

end CilLoader
