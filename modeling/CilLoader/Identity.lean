import CilLoader.Identity.StrongName
import CilLoader.Identity.Version

/-!
# Assembly identities

An assembly is identified by its simple name, its version, its culture and its strong name. The
parts come from a row of metadata or from a display name such as
`System.Runtime, Version=8.0.0.0, Culture=neutral, PublicKeyToken=b03f5f7f11d50a3a`, in which the
components after the name may stand in any order and unknown ones are passed over.
-/

namespace CilLoader

structure Identity where
  name : String
  version : Version
  /-- No culture means that the assembly is neutral. -/
  culture : Option String
  strongName : Option StrongName
deriving DecidableEq, Repr

namespace Identity

def ofRow (name : String) (version : Version) (culture : String) (key : Bytes)
    (isFullKey : Bool) : Identity where
  name := name
  version := version
  culture := if culture = "" ∨ culture = "neutral" then none else some culture
  strongName := StrongName.ofBlob? key isFullKey

/-- Takes one component of a display name into account. A repeated component replaces what the
earlier one said, except that a null token says nothing. -/
def addComponent (identity : Identity) (component : List Char) : Except Error Identity :=
  match Text.cutOnce? '=' component with
  | none => .ok identity
  | some (key, value) =>
    let key := Blank.trim key
    let value := Blank.trim value
    if key = "Version".toList then do
      let version ← Version.parse value
      return { identity with version }
    else if key = "Culture".toList then
      let culture :=
        if Text.sameLetters value "neutral".toList then none else some (String.ofList value)
      .ok { identity with culture }
    else if key = "PublicKeyToken".toList && !Text.sameLetters value "null".toList then do
      let keyToken ← KeyToken.parse value
      return { identity with strongName := some (.token keyToken) }
    else
      .ok identity

def parse (text : String) : Except Error Identity :=
  match (Text.cut ',' text.toList).map Blank.trim with
  | [] | [] :: _ => .error (.malformed .emptyAssemblyName)
  | name :: components =>
    let start : Identity :=
      { name := String.ofList name, version := .zero, culture := none, strongName := none }
    components.foldlM addComponent start

/-- The part of a display name before the first comma. -/
def simpleNameOf (text : String) : String :=
  String.ofList (Blank.trim (text.toList.takeWhile (· != ',')))

def displayName [KeyDigest] (identity : Identity) : String :=
  let keyToken :=
    match identity.strongName with
    | some strongName => strongName.keyToken.text
    | none => "null"
  identity.name ++ ", Version=" ++ identity.version.text ++ ", Culture=" ++
    identity.culture.getD "neutral" ++ ", PublicKeyToken=" ++ keyToken

end Identity

end CilLoader
