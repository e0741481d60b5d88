import CilLoader.Stream.Header

/-!
# The metadata root

Metadata starts with a signature, the version of the runtime it was made for, and the headers of
its streams. Every stream lies inside the data.
-/

namespace CilLoader

structure MetadataRoot where
  major : Nat
  minor : Nat
  version : String
  flags : Nat
  streams : List StreamHeader
deriving DecidableEq, Repr

namespace MetadataRoot

/-- The signature, which spells `BSJB`. -/
def magic : Nat := 0x424A5342

def streamLimit : Nat := 8

def readHeaders (data : Bytes) : (count : Nat) → (position : Nat) →
    Except Error (List StreamHeader)
  | 0, _ => .ok []
  | count + 1, position =>
    if data.size ≤ position then .error .outOfBounds
    else do
      let header ← StreamHeader.read data position
      if UInt32.size ≤ header.offset + header.size then
        .error (.malformed (.streamExtent header.offset header.size))
      else if data.size < header.offset + header.size then .error .outOfBounds
      else
        let rest ← readHeaders data count (position + header.headerSize)
        return header :: rest

def read (data : Bytes) : Except Error MetadataRoot :=
  if data.size < 20 then .error .outOfBounds
  else if data.number 0 4 ≠ magic then .error (.malformed (.metadataMagic (data.number 0 4)))
  else
    let versionEnd := 16 + data.number 12 4
    if data.size < versionEnd + 4 then .error .outOfBounds
    else
      let version := (data.slice 16 versionEnd).toList.takeWhile (· != 0)
      let count := data.number (versionEnd + 2) 2
      if count = 0 ∨ streamLimit < count then .error (.malformed (.streamCount count))
      else do
        let streams ← readHeaders data count (versionEnd + 4)
        return {
          major := data.number 4 2
          minor := data.number 6 2
          version := StreamHeader.textOf version
          flags := data.number versionEnd 2
          streams }

def stream? (root : MetadataRoot) (name : String) : Option StreamHeader :=
  root.streams.find? (·.name == name)

end MetadataRoot

end CilLoader
