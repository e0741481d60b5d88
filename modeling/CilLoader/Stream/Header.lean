import CilLoader.Bytes.Decoder

/-!
# Stream headers

The streams of metadata are announced by headers: the position and size of the stream and its name,
which ends in a zero byte and is filled up to a multiple of four bytes.
-/

namespace CilLoader

structure StreamHeader where
  offset : Nat
  size : Nat
  name : String
deriving DecidableEq, Repr

namespace StreamHeader

def names : List String :=
  ["#Strings", "#US", "#Blob", "#GUID", "#~", "#-", "#Pdb"]

/-- How many bytes of a name are looked at. -/
def nameLimit : Nat := 32

/-- The characters with the code points of some bytes. -/
def textOf (bytes : List UInt8) : String :=
  String.ofList (bytes.map fun byte => Char.ofNat byte.toNat)

def read (data : Bytes) (position : Nat) : Except Error StreamHeader :=
  if data.size < position + 9 then .error .outOfBounds
  else
    let window := (data.slice (position + 8) (position + 8 + nameLimit)).toList
    let name := textOf (window.takeWhile (· != 0))
    if window.all (· != 0) then .error (.malformed (.streamNameUnterminated name))
    else if name ∈ names then .ok ⟨data.number position 4, data.number (position + 4) 4, name⟩
    else .error (.malformed (.streamNameUnknown name))

def headerSize (header : StreamHeader) : Nat :=
  8 + (header.name.utf8ByteSize + 4) / 4 * 4

end StreamHeader

end CilLoader
