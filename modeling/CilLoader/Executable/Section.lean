import CilLoader.Error

/-!
# Sections

An executable image is stored in sections, each of which is placed at an address of its own when
the image is run. Addresses inside the image have 32 bits and are counted from where it is placed.
-/

namespace CilLoader

structure Section where
  virtualAddress : Nat
  virtualSize : Nat
  /-- Where the section is stored. -/
  rawAddress : Nat
  rawSize : Nat
deriving DecidableEq, Repr

namespace Section

def covers (part : Section) (address : Nat) : Bool :=
  part.virtualAddress ≤ address && address < part.virtualAddress + part.virtualSize

/-- Where the byte of an address is stored, if it belongs to the section. -/
def offsetOf (part : Section) (address : Nat) : Nat :=
  address - part.virtualAddress + part.rawAddress

/-- Looks an address up in the sections in order. A section that does not fit the address space
ends the search. -/
def search (address : Nat) : List Section → Except Error Nat
  | [] => .error (.malformed (.addressUnmapped address))
  | part :: parts =>
    if UInt32.size ≤ part.virtualAddress + part.virtualSize then
      .error (.malformed (.sectionExtent part.virtualAddress part.virtualSize))
    else if part.covers address then .ok (part.offsetOf address)
    else search address parts

def locate (parts : List Section) (address : Nat) : Except Error Nat :=
  if UInt32.size ≤ address then .error (.malformed (.addressTooLarge address))
  else search address parts

end Section

end CilLoader
