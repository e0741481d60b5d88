import CilLoader.Executable.Headers
import CilLoader.Text.Utf8

/-!
# The container of executable images

The parser that programs use. An executable image starts with an old header that only says where the
real ones are: a signature, the file header, an optional header with a list of directories, and the
headers of the sections. As soon as anything is missing or out of place, the image counts as
damaged. So it does if the runtime header or the start of the metadata is not among the bytes that
are actually loaded of the sections.
-/

namespace CilLoader

namespace Container

/-- How many bytes precede the directories, for each of the two formats. -/
def fixedSize? : (magic : Nat) → Option Nat
  | 0x10B => some 96
  | 0x20B => some 112
  | _ => none

def directoryLimit : Nat := 16

def runtimeDirectory : Nat := 14

/-- Reads the optional header at a position, and the alignment of the file that it gives. A
directory of zeros counts as absent. -/
def readOptional? (data : Bytes) (position : Nat) : Option (Nat × OptionalHeader) := do
  let magic ← data.number? position 2
  let size ← fixedSize? magic
  let count ← data.number? (position + size - 4) 4
  let fileAlignment ← data.number? (position + 36) 4
  if directoryLimit < count ∨ data.size < position + size + 8 * count then none
  else
    let directory := position + size + 8 * runtimeDirectory
    let isPresent := decide (runtimeDirectory < count) && data.number directory 8 != 0
    return (fileAlignment, ⟨if isPresent then some (data.number directory 4) else none⟩)

def readSections? (data : Bytes) : (count : Nat) → (position : Nat) → Option (List Section)
  | 0, _ => some []
  | count + 1, position =>
    if data.size < position + 40 then none
    else do
      let rest ← readSections? data count (position + 40)
      return {
        virtualSize := data.number (position + 8) 4
        virtualAddress := data.number (position + 12) 4
        rawSize := data.number (position + 16) 4
        rawAddress := data.number (position + 20) 4 } :: rest

/-! ## What is loaded -/

def roundUp (unit value : Nat) : Nat :=
  (value + unit - 1) / unit * unit

/-- How many bytes of a section are loaded: whole pages, but not more than is stored. -/
def loadedSize (fileAlignment : Nat) (part : Section) : Nat :=
  if part.rawSize = 0 then 0
  else
    let stored :=
      min (roundUp fileAlignment (part.rawAddress + part.rawSize) - part.rawAddress / 512 * 512)
        (roundUp 4096 part.rawSize)
    if part.virtualSize = 0 then stored else min stored (roundUp 4096 part.virtualSize)

/-- Where the byte of an address is stored, going by what is loaded of each section. -/
def loadedOffset? (fileAlignment : Nat) (parts : List Section) (address : Nat) : Option Nat :=
  if fileAlignment = 0 ∨ fileAlignment ≠ 1 <<< fileAlignment.log2 then none
  else
    let part := parts.find? fun part =>
      part.virtualAddress ≤ address &&
        address < part.virtualAddress + loadedSize fileAlignment part
    part.map (·.offsetOf address)

/-- Checks that the runtime header at an address and the start of the metadata are there. -/
def hasSoundRuntime (data : Bytes) (fileAlignment : Nat) (parts : List Section) (address : Nat) :
    Bool :=
  let offset? := loadedOffset? fileAlignment parts
  (do
    let header ← offset? address
    if data.size < header + 72 then none
    else
      let start ← offset? (data.number (header + 8) 4)
      let length ← data.number? (start + 12) 4
      let version := start + 16
      if data.size < start + data.number (header + 12) 4 then none
      else if data.size < version + length + 4 then none
      else if Utf8.isText (data.slice version (version + length)) then some ()
      else none).isSome

/-! ## Headers -/

/-- The signature `PE`, followed by two zero bytes. -/
def signature : Nat := 0x4550

def headers? (data : Bytes) : Option ExecutableHeaders := do
  if data.size < 64 then none
  else
    let start := data.number 0x3C 4
    let found ← data.number? start 4
    let header := start + 4
    if found ≠ signature ∨ start < 64 ∨ data.size < header + 20 then none
    else
      let optionalSize := data.number (header + 16) 2
      let optional ←
        if optionalSize = 0 then some none
        else (readOptional? data (header + 20)).map some
      let sectionCount := data.number (header + 2) 2
      if data.size / 40 < sectionCount then none
      else
        let sections ← readSections? data sectionCount (header + 20 + optionalSize)
        let isSound :=
          match optional with
          | some (fileAlignment, ⟨some address⟩) =>
            hasSoundRuntime data fileAlignment sections address
          | _ => true
        if isSound then return { optional := optional.map (·.2), sections } else none

scoped instance : ExecutableParser :=
  ⟨headers?⟩

end Container

end CilLoader
