import CilLoader.Executable.Headers

/-!
# Metadata in executable images

The runtime header of an executable image says where its metadata is, by an address. Addresses are
looked up in the sections of the image.
-/

namespace CilLoader

namespace Executable

def readHeaders [ExecutableParser] (data : Bytes) : Except Error ExecutableHeaders :=
  match ExecutableParser.headers? data with
  | none => .error .damagedContainer
  | some headers => .ok headers

def locateMetadata [ExecutableParser] (data : Bytes) : Except Error (Nat × Nat) := do
  let headers ← readHeaders data
  match headers.optional with
  | none => .error (.malformed .noOptionalHeader)
  | some optional =>
    match optional.runtimeHeader with
    | none => .error (.malformed .noRuntimeHeader)
    | some address =>
      let header ← Section.locate headers.sections address
      if data.size < header + 16 then .error .outOfBounds
      else
        let start := data.number (header + 8) 4
        let length := data.number (header + 12) 4
        if start = 0 ∨ length = 0 then .error (.malformed .emptyMetadataDirectory)
        else
          let offset ← Section.locate headers.sections start
          return (offset, length)

end Executable

end CilLoader
