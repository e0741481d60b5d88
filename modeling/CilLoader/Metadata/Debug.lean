import CilLoader.Metadata.Lookup
import CilLoader.SequencePoint

/-!
# Debug information

An image of debug symbols maps the code of methods to source documents and names their local
variables. The name of a document is stored in parts, since paths have much in common: a separator
and references to the parts between separators.
-/

namespace CilLoader

namespace Metadata

/-- The sequence points of a method. A method without debug information has none. -/
def sequencePoints (metadata : Metadata) (method : Nat) : Except Error SequencePoints :=
  match metadata.row? MethodDebugRow method with
  | none => .ok SequencePoints.none
  | some row => do SequencePoints.decode (← metadata.blob row.sequencePoints) row.document

/-- A part of a document name, referred to by its place in the blob heap. -/
def namePart (blobs : BlobHeap) : Decoder String := do
  let part ← Decoder.ofExcept (blobs.get (← Decoder.compressed))
  match Utf8.decode? part with
  | some text => Decoder.succeed text
  | none => Decoder.fail (.malformed .documentNameEncoding)

/-- A document name: its parts, joined by the separator. A separator of zero stands for none. -/
def documentNameDecoder (blobs : BlobHeap) : Decoder String := do
  if ← Decoder.hasMore then
    let separator ← Decoder.byte
    let reversed ← Decoder.untilEnd
      (fun parts => do return (← namePart blobs) :: parts) []
    let between := if separator = 0 then "" else String.singleton (Char.ofNat separator)
    return String.intercalate between reversed.reverse
  else return ""

def documentName (metadata : Metadata) (rid : Nat) : Except Error String := do
  let row ← metadata.requireRow DocumentRow rid
  (documentNameDecoder metadata.blobs).run (← metadata.blob row.name)

def localScopes (metadata : Metadata) (method : Nat) : List LocalScopeRow :=
  metadata.rowsWithKey (·.method) method

def localVariables (metadata : Metadata) (scope : Nat) : List LocalVariableRow :=
  match metadata.table? LocalVariableRow with
  | some table =>
    table.getAll (metadata.listRange LocalScopeRow.variableList .localVariable scope)
  | none => []

end Metadata

end CilLoader
