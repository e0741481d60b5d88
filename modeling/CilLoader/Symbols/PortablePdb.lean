import CilLoader.Image
import CilLoader.Symbols

/-!
# Symbols in portable PDB images

The symbols of an image can stand beside it, in an image of their own that consists of metadata
only. It refers to methods by their row in the image it describes. Symbols are a convenience:
damaged ones count as absent.
-/

namespace CilLoader

structure PortablePdb where
  metadata : Metadata
  documents : List String
deriving DecidableEq, Repr

namespace PortablePdb

def pathFor (image : Path) : Path :=
  image.withExtension "pdb"

/-- Takes metadata as symbols. It must be marked as such, and all document names must be intact. -/
def ofMetadata (metadata : Metadata) : Except Error PortablePdb :=
  if metadata.pdb.isNone then .error .notSupported
  else do
    let documents ← (List.range (metadata.rowCount .document)).mapM fun index =>
      metadata.documentName (index + 1)
    return { metadata, documents }

def methodRow? (method : Token) : Option Nat :=
  if method.table = TableId.methodDef.number ∧ !method.isNull then some method.row else none

/-- The name of a document by its row, counted from one. -/
def document? (pdb : PortablePdb) (rid : Nat) : Option String :=
  if rid = 0 then none else pdb.documents[rid - 1]?

/-- The source point of a sequence point, if its document exists. -/
def sourcePoint? (pdb : PortablePdb) (point : SequencePoint) : Option SourcePoint :=
  (pdb.document? point.document).map fun document => {
    ilOffset := point.ilOffset
    document
    startLine := point.startLine
    startColumn := point.startColumn
    endLine := point.endLine
    endColumn := point.endColumn }

def points (pdb : PortablePdb) (method : Token) : List SourcePoint :=
  match methodRow? method with
  | none => []
  | some rid =>
    match pdb.metadata.sequencePoints rid with
    | .ok table => table.visible.filterMap pdb.sourcePoint?
    | .error _ => []

/-- A variable with its name. A damaged name is shown as empty. -/
def localVariable (pdb : PortablePdb) (row : LocalVariableRow) : LocalVariable where
  slot := row.slot
  name := (pdb.metadata.string row.name).toOption.getD ""
  isGenerated := LocalVariableAttributes.isHidden row.attributes

def locals (pdb : PortablePdb) (method : Token) : List LocalVariable :=
  match methodRow? method with
  | none => []
  | some rid =>
    (pdb.metadata.localScopes rid).flatMap fun scope =>
      (pdb.metadata.localVariables scope.rid).map pdb.localVariable

def symbols (pdb : PortablePdb) : Symbols where
  points := pdb.points
  locals := pdb.locals

end PortablePdb

end CilLoader
