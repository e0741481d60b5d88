import CilLoader.Bytes.Compressed

/-!
# Sequence points

A sequence point maps an offset in the code of a method to a span of a source document. A hidden
point maps it to no source. The points of a method are stored as a chain of differences: each
record advances the code offset and gives the extent of the span, and the start of the span as a
difference to that of the last visible point. A record that does not advance names a new document.
-/

namespace CilLoader

structure SequencePoint where
  ilOffset : Nat
  document : Nat
  startLine : Nat
  startColumn : Nat
  endLine : Nat
  endColumn : Nat
  isHidden : Bool
deriving DecidableEq, Repr

namespace SequencePoint

def hidden (ilOffset document : Nat) : SequencePoint :=
  ⟨ilOffset, document, 0, 0, 0, 0, true⟩

end SequencePoint

/-- The sequence points of a method and the row of the signature of its local variables. -/
structure SequencePoints where
  localSignature : Nat
  points : List SequencePoint
deriving DecidableEq, Repr

namespace SequencePoints

def none : SequencePoints :=
  ⟨0, []⟩

def find? (table : SequencePoints) (ilOffset : Nat) : Option SequencePoint :=
  table.points.find? (·.ilOffset == ilOffset)

def visible (table : SequencePoints) : List SequencePoint :=
  table.points.filter (!·.isHidden)

/-- What is known between two records. -/
structure Progress where
  document : Nat
  ilOffset : Option Nat
  /-- The start of the last visible span, if there is one. -/
  start : Option (Nat × Nat)
  /-- The points read so far, the last one first. -/
  reversed : List SequencePoint
deriving DecidableEq, Repr

open Decoder

/-- The lines and columns that a span extends over. Columns can only go back when lines go on. -/
def extent : Decoder (Nat × Int) := do
  let lines ← compressed
  if lines = 0 then return (lines, (← compressed : Nat))
  else return (lines, ← compressedSigned)

def moved (value : Nat) : Decoder Nat := do
  let delta ← compressedSigned
  let target := (value : Int) + delta
  if 0 ≤ target ∧ target < 0x100000000 then return target.toNat
  else fail (.malformed (.pointDelta value delta))

/-- The start of a span: absolute for the first one, relative to the last one after that. -/
def spanStart : (last : Option (Nat × Nat)) → Decoder (Nat × Nat)
  | .none => do return (← compressed, ← compressed)
  | some (line, column) => do return (← moved line, ← moved column)

/-- The visible point with the given start and extent. Lines have 32 bits and columns have 16. -/
def visiblePoint (ilOffset document : Nat) (start : Nat × Nat) (extent : Nat × Int) :
    Except Error SequencePoint :=
  let (line, column) := start
  let endLine := line + extent.1
  let endColumn := (column : Int) + extent.2
  if UInt32.size ≤ endLine then .error (.malformed .endLineOverflow)
  else if UInt16.size ≤ column then .error (.malformed (.startColumn column))
  else if endColumn < 0 ∨ 0x10000 ≤ endColumn then .error (.malformed (.endColumn endColumn))
  else .ok ⟨ilOffset, document, line, column, endLine, endColumn.toNat, false⟩

def point (progress : Progress) (ilOffset : Nat) : Decoder Progress := do
  let (lines, columns) ← extent
  if lines = 0 ∧ columns = 0 then
    let point := SequencePoint.hidden ilOffset progress.document
    return { progress with ilOffset := some ilOffset, reversed := point :: progress.reversed }
  else
    let start ← spanStart progress.start
    let point ← ofExcept (visiblePoint ilOffset progress.document start (lines, columns))
    return {
      document := progress.document
      ilOffset := some ilOffset
      start := some start
      reversed := point :: progress.reversed }

def record (progress : Progress) : Decoder Progress := do
  let advance ← compressed
  match progress.ilOffset with
  | .none => point progress advance
  | some ilOffset =>
    if advance = 0 then
      let document ← compressed
      return { progress with document }
    else if ilOffset + advance < UInt32.size then point progress (ilOffset + advance)
    else fail (.malformed .ilOffsetOverflow)

/-- Reads the points of a method. The document comes from the row of the method, or stands in
front of the records if the row gives none. -/
def decoder (document : Nat) : Decoder SequencePoints := do
  if ← hasMore then
    let localSignature ← compressed
    let document ← if document = 0 then compressed else succeed document
    let progress ← untilEnd record ⟨document, .none, .none, []⟩
    return ⟨localSignature, progress.reversed.reverse⟩
  else return SequencePoints.none

def decode (blob : Bytes) (document : Nat) : Except Error SequencePoints :=
  (decoder document).run blob

end SequencePoints

end CilLoader
