import CilLoader.SequencePoint
import CilLoader.Proofs.Bytes.CompressedForms
import CilLoader.Proofs.Bytes.Rounds

/-!
# Written sequence points

How the points of a method are written: each as the difference to what comes before it. The document
is written again where it changes, and a hidden point leaves no trace in the lines and columns of
the points after it. Decoding gives back the points that were written.
-/

namespace CilLoader

open Compressed

namespace SequencePoint

/-- A point with a span that is not empty. Lines have 32 bits and columns have 16. -/
structure IsVisible (point : SequencePoint) : Prop where
  shown : point.isHidden = false
  nonempty : point.startLine < point.endLine ∨
    point.startLine = point.endLine ∧ point.startColumn < point.endColumn
  endLine : point.endLine < UInt32.size
  startColumn : point.startColumn < UInt16.size
  endColumn : point.endColumn < UInt16.size

/-- A point either is hidden and has no span, or is visible. -/
def IsProper (point : SequencePoint) : Prop :=
  point = hidden point.ilOffset point.document ∨ point.IsVisible

/-- The start of the last visible span once a point has been passed. -/
def startAfter (point : SequencePoint) (start : Option (Nat × Nat)) : Option (Nat × Nat) :=
  if point.isHidden then start else some (point.startLine, point.startColumn)

/-! ## How a point is written -/

def extentWritten (point : SequencePoint) : List UInt8 :=
  if point.startLine = point.endLine then
    encode 0 ++ encode (point.endColumn - point.startColumn)
  else
    encode (point.endLine - point.startLine) ++
      encodeSigned ((point.endColumn : Int) - point.startColumn)

/-- The first visible start is absolute, a later one relative to the one before it. -/
def startWritten (point : SequencePoint) : (start : Option (Nat × Nat)) → List UInt8
  | none => encode point.startLine ++ encode point.startColumn
  | some (line, column) =>
    encodeSigned ((point.startLine : Int) - line) ++
      encodeSigned ((point.startColumn : Int) - column)

def spanWritten (point : SequencePoint) (start : Option (Nat × Nat)) : List UInt8 :=
  if point.isHidden then encode 0 ++ encode 0
  else point.extentWritten ++ point.startWritten start

/-- A document other than the current one is announced before the point. -/
def documentWritten (point : SequencePoint) (document : Nat) : List UInt8 :=
  if point.document = document then [] else encode 0 ++ encode point.document

/-- The numbers that are written for a span are in range. The extent of columns always is. -/
def SpanFits (point : SequencePoint) : (start : Option (Nat × Nat)) → Prop
  | none =>
    Writable (point.endLine - point.startLine) ∧ Writable point.startLine ∧
      Writable point.startColumn
  | some (line, column) =>
    Writable (point.endLine - point.startLine) ∧
      SignedWritable ((point.startLine : Int) - line) ∧
      SignedWritable ((point.startColumn : Int) - column)

end SequencePoint

namespace SequencePoints

open SequencePoint

/-- The points of a method, in the current document, after some offset and some visible start. -/
def pointsWritten (document ilOffset : Nat) (start : Option (Nat × Nat)) :
    List SequencePoint → List UInt8
  | [] => []
  | point :: points =>
    point.documentWritten document ++ (encode (point.ilOffset - ilOffset) ++
      point.spanWritten start) ++
        pointsWritten point.document point.ilOffset (point.startAfter start) points

def PointsFit (ilOffset : Nat) (start : Option (Nat × Nat)) : List SequencePoint → Prop
  | [] => True
  | point :: points =>
    Compressed.Writable (point.ilOffset - ilOffset) ∧
      (point.isHidden = false → point.SpanFits start) ∧
      PointsFit point.ilOffset (point.startAfter start) points

/-- The header holds the local signature, and the document if the row of the method has none. -/
def written (table : SequencePoints) (document column : Nat) : List UInt8 :=
  encode table.localSignature ++ ((if column = 0 then encode document else []) ++
    pointsWritten document 0 .none table.points)

structure Writable (table : SequencePoints) : Prop where
  localSignature : Compressed.Writable table.localSignature
  ascending : table.points.Pairwise (·.ilOffset < ·.ilOffset)
  proper : ∀ point ∈ table.points, point.IsProper
  offsets : ∀ point ∈ table.points, point.ilOffset < UInt32.size
  documents : ∀ point ∈ table.points, Compressed.Writable point.document
  fit : PointsFit 0 .none table.points

/-! ## Reading one point -/

open Decoder

theorem recovers_encode {value : Nat} (writable : Compressed.Writable value) :
    compressed.Recovers (encode value) value :=
  recovers_compressed (form_encode writable)

theorem recovers_encodeSigned {value : Int} (writable : SignedWritable value) :
    compressedSigned.Recovers (encodeSigned value) value :=
  recovers_compressedSigned (signedForm_encodeSigned writable)

theorem recovers_extent {point : SequencePoint} (visible : point.IsVisible)
    (fits : Compressed.Writable (point.endLine - point.startLine)) :
    extent.Recovers point.extentWritten
      (point.endLine - point.startLine, (point.endColumn : Int) - point.startColumn) := by
  have endColumn := visible.endColumn
  have startColumn := visible.startColumn
  have nonempty := visible.nonempty
  rw [UInt16.size] at endColumn startColumn
  rw [extentWritten]
  split
  · have columns : Compressed.Writable (point.endColumn - point.startColumn) := by
      rw [Compressed.Writable]
      omega
    have sameLines : point.endLine - point.startLine = 0 := by omega
    have sameColumns : ((point.endColumn - point.startColumn : Nat) : Int) =
        (point.endColumn : Int) - point.startColumn := by omega
    rw [sameLines, ← sameColumns]
    exact (recovers_encode (by decide)).bind
      ((recovers_encode columns).map fun columns : Nat => (0, (columns : Int)))
  · have columns : SignedWritable ((point.endColumn : Int) - point.startColumn) := by
      rw [SignedWritable]
      omega
    have otherLines : point.endLine - point.startLine ≠ 0 := by omega
    refine (recovers_encode fits).bind ?_
    rw [if_neg otherLines]
    exact (recovers_encodeSigned columns).map (point.endLine - point.startLine, ·)

theorem recovers_moved {value target : Nat} (bound : target < UInt32.size)
    (fits : SignedWritable ((target : Int) - value)) :
    (moved value).Recovers (encodeSigned ((target : Int) - value)) target := by
  have sum : (value : Int) + ((target : Int) - value) = target := by omega
  rw [← List.append_nil (encodeSigned _)]
  refine (recovers_encodeSigned fits).bind ?_
  simp only [sum]
  rw [if_pos (by rw [UInt32.size] at bound; omega), Int.toNat_natCast]
  exact recovers_succeed target

theorem recovers_spanStart {point : SequencePoint} {start : Option (Nat × Nat)}
    (visible : point.IsVisible) (fits : point.SpanFits start) :
    (spanStart start).Recovers (point.startWritten start) (point.startLine, point.startColumn) := by
  have startLine : point.startLine < UInt32.size := by
    have nonempty := visible.nonempty
    have endLine := visible.endLine
    omega
  have startColumn : point.startColumn < UInt32.size :=
    Nat.lt_trans visible.startColumn (by decide)
  cases start with
  | none =>
      exact (recovers_encode fits.2.1).bind
        ((recovers_encode fits.2.2).map (point.startLine, ·))
  | some last =>
      exact (recovers_moved startLine fits.2.1).bind
        ((recovers_moved startColumn fits.2.2).map (point.startLine, ·))

theorem visiblePoint_eq {point : SequencePoint} (visible : point.IsVisible) :
    visiblePoint point.ilOffset point.document (point.startLine, point.startColumn)
      (point.endLine - point.startLine, (point.endColumn : Int) - point.startColumn) =
        .ok point := by
  rcases point with ⟨ilOffset, document, startLine, startColumn, endLine, endColumn, isHidden⟩
  rcases visible with ⟨shown, nonempty, endLineBound, startColumnBound, endColumnBound⟩
  simp only at shown nonempty endLineBound startColumnBound endColumnBound
  have line : startLine + (endLine - startLine) = endLine := by omega
  have column : (startColumn : Int) + ((endColumn : Int) - startColumn) = endColumn := by omega
  have inside : ¬((endColumn : Int) < 0 ∨ 0x10000 ≤ (endColumn : Int)) := by
    rw [UInt16.size] at endColumnBound
    omega
  simp only [visiblePoint, line, column, shown]
  rw [if_neg (by omega), if_neg (by omega), if_neg inside, Int.toNat_natCast]

/-- What is known once a point has been passed. -/
def Progress.passed (progress : Progress) (point : SequencePoint) : Progress where
  document := point.document
  ilOffset := some point.ilOffset
  start := point.startAfter progress.start
  reversed := point :: progress.reversed

theorem recovers_point {point : SequencePoint} {progress : Progress} (proper : point.IsProper)
    (fits : point.isHidden = false → point.SpanFits progress.start)
    (sameDocument : progress.document = point.document) :
    (SequencePoints.point progress point.ilOffset).Recovers (point.spanWritten progress.start)
      (progress.passed point) := by
  rw [SequencePoints.point, spanWritten]
  rcases proper with hidden | visible
  · have isHidden : point.isHidden = true := by
      rw [hidden]
      rfl
    have nothing : extent.Recovers (encode 0 ++ encode 0) (0, 0) :=
      (recovers_encode (by decide)).bind
        ((recovers_encode (by decide)).map fun columns : Nat => (0, (columns : Int)))
    have samePoint : progress.passed point =
        { progress with
          ilOffset := some point.ilOffset
          reversed := SequencePoint.hidden point.ilOffset progress.document ::
            progress.reversed } := by
      rw [Progress.passed, startAfter, if_pos isHidden, sameDocument, ← hidden]
    rw [if_pos isHidden, samePoint, ← List.append_nil (encode 0 ++ encode 0)]
    exact nothing.bind (recovers_succeed _)
  · have isShown : ¬point.isHidden = true := by
      rw [visible.shown]
      decide
    have spanFits := fits visible.shown
    have someExtent : ¬(point.endLine - point.startLine = 0 ∧
        (point.endColumn : Int) - point.startColumn = 0) := by
      have nonempty := visible.nonempty
      omega
    have lines : Compressed.Writable (point.endLine - point.startLine) := by
      cases start : progress.start <;> rw [start] at spanFits <;> exact spanFits.1
    rw [if_neg isShown]
    refine (recovers_extent visible lines).bind ?_
    simp only [if_neg someExtent, sameDocument]
    rw [← List.append_nil (point.startWritten _)]
    refine (recovers_spanStart visible spanFits).bind ?_
    have passed : progress.passed point =
        { document := point.document
          ilOffset := some point.ilOffset
          start := some (point.startLine, point.startColumn)
          reversed := point :: progress.reversed } := by
      rw [Progress.passed, startAfter, if_neg isShown]
    rw [passed, ← List.append_nil []]
    exact (recovers_ofExcept (visiblePoint_eq visible)).bind (recovers_succeed _)

/-! ## Reading all points -/

/-- Where the offset of the next point is counted from. -/
def Progress.origin (progress : Progress) : Nat :=
  progress.ilOffset.getD 0

/-- The point may come next. -/
structure Progress.Admits (progress : Progress) (point : SequencePoint) : Prop where
  proper : point.IsProper
  ascending : ∀ ilOffset ∈ progress.ilOffset, ilOffset < point.ilOffset
  offset : point.ilOffset < UInt32.size
  advance : Compressed.Writable (point.ilOffset - progress.origin)
  document : Compressed.Writable point.document
  span : point.isHidden = false → point.SpanFits progress.start

theorem recovers_record_point {point : SequencePoint} {progress : Progress}
    (admits : progress.Admits point) (sameDocument : progress.document = point.document) :
    (record progress).Recovers
      (encode (point.ilOffset - progress.origin) ++ point.spanWritten progress.start)
      (progress.passed point) := by
  have recovers := recovers_point admits.proper admits.span sameDocument
  refine (recovers_encode admits.advance).bind ?_
  cases known : progress.ilOffset with
  | none =>
      simpa only [Progress.origin, known, Option.getD_none, Nat.sub_zero] using recovers
  | some ilOffset =>
      have later := admits.ascending ilOffset known
      have offset := admits.offset
      -- An advance of zero would announce a document.
      have moves : point.ilOffset - ilOffset ≠ 0 := by omega
      have target : ilOffset + (point.ilOffset - ilOffset) = point.ilOffset := by omega
      simp only [Progress.origin, known, Option.getD_some, if_neg moves, target]
      rw [if_pos offset]
      exact recovers

theorem recovers_record_document {document ilOffset : Nat} {progress : Progress}
    (writable : Compressed.Writable document) (known : progress.ilOffset = some ilOffset) :
    (record progress).Recovers (encode 0 ++ encode document) { progress with document } := by
  rcases progress with ⟨current, _, start, reversed⟩
  cases known
  refine (recovers_encode (by decide)).bind ?_
  exact (recovers_encode writable).map fun document =>
    (⟨document, some ilOffset, start, reversed⟩ : Progress)

theorem encode_append_ne_nil (value : Nat) (written : List UInt8) : encode value ++ written ≠ [] :=
  List.cons_ne_nil _ _

/-- A point is read in one round, or in two if its document is announced. Only the first point is
never announced, since the document is known from the header. -/
theorem rounds_point {point : SequencePoint} {progress : Progress}
    (admits : progress.Admits point)
    (first : progress.ilOffset = .none → point.document = progress.document) :
    Rounds record progress
      (point.documentWritten progress.document ++
        (encode (point.ilOffset - progress.origin) ++ point.spanWritten progress.start))
      (progress.passed point) := by
  rw [documentWritten]
  split
  case isTrue sameDocument =>
    rw [List.nil_append]
    exact .single (encode_append_ne_nil _ _) (recovers_record_point admits sameDocument.symm)
  case isFalse otherDocument =>
    cases known : progress.ilOffset with
    | none => exact absurd (first known) otherDocument
    | some ilOffset =>
        refine .round (encode_append_ne_nil _ _)
          (recovers_record_document admits.document known) ?_
        have announced : ({ progress with document := point.document } : Progress).Admits point :=
          ⟨admits.proper, admits.ascending, admits.offset, admits.advance, admits.document,
            admits.span⟩
        exact .single (encode_append_ne_nil _ _) (recovers_record_point announced rfl)

theorem reversed_foldl_passed (points : List SequencePoint) (progress : Progress) :
    (points.foldl Progress.passed progress).reversed = points.reverse ++ progress.reversed := by
  induction points generalizing progress with
  | nil => rfl
  | cons point points induction =>
      rw [List.foldl_cons, induction, List.reverse_cons, List.append_assoc]
      rfl

/-- The points are passed one after another. What they leave behind is what the next one is written
against. -/
theorem rounds_points {points : List SequencePoint} {progress : Progress}
    (first : progress.ilOffset = .none → ∀ point ∈ points.head?,
      point.document = progress.document)
    (above : ∀ ilOffset ∈ progress.ilOffset, ∀ point ∈ points, ilOffset < point.ilOffset)
    (ascending : points.Pairwise (·.ilOffset < ·.ilOffset))
    (proper : ∀ point ∈ points, point.IsProper)
    (offsets : ∀ point ∈ points, point.ilOffset < UInt32.size)
    (documents : ∀ point ∈ points, Compressed.Writable point.document)
    (fit : PointsFit progress.origin progress.start points) :
    Rounds record progress
      (pointsWritten progress.document progress.origin progress.start points)
      (points.foldl Progress.passed progress) := by
  induction points generalizing progress with
  | nil => exact .done progress
  | cons point points induction =>
      rcases List.pairwise_cons.mp ascending with ⟨before, ascendingRest⟩
      have admits : progress.Admits point :=
        ⟨proper point List.mem_cons_self,
          fun ilOffset known => above ilOffset known point List.mem_cons_self,
          offsets point List.mem_cons_self, fit.1, documents point List.mem_cons_self, fit.2.1⟩
      have here := rounds_point admits fun unknown => first unknown point rfl
      have others : Rounds record (progress.passed point) _ _ :=
        induction
          (by
            intro unknown
            cases unknown)
          (by
            intro ilOffset known later member
            cases known
            exact before later member)
          ascendingRest
          (fun later member => proper later (List.mem_cons_of_mem _ member))
          (fun later member => offsets later (List.mem_cons_of_mem _ member))
          (fun later member => documents later (List.mem_cons_of_mem _ member))
          fit.2.2
      exact here.trans others

/-! ## Reading back the table -/

/-- The document of the first point comes from the column of the row, or from the header if the
column is empty. -/
theorem recovers_headerDocument {document column : Nat} (named : Compressed.Writable document)
    (choice : column = 0 ∨ column = document) :
    (if column = 0 then compressed else succeed column).Recovers
      (if column = 0 then encode document else []) document := by
  split
  case isTrue => exact recovers_encode named
  case isFalse present =>
    rcases choice with absent | same
    · exact absurd absent present
    · rw [same]
      exact recovers_succeed document

/-- The decoder inverts the encoding. -/
theorem decode_written {table : SequencePoints} {document column : Nat}
    (writable : table.Writable) (first : ∀ point ∈ table.points.head?, point.document = document)
    (named : Compressed.Writable document) (choice : column = 0 ∨ column = document) :
    decode (table.written document column).toArray column = .ok table := by
  have rounds : Rounds record ⟨document, .none, .none, []⟩
      (pointsWritten document 0 .none table.points) _ :=
    rounds_points (fun _ => first)
      (by intro _ known; cases known) writable.ascending writable.proper writable.offsets
      writable.documents writable.fit
  have readPoints := rounds.recoversLast.map fun progress : Progress =>
    (⟨table.localSignature, progress.reversed.reverse⟩ : SequencePoints)
  rw [reversed_foldl_passed, List.append_nil, List.reverse_reverse] at readPoints
  -- The decoder goes on in both branches for itself. They are joined to read the document first.
  have joined : ∀ next : Nat → Decoder SequencePoints,
      (if column = 0 then compressed >>= next else succeed column >>= next) =
        (if column = 0 then compressed else succeed column) >>= next := by
    intro next
    split <;> rfl
  refine RecoversLast.run_eq (.hasMore_bind (encode_append_ne_nil _ _) ?_)
  rw [if_pos rfl]
  refine (recovers_encode writable.localSignature).bindLast ?_
  dsimp only
  rw [joined]
  exact (recovers_headerDocument named choice).bindLast readPoints

/-- Goes on in another document after a hidden point, and comes back further up. -/
def detour : SequencePoints where
  localSignature := 2
  points := [⟨0, 1, 210, 9, 212, 5, false⟩, hidden 7 1, ⟨9, 3, 40, 1, 40, 30, false⟩,
    ⟨300, 1, 200, 13, 203, 6, false⟩]

theorem decode_written_detour :
    detour.Writable ∧ decode (detour.written 1 0).toArray 0 = .ok detour ∧
      decode (detour.written 1 1).toArray 1 = .ok detour := by
  have proper : ∀ point ∈ detour.points, point.IsProper := by
    intro point member
    simp only [detour, List.mem_cons, List.not_mem_nil, or_false] at member
    rcases member with rfl | rfl | rfl | rfl
    · exact .inr ⟨rfl, by decide, by decide, by decide, by decide⟩
    · exact .inl rfl
    · exact .inr ⟨rfl, by decide, by decide, by decide, by decide⟩
    · exact .inr ⟨rfl, by decide, by decide, by decide, by decide⟩
  have fit : PointsFit 0 .none detour.points := by
    refine ⟨by decide, fun _ => ?_, by decide, fun shown => ?_, by decide, fun _ => ?_,
      by decide, fun _ => ?_, trivial⟩
    · exact (by decide : Compressed.Writable 2 ∧ Compressed.Writable 210 ∧ Compressed.Writable 9)
    · cases shown
    · exact (by decide : Compressed.Writable 0 ∧ SignedWritable (-170) ∧ SignedWritable (-8))
    · exact (by decide : Compressed.Writable 3 ∧ SignedWritable 160 ∧ SignedWritable 12)
  have writable : detour.Writable :=
    ⟨by decide, by decide, proper, by decide, by decide, fit⟩
  have first : ∀ point ∈ detour.points.head?, point.document = 1 := by decide
  exact ⟨writable, decode_written writable first (by decide) (.inl rfl),
    decode_written writable first (by decide) (.inr rfl)⟩

end SequencePoints

end CilLoader
