import Mathlib.Data.List.Forall2
import CilLoader.Metadata.Debug
import CilLoader.Proofs.Bytes.Ensured
import CilLoader.Proofs.SequencePoint.Written
import CilLoader.Symbols.PortablePdb

/-!
# Decoded sequence points

Whatever blob the points of a method are decoded from, they stand in the order of their offsets,
no two of them share one, and each of them is either hidden or has a span that is not empty. Symbols
show these points, less those that are hidden or lie in a document that does not exist.
-/

namespace CilLoader

/-- A span that is not empty. Places in a text are in the order of their lines, then of their
columns. -/
def NonemptySpan (startLine startColumn endLine endColumn : Nat) : Prop :=
  Prod.Lex (· < ·) (· < ·) (startLine, startColumn) (endLine, endColumn)

namespace SequencePoint

/-- Whether a proper point is hidden decides what span it has. -/
theorem IsProper.span {point : SequencePoint} (proper : point.IsProper) :
    (point.isHidden = true → point.startLine = 0 ∧ point.startColumn = 0 ∧
      point.endLine = 0 ∧ point.endColumn = 0) ∧
    (point.isHidden = false →
      NonemptySpan point.startLine point.startColumn point.endLine point.endColumn) := by
  rcases proper with isHidden | visible
  · rw [isHidden]
    exact ⟨fun _ => ⟨rfl, rfl, rfl, rfl⟩, fun shown => nomatch shown⟩
  · exact ⟨fun isHidden => absurd (visible.shown.symm.trans isHidden) (by decide),
      fun _ => Prod.lex_def.mpr visible.nonempty⟩

end SequencePoint

namespace SequencePoints

open Decoder SequencePoint

/-- What can be relied on in the points of a method. -/
structure WellFormed (table : SequencePoints) : Prop where
  ascending : table.points.Pairwise (·.ilOffset < ·.ilOffset)
  hidden : ∀ point ∈ table.points, point.isHidden = true →
    point.startLine = 0 ∧ point.startColumn = 0 ∧ point.endLine = 0 ∧ point.endColumn = 0
  visible : ∀ point ∈ table.points, point.isHidden = false →
    NonemptySpan point.startLine point.startColumn point.endLine point.endColumn
  found : ∀ point ∈ table.points, table.find? point.ilOffset = some point

/-- Under distinct offsets, the search for the offset of a point cannot stop at another point. -/
theorem find?_of_mem {table : SequencePoints}
    (ascending : table.points.Pairwise (·.ilOffset < ·.ilOffset)) {point : SequencePoint}
    (member : point ∈ table.points) : table.find? point.ilOffset = some point := by
  rcases List.append_of_mem member with ⟨before, behind, points⟩
  rw [points, List.pairwise_append] at ascending
  rw [find?, List.find?_eq_some_iff_append]
  refine ⟨beq_self_eq_true _, before, behind, points, fun earlier memberBefore => ?_⟩
  have less : earlier.ilOffset < point.ilOffset :=
    ascending.2.2 earlier memberBefore point List.mem_cons_self
  simp only [Bool.not_eq_true', beq_eq_false_iff_ne]
  exact Nat.ne_of_lt less

theorem wellFormed_of_proper {table : SequencePoints}
    (ascending : table.points.Pairwise (·.ilOffset < ·.ilOffset))
    (proper : ∀ point ∈ table.points, point.IsProper) : table.WellFormed where
  ascending := ascending
  hidden point member := (proper point member).span.1
  visible point member := (proper point member).span.2
  found _ member := find?_of_mem ascending member

/-! ## What one point is -/

/-- Columns are read without a sign if the span stays on its line. -/
theorem ensures_extent : extent.Ensures fun extent => extent.1 = 0 → 0 ≤ extent.2 := by
  refine ensures_bind fun lines => ?_
  split
  case isTrue => exact ensures_bind fun columns => ensures_succeed fun _ => Int.natCast_nonneg _
  case isFalse otherLine =>
    exact ensures_bind fun columns => ensures_succeed fun sameLine => absurd sameLine otherLine

theorem isVisible_of_visiblePoint {ilOffset document lines : Nat} {columns : Int}
    {start : Nat × Nat} {point : SequencePoint} (forward : lines = 0 → 0 ≤ columns)
    (extended : ¬(lines = 0 ∧ columns = 0))
    (made : visiblePoint ilOffset document start (lines, columns) = .ok point) :
    point.IsVisible ∧ point.ilOffset = ilOffset ∧ point.document = document ∧
      (point.startLine, point.startColumn) = start := by
  rcases start with ⟨line, column⟩
  dsimp only [visiblePoint] at made
  split at made
  case isTrue => cases made
  case isFalse endLine =>
    split at made
    case isTrue => cases made
    case isFalse startColumn =>
      split at made
      case isTrue => cases made
      case isFalse endColumn =>
        cases made
        have endColumnBound : ((column : Int) + columns).toNat < UInt16.size := by
          rw [UInt16.size]
          omega
        exact ⟨⟨rfl, by dsimp only; omega, Nat.lt_of_not_le endLine, Nat.lt_of_not_le startColumn,
          endColumnBound⟩, rfl, rfl, rfl⟩

/-- Reading a point passes a proper point at the given offset, and does nothing else. -/
theorem ensures_point (progress : Progress) (ilOffset : Nat) :
    (SequencePoints.point progress ilOffset).Ensures fun next =>
      ∃ point : SequencePoint, point.IsProper ∧ point.ilOffset = ilOffset ∧
        next = progress.passed point := by
  refine ensures_extent.bind fun (lines, columns) forward => ?_
  dsimp only at forward ⊢
  split
  case isTrue =>
    exact ensures_succeed ⟨SequencePoint.hidden ilOffset progress.document, .inl rfl, rfl, rfl⟩
  case isFalse extended =>
    refine ensures_bind fun start => ?_
    refine (ensures_ofExcept fun point made =>
      isVisible_of_visiblePoint forward extended made).bind fun point known => ?_
    rcases known with ⟨visible, sameOffset, sameDocument, sameStart⟩
    refine ensures_succeed ⟨point, .inr visible, sameOffset, ?_⟩
    have shown : ¬point.isHidden = true := by
      rw [visible.shown]
      decide
    rw [Progress.passed, startAfter, if_neg shown, sameOffset, sameDocument, sameStart]

/-! ## All points -/

/-- What holds between two records. The last offset bounds those of the points read so far. -/
structure Progress.Sound (progress : Progress) : Prop where
  proper : ∀ point ∈ progress.reversed, point.IsProper
  ascending : progress.reversed.Pairwise fun later earlier => earlier.ilOffset < later.ilOffset
  reached : ∀ point ∈ progress.reversed, ∃ ilOffset ∈ progress.ilOffset,
    point.ilOffset ≤ ilOffset

theorem Progress.Sound.passed {progress : Progress} (sound : progress.Sound)
    {point : SequencePoint} (proper : point.IsProper)
    (behind : ∀ ilOffset ∈ progress.ilOffset, ilOffset < point.ilOffset) :
    (progress.passed point).Sound := by
  have less : ∀ earlier ∈ progress.reversed, earlier.ilOffset < point.ilOffset := by
    intro earlier member
    rcases sound.reached earlier member with ⟨ilOffset, known, bound⟩
    exact Nat.lt_of_le_of_lt bound (behind ilOffset known)
  refine ⟨?_, List.pairwise_cons.mpr ⟨less, sound.ascending⟩, ?_⟩
  · intro other member
    rcases List.mem_cons.mp member with rfl | earlier
    · exact proper
    · exact sound.proper other earlier
  · intro other member
    refine ⟨point.ilOffset, rfl, ?_⟩
    rcases List.mem_cons.mp member with rfl | earlier
    · exact Nat.le_refl _
    · exact Nat.le_of_lt (less other earlier)

/-- A record either names a document, which no point depends on so far, or passes a point whose
offset is greater than the last one: an advance of zero would have named a document. -/
theorem ensures_record (progress : Progress) (sound : progress.Sound) :
    (record progress).Ensures Progress.Sound := by
  refine ensures_bind fun advance => ?_
  cases known : progress.ilOffset with
  | none =>
      refine (ensures_point progress advance).imp ?_
      rintro next ⟨point, proper, -, rfl⟩
      refine sound.passed proper fun ilOffset given => ?_
      rw [known] at given
      cases given
  | some ilOffset =>
      dsimp only
      split
      case isTrue =>
        exact ensures_bind fun document =>
          ensures_succeed ⟨sound.proper, sound.ascending, by rw [← known]; exact sound.reached⟩
      case isFalse moves =>
        split
        case isFalse => exact ensures_fail _ _
        case isTrue =>
          refine (ensures_point progress (ilOffset + advance)).imp ?_
          rintro next ⟨point, proper, sameOffset, rfl⟩
          refine sound.passed proper fun last given => ?_
          rw [known] at given
          cases given
          rw [sameOffset]
          omega

theorem Progress.Sound.wellFormed {progress : Progress} (sound : progress.Sound)
    (localSignature : Nat) :
    (⟨localSignature, progress.reversed.reverse⟩ : SequencePoints).WellFormed :=
  wellFormed_of_proper (List.pairwise_reverse.mpr sound.ascending) fun point member =>
    sound.proper point (List.mem_reverse.mp member)

theorem none_wellFormed : SequencePoints.none.WellFormed :=
  wellFormed_of_proper .nil fun _ member => nomatch member

theorem ensures_decoder (document : Nat) : (decoder document).Ensures WellFormed := by
  refine ensures_bind fun more => ?_
  cases more with
  | false => exact ensures_succeed none_wellFormed
  | true =>
      refine ensures_bind fun localSignature => ?_
      have goesOn : ∀ document : Nat, Decoder.Ensures (do
          let progress ← untilEnd record ⟨document, .none, .none, []⟩
          return (⟨localSignature, progress.reversed.reverse⟩ : SequencePoints)) WellFormed := by
        intro document
        have start : (⟨document, .none, .none, []⟩ : Progress).Sound :=
          ⟨fun _ member => (nomatch member), .nil, fun _ member => nomatch member⟩
        exact (ensures_untilEnd ensures_record start).bind fun progress sound =>
          ensures_succeed (sound.wellFormed localSignature)
      dsimp only
      split
      case isTrue => exact ensures_bind goesOn
      case isFalse => exact ensures_bind goesOn

theorem decode_wellFormed {blob : Bytes} {document : Nat} {table : SequencePoints}
    (decoded : decode blob document = .ok table) : table.WellFormed :=
  (ensures_decoder document).run decoded

end SequencePoints

theorem Metadata.sequencePoints_wellFormed {metadata : Metadata} {method : Nat}
    {table : SequencePoints} (decoded : metadata.sequencePoints method = .ok table) :
    table.WellFormed := by
  rw [sequencePoints] at decoded
  split at decoded
  case h_1 =>
    cases decoded
    exact SequencePoints.none_wellFormed
  case h_2 row found =>
    cases blob : metadata.blob row.sequencePoints with
    | error error =>
        rw [blob] at decoded
        cases decoded
    | ok blob =>
        rw [blob] at decoded
        exact SequencePoints.decode_wellFormed decoded

namespace PortablePdb

/-- What symbols show for a point: its offset and span, and the name of its document. -/
structure Shows (pdb : PortablePdb) (point : SequencePoint) (shown : SourcePoint) : Prop where
  ilOffset : shown.ilOffset = point.ilOffset
  start : (shown.startLine, shown.startColumn) = (point.startLine, point.startColumn)
  stop : (shown.endLine, shown.endColumn) = (point.endLine, point.endColumn)
  document : pdb.document? point.document = some shown.document

theorem shows_of_sourcePoint? {pdb : PortablePdb} {point : SequencePoint} {shown : SourcePoint}
    (found : pdb.sourcePoint? point = some shown) : pdb.Shows point shown := by
  rcases Option.map_eq_some_iff.mp found with ⟨document, known, rfl⟩
  exact ⟨rfl, rfl, rfl, known⟩

def hasDocument (pdb : PortablePdb) (point : SequencePoint) : Bool :=
  (pdb.document? point.document).isSome

theorem forall₂_shows (pdb : PortablePdb) (points : List SequencePoint) :
    List.Forall₂ pdb.Shows (points.filter pdb.hasDocument) (points.filterMap pdb.sourcePoint?) := by
  induction points with
  | nil => exact .nil
  | cons point points induction =>
      cases found : pdb.sourcePoint? point with
      | none =>
          have unknown : pdb.hasDocument point = false := by
            rw [hasDocument, Option.map_eq_none_iff.mp found]
            rfl
          rwa [List.filterMap_cons_none found, List.filter_cons_of_neg (by simp [unknown])]
      | some shown =>
          have shows := shows_of_sourcePoint? found
          have known : pdb.hasDocument point = true := by
            rw [hasDocument, shows.document]
            rfl
          rw [List.filterMap_cons_some found, List.filter_cons_of_pos known]
          exact .cons shows induction

/-- What can be relied on in the points that symbols show for a method. -/
structure Orderly (points : List SourcePoint) : Prop where
  ascending : points.Pairwise (·.ilOffset < ·.ilOffset)
  nonempty : ∀ point ∈ points,
    NonemptySpan point.startLine point.startColumn point.endLine point.endColumn

theorem orderly_nil : Orderly [] :=
  ⟨.nil, fun _ member => nomatch member⟩

/-- The points that symbols show are some of those of a well-formed table, in the same order. -/
theorem orderly_sourcePoints (pdb : PortablePdb) {table : SequencePoints}
    (wellFormed : table.WellFormed) : Orderly (table.visible.filterMap pdb.sourcePoint?) := by
  constructor
  · refine List.Pairwise.filterMap pdb.sourcePoint? ?_ (wellFormed.ascending.filter (!·.isHidden))
    intro point later less shown foundShown shownLater foundLater
    rw [(shows_of_sourcePoint? foundShown).ilOffset, (shows_of_sourcePoint? foundLater).ilOffset]
    exact less
  · intro shown member
    rcases List.mem_filterMap.mp member with ⟨point, visible, found⟩
    rcases List.mem_filter.mp visible with ⟨memberPoint, isShown⟩
    have shows := shows_of_sourcePoint? found
    rw [NonemptySpan, shows.start, shows.stop]
    exact wellFormed.visible point memberPoint ((Bool.not_eq_true' _).mp isShown)

theorem points_of_decoded (pdb : PortablePdb) {method : Token} {rid : Nat} {table : SequencePoints}
    (isMethod : methodRow? method = some rid)
    (decoded : pdb.metadata.sequencePoints rid = .ok table) :
    pdb.points method = table.visible.filterMap pdb.sourcePoint? := by
  rw [points, isMethod]
  dsimp only
  rw [decoded]

theorem points_cases (pdb : PortablePdb) (method : Token) :
    pdb.points method = [] ∨ ∃ rid table, methodRow? method = some rid ∧
      pdb.metadata.sequencePoints rid = .ok table := by
  cases isMethod : methodRow? method with
  | none =>
      rw [points, isMethod]
      exact .inl rfl
  | some rid =>
      cases decoded : pdb.metadata.sequencePoints rid with
      | error error =>
          rw [points, isMethod]
          dsimp only
          rw [decoded]
          exact .inl rfl
      | ok table => exact .inr ⟨rid, table, rfl, decoded⟩

theorem orderly_points (pdb : PortablePdb) (method : Token) : Orderly (pdb.points method) := by
  rcases pdb.points_cases method with noPoints | ⟨rid, table, isMethod, decoded⟩
  · rw [noPoints]
    exact orderly_nil
  · rw [pdb.points_of_decoded isMethod decoded]
    exact pdb.orderly_sourcePoints (Metadata.sequencePoints_wellFormed decoded)

end PortablePdb

namespace SequencePoints

/-- No blob can make the points of a method come out of order, or with an empty span. So symbols
cannot show such points either, whatever image they are read from: they show the visible ones of the
points that are decoded, in this order, as far as their documents exist. -/
theorem decoded_points_wellFormed :
    (∀ (blob : Bytes) (document : Nat) (table : SequencePoints),
      decode blob document = .ok table → table.WellFormed) ∧
    ∀ (pdb : PortablePdb) (method : Token),
      PortablePdb.Orderly (pdb.points method) ∧
      (∀ rid table, PortablePdb.methodRow? method = some rid →
        pdb.metadata.sequencePoints rid = .ok table →
          List.Forall₂ pdb.Shows (table.visible.filter pdb.hasDocument) (pdb.points method)) ∧
      (pdb.points method ≠ [] → ∃ rid table, PortablePdb.methodRow? method = some rid ∧
        pdb.metadata.sequencePoints rid = .ok table) := by
  refine ⟨fun _ _ _ decoded => decode_wellFormed decoded, fun pdb method => ?_⟩
  refine ⟨pdb.orderly_points method, ?_, (pdb.points_cases method).resolve_left⟩
  intro rid table isMethod decoded
  rw [pdb.points_of_decoded isMethod decoded]
  exact pdb.forall₂_shows table.visible

/-- A visible point, then in another document a hidden point and a visible one that ends further
left than it starts. -/
def otherDocument : SequencePoints where
  localSignature := 2
  points := [⟨0, 1, 10, 2, 10, 7, false⟩, .hidden 4 3, ⟨7, 3, 12, 6, 14, 3, false⟩]

def otherDocumentBlob : Bytes :=
  #[2, 1, 0, 0, 5, 10, 2, 0, 3, 4, 0, 0, 3, 2, 0x7B, 4, 8]

/-- Debug symbols with one document, whose name is `/a`, and one method, which has these points. -/
def otherDocumentSymbols : Bytes :=
  #[
    -- the root
    0x42, 0x53, 0x4A, 0x42, 1, 0, 1, 0, 0, 0, 0, 0, 0, 0, 0, 0, 0, 0, 3, 0,
    -- the headers of the streams
    0x40, 0, 0, 0, 0x20, 0, 0, 0, 0x23, 0x50, 0x64, 0x62, 0, 0, 0, 0,
    0x60, 0, 0, 0, 0x2C, 0, 0, 0, 0x23, 0x7E, 0, 0,
    0x8C, 0, 0, 0, 0x19, 0, 0, 0, 0x23, 0x42, 0x6C, 0x6F, 0x62, 0, 0, 0] ++
  -- neither an entry point nor tables of types
  Array.replicate 32 0 ++
  #[
    -- the tables, with their sizes and rows
    0, 0, 0, 0, 2, 0, 0, 1, 0, 0, 0, 0, 0, 0, 3, 0, 0, 0, 0, 0, 0, 0, 0, 0, 1, 0, 0, 0, 1, 0, 0, 0,
    1, 0, 0, 0, 0, 0, 0, 0,
    0, 0, 7, 0,
    -- the blobs: the name, its only part, and the points
    0, 3, 0x2F, 0, 5, 1, 0x61, 17] ++
  otherDocumentBlob

theorem decoded_points_wellFormed_otherDocument :
    decode otherDocumentBlob 0 = .ok otherDocument ∧ otherDocument.WellFormed ∧
    ∃ pdb : PortablePdb,
      (Metadata.read otherDocumentSymbols >>= PortablePdb.ofMetadata) = .ok pdb ∧
      pdb.points ⟨0x06000001⟩ = [⟨0, "/a", 10, 2, 10, 7⟩] ∧
      PortablePdb.Orderly (pdb.points ⟨0x06000001⟩) ∧
      List.Forall₂ pdb.Shows (otherDocument.visible.filter pdb.hasDocument)
        (pdb.points ⟨0x06000001⟩) := by
  have decoded : decode otherDocumentBlob 0 = .ok otherDocument := by decide +kernel
  refine ⟨decoded, decoded_points_wellFormed.1 otherDocumentBlob 0 otherDocument decoded, ?_⟩
  have readable : (Metadata.read otherDocumentSymbols >>= PortablePdb.ofMetadata).toOption.any
      (fun pdb => pdb.points ⟨0x06000001⟩ = [⟨0, "/a", 10, 2, 10, 7⟩] ∧
        pdb.metadata.sequencePoints 1 = .ok otherDocument) = true := by
    decide +kernel
  cases found : Metadata.read otherDocumentSymbols >>= PortablePdb.ofMetadata with
  | error error =>
      rw [found] at readable
      cases readable
  | ok pdb =>
      rw [found] at readable
      obtain ⟨points, ofMethod⟩ := of_decide_eq_true readable
      rcases decoded_points_wellFormed.2 pdb ⟨0x06000001⟩ with ⟨orderly, shows, _⟩
      exact ⟨pdb, rfl, points, orderly, shows 1 otherDocument (by decide) ofMethod⟩

end SequencePoints

end CilLoader
