import CilLoader.Proofs.Strict.Decoders
import CilLoader.Stream.Root

/-!
# Strict reading of the metadata root

The root of metadata and the headers of its streams, read with strict slices and sums. No data make
the strict reader fault, and it finds what the reader finds: headers of streams that lie inside the
data and end below the range of 32-bit words.
-/

namespace CilLoader

/-- The stream lies inside the data, and its end is a word of 32 bits. -/
def StreamHeader.Inside (header : StreamHeader) (data : Bytes) : Prop :=
  header.offset + header.size < UInt32.size ∧ header.offset + header.size ≤ data.size

theorem StreamHeader.headerSize_le_of_read {data : Bytes} {position : Nat} {header : StreamHeader}
    (found : StreamHeader.read data position = .ok header) : header.headerSize ≤ 20 := by
  have sizes : ∀ name ∈ StreamHeader.names, 8 + (name.utf8ByteSize + 4) / 4 * 4 ≤ 20 := by decide
  rw [StreamHeader.read] at found
  split at found
  · cases found
  dsimp only at found
  split at found
  · cases found
  split at found
  · rename_i known
    cases found
    exact sizes _ known
  · cases found

namespace MetadataRoot

theorem inside_of_readHeaders {data : Bytes} {count position : Nat} {headers : List StreamHeader}
    (found : readHeaders data count position = .ok headers) :
    ∀ header ∈ headers, header.Inside data := by
  induction count generalizing position headers with
  | zero =>
      cases found
      exact List.forall_mem_nil _
  | succ count induction =>
      rw [readHeaders] at found
      split at found
      · cases found
      obtain ⟨header, _, found⟩ := Error.bind_eq_ok.mp found
      split at found
      · cases found
      split at found
      · cases found
      rename_i word inside
      obtain ⟨rest, read, found⟩ := Error.bind_eq_ok.mp found
      cases found
      exact List.forall_mem_cons.mpr
        ⟨⟨Nat.not_le.mp word, Nat.not_lt.mp inside⟩, induction read⟩

theorem inside_of_read {data : Bytes} {root : MetadataRoot} (found : read data = .ok root) :
    ∀ header ∈ root.streams, header.Inside data := by
  rw [read] at found
  dsimp only at found
  split at found
  · cases found
  split at found
  · cases found
  split at found
  · cases found
  split at found
  · cases found
  obtain ⟨streams, read, found⟩ := Error.bind_eq_ok.mp found
  cases found
  exact inside_of_readHeaders read

end MetadataRoot

namespace Strict

/-- A number stored at a position, if all its bytes are there. -/
def number (data : Bytes) (position width : Nat) : Attempt Nat :=
  (Decoder.Guarded.number width).attempt data position

/-- Reads a stream header at the start of the data. -/
def header (data : Bytes) : Attempt StreamHeader :=
  if data.size < 9 then throw .outOfBounds
  else do
    let window := (← tail data 8).toList.take StreamHeader.nameLimit
    let name := StreamHeader.textOf (window.takeWhile (· != 0))
    if window.all (· != 0) then throw (.malformed (.streamNameUnterminated name))
    else if name ∈ StreamHeader.names then do
      let offset ← number data 0 4
      let size ← number (← tail data 4) 0 4
      return ⟨offset, size, name⟩
    else throw (.malformed (.streamNameUnknown name))

def headers (data : Bytes) : (count position : Nat) → Attempt (List StreamHeader)
  | 0, _ => return []
  | count + 1, position =>
    if data.size ≤ position then throw .outOfBounds
    else do
      let header ← header (← tail data position)
      if UInt32.size ≤ header.offset + header.size then
        throw (.malformed (.streamExtent header.offset header.size))
      else if data.size < header.offset + header.size then throw .outOfBounds
      else do
        let next ← fit UInt64.size (position + header.headerSize)
        let rest ← headers data count next
        return header :: rest

def root (data : Bytes) : Attempt MetadataRoot :=
  if data.size < 20 then throw .outOfBounds
  else do
    let magic ← number data 0 4
    if magic ≠ MetadataRoot.magic then throw (.malformed (.metadataMagic magic))
    else do
      let versionEnd := 16 + (← number data 12 4)
      if data.size < (← fit UInt64.size (versionEnd + 4)) then throw .outOfBounds
      else do
        let version := (← slice data 16 versionEnd).toList.takeWhile (· != 0)
        let flags ← number data versionEnd 2
        let count ← number data (versionEnd + 2) 2
        if count = 0 ∨ MetadataRoot.streamLimit < count then
          throw (.malformed (.streamCount count))
        else do
          let streams ← headers data count (versionEnd + 4)
          let major ← number (← tail data 4) 0 2
          let minor ← number (← tail data 6) 0 2
          return { major, minor, version := StreamHeader.textOf version, flags, streams }

theorem number_yields {data : Bytes} {position width : Nat}
    (inside : position + width ≤ data.size) :
    (number data position width).Yields (.ok (data.number position width)) := by
  have yields := (Decoder.Guarded.number width).attempt_yields data position
  rw [Decoder.number, if_pos inside] at yields
  exact yields

theorem number_tail_yields {data : Bytes} {start position width : Nat}
    (inside : start + position + width ≤ data.size) :
    (number (data.slice start data.size) position width).Yields
      (.ok (data.number (start + position) width)) := by
  have size := Bytes.size_tail data start
  rw [← Bytes.number_slice (Nat.le_refl _) inside]
  exact number_yields (by omega)

theorem header_yields {data : Bytes} {position : Nat} (inside : position ≤ data.size) :
    (header (data.slice position data.size)).Yields (StreamHeader.read data position) := by
  have size := Bytes.size_tail data position
  rw [header, StreamHeader.read, size]
  by_cases short : data.size < position + 9
  · rw [if_pos (by omega), if_pos short]
    exact .throw _
  · rw [if_neg (by omega), if_neg short]
    refine .step (tail_of_le (by omega)) ?_
    have window :
        ((data.slice position data.size).slice 8 (data.slice position data.size).size).toList.take
            StreamHeader.nameLimit =
          (data.slice (position + 8) (position + 8 + StreamHeader.nameLimit)).toList := by
      rw [Bytes.slice_slice (by omega), size, Nat.add_sub_cancel' inside, Bytes.toList_slice,
        Bytes.toList_slice, Nat.add_sub_cancel_left, List.take_take, List.take_eq_take_iff]
      simp
    simp only [window]
    split
    · exact .throw _
    split
    · refine .andThen (number_tail_yields (by omega)) (.step (tail_of_le (by omega)) ?_)
      rw [Bytes.slice_slice (by omega), size, Nat.add_sub_cancel' inside]
      exact .andThen (number_tail_yields (by omega)) (.pure _)
    · exact .throw _

theorem headers_yields {data : Bytes} {count position : Nat}
    (room : position + 20 * count < UInt64.size) :
    (headers data count position).Yields (MetadataRoot.readHeaders data count position) := by
  induction count generalizing position with
  | zero => exact .pure []
  | succ count induction =>
      rw [headers, MetadataRoot.readHeaders]
      split
      · exact .throw _
      refine .step (tail_of_le (by omega)) (.bind (header_yields (by omega)) fun header found => ?_)
      -- A header takes twenty bytes at most, which is what the room is measured in.
      have size := StreamHeader.headerSize_le_of_read found
      split
      · exact .throw _
      split
      · exact .throw _
      refine .step (fit_of_lt (by omega)) (.bind (induction (by omega)) fun rest _ => ?_)
      exact .pure _

theorem root_yields (data : Bytes) : (root data).Yields (MetadataRoot.read data) := by
  rw [root, MetadataRoot.read]
  dsimp only
  split
  · exact .throw _
  refine .andThen (number_yields (by omega)) ?_
  split
  · exact .throw _
  have length : data.number 12 4 < 0x100000000 := Bytes.number_lt data 12 4
  refine .andThen (number_yields (by omega)) (.step (fit_of_lt ?_) ?_)
  · exact Nat.lt_trans (by omega : _ < 0x100000000 + 20) (by decide)
  split
  · exact .throw _
  refine .step (slice_of_le (by omega) (by omega)) ?_
  refine .andThen (number_yields (by omega)) (.andThen (number_yields (by omega)) ?_)
  split
  · exact .throw _
  rename_i allowed
  have count : data.number (16 + data.number 12 4 + 2) 2 ≤ 8 := Nat.not_lt.mp (not_or.mp allowed).2
  refine .bind (headers_yields ?_) fun streams _ => ?_
  · exact Nat.lt_of_le_of_lt (by omega : _ ≤ 0x100000000 + 180) (by decide)
  refine .step (tail_of_le (by omega)) (.andThen (number_tail_yields (by omega)) ?_)
  refine .step (tail_of_le (by omega)) (.andThen (number_tail_yields (by omega)) ?_)
  exact .pure _

end Strict

end CilLoader
