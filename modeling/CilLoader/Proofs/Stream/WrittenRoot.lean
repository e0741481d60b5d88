import CilLoader.Metadata
import CilLoader.Proofs.Bytes.Recovery
import CilLoader.Proofs.Strict.Operations

/-!
# Written metadata roots

The root of some metadata, as it is written: the signature, the version of the runtime with zero
bytes behind it, the headers of the streams, and the streams one after the other. Where a header
starts depends on the names before it, and where a stream starts on all headers and on the streams
before it. Whatever stands behind the last stream, the root is read back, and each header leads to
its stream.
-/

namespace CilLoader

namespace Latin1

/-- The text has a byte for each of its characters, none of which is zero. -/
def Writable (text : String) : Prop :=
  ∀ character ∈ text.toList, character ≠ '\x00' ∧ character.toNat < 0x100

instance (text : String) : Decidable (Writable text) :=
  List.decidableBAll (fun character => character ≠ '\x00' ∧ character.toNat < 0x100) text.toList

def encode (text : String) : List UInt8 :=
  text.toList.map fun character => UInt8.ofNat character.toNat

variable {text : String}

theorem textOf_encode (writable : Writable text) :
    StreamHeader.textOf (encode text) = text := by
  have same : text.toList.map
      ((fun byte : UInt8 => Char.ofNat byte.toNat) ∘ fun character => UInt8.ofNat character.toNat) =
        text.toList.map id := by
    apply List.map_congr_left
    intro character member
    rw [Function.comp_apply, UInt8.toNat_ofNat_of_lt' (writable character member).2,
      Char.ofNat_toNat, id]
  rw [StreamHeader.textOf, encode, List.map_map, same, List.map_id, String.ofList_toList]

/-- The text ends at the first zero byte. -/
theorem takeWhile_encode (writable : Writable text) {rest : List UInt8}
    (ended : rest.takeWhile (· != 0) = []) :
    (encode text ++ rest).takeWhile (· != 0) = encode text := by
  rw [List.takeWhile_append_of_pos, ended, List.append_nil]
  intro byte listed
  rcases List.mem_map.mp listed with ⟨character, member, rfl⟩
  rcases writable character member with ⟨nonzero, small⟩
  rw [bne_iff_ne]
  intro zero
  apply nonzero
  have sameNumber := congrArg UInt8.toNat zero
  rw [UInt8.toNat_ofNat_of_lt' small] at sameNumber
  exact Char.toNat_inj.mp sameNumber

end Latin1

/-! ## Headers -/

namespace StreamHeader

/-- A name with zero bytes behind it, at least one and up to a multiple of four bytes. -/
def encodeName (name : String) : List UInt8 :=
  Latin1.encode name ++ List.replicate (4 - name.length % 4) 0

def encode (header : StreamHeader) : List UInt8 :=
  Bytes.ofNumber 4 header.offset ++ Bytes.ofNumber 4 header.size ++ encodeName header.name

/-- The stream is one that is known, and it ends where a position can still be written. -/
structure Fits (header : StreamHeader) : Prop where
  named : header.name ∈ names
  addressable : header.offset + header.size < UInt32.size

instance (header : StreamHeader) : Decidable header.Fits :=
  decidable_of_iff (header.name ∈ names ∧ header.offset + header.size < UInt32.size)
    ⟨fun ⟨named, addressable⟩ => ⟨named, addressable⟩,
      fun fits => ⟨fits.named, fits.addressable⟩⟩

variable {header : StreamHeader} {data : Bytes} {position : Nat}

theorem length_encode (header : StreamHeader) :
    header.encode.length = 8 + (encodeName header.name).length := by
  simp only [encode, List.length_append, Bytes.length_ofNumber]

/-- A known name takes as many bytes as are skipped for it. -/
theorem length_encode_eq_headerSize (named : header.name ∈ names) :
    header.encode.length = header.headerSize := by
  have sizes : ∀ name ∈ names, (encodeName name).length = (name.utf8ByteSize + 4) / 4 * 4 := by
    decide +kernel
  rw [length_encode, sizes header.name named, headerSize]

/-- The bytes that are looked at for a name hold the name and a zero behind it. -/
theorem exists_window (named : header.name ∈ names)
    (holds : data.HoldsAt position (encodeName header.name)) :
    ∃ rest, (data.slice position (position + nameLimit)).toList =
      Latin1.encode header.name ++ 0 :: rest := by
  have short : ∀ name ∈ names, (Latin1.encode name).length < nameLimit := by decide +kernel
  rcases holds.exists_drop with ⟨rest, behind⟩
  rcases Nat.exists_eq_add_of_lt (short header.name named) with ⟨left, limit⟩
  have padded : 4 - header.name.length % 4 ≠ 0 := by omega
  rcases Nat.exists_eq_succ_of_ne_zero padded with ⟨more, zeros⟩
  rw [Bytes.toList_slice, behind, Nat.add_sub_cancel_left, limit, encodeName, zeros,
    List.append_assoc, Nat.add_assoc, List.take_length_add_append]
  exact ⟨_, rfl⟩

/-- A header is read wherever it stands. -/
theorem read_of_holdsAt (fits : header.Fits) (holds : data.HoldsAt position header.encode) :
    read data position = .ok header := by
  have writable : ∀ name ∈ names, Latin1.Writable name := by decide +kernel
  have longEnough : position + 9 ≤ data.size := by
    have inside := holds.le_size
    rw [length_encode_eq_headerSize fits.named, headerSize] at inside
    omega
  have addressable := fits.addressable
  rw [UInt32.size] at addressable
  rw [encode, Bytes.holdsAt_append, Bytes.holdsAt_append, List.length_append,
    Bytes.length_ofNumber, Bytes.length_ofNumber] at holds
  rcases holds with ⟨⟨holdsOffset, holdsSize⟩, holdsName⟩
  have offset : data.number position 4 = header.offset :=
    Bytes.number_of_holdsAt holdsOffset (by simp only [Bytes.limit]; omega)
  have size : data.number (position + 4) 4 = header.size :=
    Bytes.number_of_holdsAt holdsSize (by simp only [Bytes.limit]; omega)
  rcases exists_window fits.named holdsName with ⟨rest, window⟩
  have name : textOf ((Latin1.encode header.name ++ 0 :: rest).takeWhile (· != 0)) =
      header.name := by
    rw [Latin1.takeWhile_encode (writable header.name fits.named) rfl,
      Latin1.textOf_encode (writable header.name fits.named)]
  have terminated : (Latin1.encode header.name ++ 0 :: rest).all (· != 0) = false := by simp
  rw [read, if_neg (Nat.not_lt.mpr longEnough)]
  simp only [window, name, terminated, Bool.false_eq_true, if_false, offset, size,
    if_pos fits.named]

end StreamHeader

namespace MetadataRoot

/-- The headers of streams that lie inside the data are read one after the other. -/
theorem readHeaders_of_holdsAt {data : Bytes} {position : Nat} {headers : List StreamHeader}
    (fits : ∀ header ∈ headers, header.Fits)
    (inside : ∀ header ∈ headers, header.offset + header.size ≤ data.size)
    (holds : data.HoldsAt position (headers.flatMap StreamHeader.encode)) :
    readHeaders data headers.length position = .ok headers := by
  induction headers generalizing position with
  | nil => rfl
  | cons header headers induction =>
      rw [List.flatMap_cons, Bytes.holdsAt_append] at holds
      have fitsHeader := fits header List.mem_cons_self
      have addressable : ¬UInt32.size ≤ header.offset + header.size :=
        Nat.not_le.mpr fitsHeader.addressable
      have insideHeader : ¬data.size < header.offset + header.size :=
        Nat.not_lt.mpr (inside header List.mem_cons_self)
      have sameSize := StreamHeader.length_encode_eq_headerSize fitsHeader.named
      have started : ¬data.size ≤ position := by
        have inside := holds.1.le_size
        rw [sameSize, StreamHeader.headerSize] at inside
        omega
      have rest := induction (fun other member => fits other (List.mem_cons_of_mem header member))
        (fun other member => inside other (List.mem_cons_of_mem header member))
        (sameSize ▸ holds.2)
      rw [List.length_cons, readHeaders, if_neg started,
        StreamHeader.read_of_holdsAt fitsHeader holds.1, Error.ok_bind, if_neg addressable,
        if_neg insideHeader, rest, Error.ok_bind]
      rfl

end MetadataRoot

/-! ## Roots -/

structure StreamContents where
  name : String
  body : List UInt8
deriving DecidableEq, Repr

structure RootContents where
  major : UInt16
  minor : UInt16
  /-- A field that is not used. -/
  reserved : UInt32
  version : String
  /-- How many zero bytes stand behind the version. -/
  padding : Nat
  flags : UInt16
  streams : List StreamContents
deriving DecidableEq, Repr

namespace RootContents

/-- The headers of streams that stand one after the other from a position on. -/
def headersFrom : (position : Nat) → List StreamContents → List StreamHeader
  | _, [] => []
  | position, stream :: streams =>
    ⟨position, stream.body.length, stream.name⟩ ::
      headersFrom (position + stream.body.length) streams

variable (contents : RootContents)

def encodeVersion : List UInt8 :=
  Latin1.encode contents.version ++ List.replicate contents.padding 0

/-- Everything in front of the headers. -/
def start : List UInt8 :=
  [0x42, 0x53, 0x4A, 0x42] ++ Bytes.ofNumber 2 contents.major.toNat ++
    Bytes.ofNumber 2 contents.minor.toNat ++ Bytes.ofNumber 4 contents.reserved.toNat ++
    Bytes.ofNumber 4 contents.encodeVersion.length ++ contents.encodeVersion ++
    Bytes.ofNumber 2 contents.flags.toNat ++ Bytes.ofNumber 2 contents.streams.length

/-- Where the first stream starts: behind the headers of all streams. -/
def streamsStart : Nat :=
  contents.start.length +
    Bytes.total
      (contents.streams.map fun stream => 8 + (StreamHeader.encodeName stream.name).length)

def headers : List StreamHeader :=
  headersFrom contents.streamsStart contents.streams

def encode (trailing : List UInt8) : Bytes :=
  (contents.start ++ contents.headers.flatMap StreamHeader.encode ++
    contents.streams.flatMap (·.body) ++ trailing).toArray

/-- The root as it is to be read. -/
def root : MetadataRoot where
  major := contents.major.toNat
  minor := contents.minor.toNat
  version := contents.version
  flags := contents.flags.toNat
  streams := contents.headers

/-- There are one to eight streams, all of which are known and end below the limit of 32 bits. -/
structure Fits : Prop where
  version : Latin1.Writable contents.version
  someStreams : contents.streams ≠ []
  fewStreams : contents.streams.length ≤ MetadataRoot.streamLimit
  headers : ∀ header ∈ contents.headers, header.Fits

variable {contents : RootContents}

/-! ## Where the streams stand -/

theorem length_headersFrom (position : Nat) (streams : List StreamContents) :
    (headersFrom position streams).length = streams.length := by
  induction streams generalizing position with
  | nil => rfl
  | cons stream streams induction =>
      rw [headersFrom, List.length_cons, List.length_cons, induction]

theorem length_flatMap_encode (position : Nat) (streams : List StreamContents) :
    ((headersFrom position streams).flatMap StreamHeader.encode).length =
      Bytes.total (streams.map fun stream => 8 + (StreamHeader.encodeName stream.name).length) := by
  induction streams generalizing position with
  | nil => rfl
  | cons stream streams induction =>
      rw [headersFrom, List.flatMap_cons, List.length_append, StreamHeader.length_encode,
        induction, List.map_cons, Bytes.total]

/-- The headers lead to the streams. -/
theorem streamBytes_headersFrom {data : Bytes} {position : Nat} {streams : List StreamContents}
    (holds : data.HoldsAt position (streams.flatMap (·.body))) :
    (headersFrom position streams).map
        (fun header => (header.name, Metadata.streamBytes data header)) =
      streams.map fun stream => (stream.name, stream.body.toArray) := by
  induction streams generalizing position with
  | nil => rfl
  | cons stream streams induction =>
      rw [List.flatMap_cons, Bytes.holdsAt_append] at holds
      rw [headersFrom, List.map_cons, induction holds.2, Metadata.streamBytes, holds.1.slice_eq,
        List.map_cons]

theorem end_le_of_mem_headersFrom {data : Bytes} {position : Nat}
    {streams : List StreamContents} (holds : data.HoldsAt position (streams.flatMap (·.body))) :
    ∀ header ∈ headersFrom position streams, header.offset + header.size ≤ data.size := by
  induction streams generalizing position with
  | nil => exact fun header member => absurd member List.not_mem_nil
  | cons stream streams induction =>
      rw [List.flatMap_cons, Bytes.holdsAt_append] at holds
      intro header member
      rcases List.mem_cons.mp member with rfl | member
      · exact holds.1.le_size
      · exact induction holds.2 header member

/-! ## Reading -/

theorem length_start (contents : RootContents) :
    contents.start.length = 16 + contents.encodeVersion.length + 4 := by
  simp only [start, List.length_append, Bytes.length_ofNumber, List.length_cons, List.length_nil]

theorem holdsAt_encode (contents : RootContents) (trailing : List UInt8) :
    let data := contents.encode trailing
    data.HoldsAt 0 contents.start ∧
      data.HoldsAt contents.start.length (contents.headers.flatMap StreamHeader.encode) ∧
      data.HoldsAt contents.streamsStart (contents.streams.flatMap (·.body)) := by
  intro data
  have whole := Bytes.holdsAt_toArray [] (contents.start ++
    contents.headers.flatMap StreamHeader.encode ++ contents.streams.flatMap (·.body) ++ trailing)
  rw [List.nil_append, List.length_nil] at whole
  rcases (Bytes.holdsAt_append.mp whole).imp_left fun rest =>
      (Bytes.holdsAt_append.mp rest).imp_left Bytes.holdsAt_append.mp with
      ⟨⟨⟨holdsStart, holdsHeaders⟩, holdsStreams⟩, _⟩
  rw [Nat.zero_add] at holdsHeaders
  rw [Nat.zero_add, List.length_append, headers, length_flatMap_encode] at holdsStreams
  exact ⟨holdsStart, holdsHeaders, holdsStreams⟩

/-- The length of the version can be written, because the streams come after it. -/
theorem length_encodeVersion_lt (fits : contents.Fits) :
    contents.encodeVersion.length < UInt32.size := by
  cases written : contents.streams with
  | nil => exact absurd written fits.someStreams
  | cons stream streams =>
      have first : ⟨contents.streamsStart, stream.body.length, stream.name⟩ ∈ contents.headers := by
        rw [RootContents.headers, written, headersFrom]
        exact List.mem_cons_self
      have addressable : contents.streamsStart + stream.body.length < UInt32.size :=
        (fits.headers _ first).addressable
      rw [streamsStart, length_start] at addressable
      omega

/-- What is written in front of the headers, as it is read. -/
theorem start_encode (fits : contents.Fits) (trailing : List UInt8) :
    let data := contents.encode trailing
    let versionEnd := 16 + contents.encodeVersion.length
    data.number 0 4 = MetadataRoot.magic ∧ data.number 4 2 = contents.major.toNat ∧
      data.number 6 2 = contents.minor.toNat ∧
      data.number 12 4 = contents.encodeVersion.length ∧
      StreamHeader.textOf ((data.slice 16 versionEnd).toList.takeWhile (· != 0)) =
        contents.version ∧
      data.number versionEnd 2 = contents.flags.toNat ∧
      data.number (versionEnd + 2) 2 = contents.streams.length := by
  intro data versionEnd
  have holds := (holdsAt_encode contents trailing).1
  simp only [start, Bytes.holdsAt_append, List.length_append, Bytes.length_ofNumber,
    List.length_cons, List.length_nil, Nat.reduceAdd, Nat.zero_add] at holds
  rcases holds with ⟨⟨⟨⟨⟨⟨⟨signature, major⟩, minor⟩, _⟩, length⟩, version⟩, flags⟩, count⟩
  have few : contents.streams.length < Bytes.limit 2 :=
    Nat.lt_of_le_of_lt fits.fewStreams (by decide)
  refine ⟨Bytes.number_of_holdsAt signature (by decide),
    Bytes.number_of_holdsAt major contents.major.toNat_lt,
    Bytes.number_of_holdsAt minor contents.minor.toNat_lt,
    Bytes.number_of_holdsAt length (length_encodeVersion_lt fits), ?_,
    Bytes.number_of_holdsAt flags contents.flags.toNat_lt, Bytes.number_of_holdsAt count few⟩
  have padding : (List.replicate contents.padding (0 : UInt8)).takeWhile (· != 0) = [] := by
    rw [List.takeWhile_replicate]
    rfl
  have slice : (data.slice 16 versionEnd).toList = contents.encodeVersion :=
    congrArg Array.toList version.slice_eq
  rw [slice, encodeVersion, Latin1.takeWhile_encode fits.version padding,
    Latin1.textOf_encode fits.version]

theorem read_encode_eq_root (fits : contents.Fits) (trailing : List UInt8) :
    MetadataRoot.read (contents.encode trailing) = .ok contents.root := by
  rcases start_encode fits trailing with ⟨magic, major, minor, length, version, flags, count⟩
  rcases holdsAt_encode contents trailing with ⟨holdsStart, holdsHeaders, holdsStreams⟩
  have sameCount : contents.streams.length = contents.headers.length :=
    (length_headersFrom contents.streamsStart contents.streams).symm
  have headersRead := MetadataRoot.readHeaders_of_holdsAt fits.headers
    (end_le_of_mem_headersFrom holdsStreams) holdsHeaders
  have inside := holdsStart.le_size
  rw [length_start] at inside headersRead
  have fewStreams : ¬(contents.streams.length = 0 ∨
      MetadataRoot.streamLimit < contents.streams.length) := by
    have some := List.length_pos_iff.mpr fits.someStreams
    have few := fits.fewStreams
    omega
  rw [MetadataRoot.read, if_neg (by omega)]
  simp only [magic, major, minor, length, version, flags, count]
  rw [if_neg (not_not_intro rfl), if_neg (by omega), if_neg fewStreams, sameCount, headersRead]
  rfl

/-- A root that was written is read, whatever bytes stand behind the last stream. It has the version
and the headers that were written, in their order, and each header leads to its stream. The header
that is found for a name is the first one with that name. -/
theorem read_root (fits : contents.Fits) (trailing : List UInt8) :
    ∃ root, MetadataRoot.read (contents.encode trailing) = .ok root ∧
      root.major = contents.major.toNat ∧ root.minor = contents.minor.toNat ∧
      root.version = contents.version ∧ root.flags = contents.flags.toNat ∧
      root.streams = contents.headers ∧
      root.streams.map
          (fun header => (header.name, Metadata.streamBytes (contents.encode trailing) header)) =
        contents.streams.map (fun stream => (stream.name, stream.body.toArray)) ∧
      ∀ name header, root.stream? name = some header ↔
        header.name = name ∧ ∃ before after, root.streams = before ++ header :: after ∧
          ∀ other ∈ before, other.name ≠ name := by
  refine ⟨contents.root, read_encode_eq_root fits trailing, rfl, rfl, rfl, rfl, rfl,
    streamBytes_headersFrom (holdsAt_encode contents trailing).2.2, ?_⟩
  intro name header
  rw [MetadataRoot.stream?, List.find?_eq_some_iff_append]
  simp

/-- Two streams have one name, and one of them is empty. -/
def repeatedStreams : RootContents where
  major := 1
  minor := 1
  reserved := 0
  version := "v4.0é"
  padding := 3
  flags := 2
  streams := [⟨"#~", [1, 2, 3]⟩, ⟨"#Strings", []⟩, ⟨"#~", [4]⟩]

theorem read_root_repeatedStreams :
    repeatedStreams.Fits ∧ ∃ root,
      MetadataRoot.read (repeatedStreams.encode [0xFF]) = .ok root ∧ root.version = "v4.0é" ∧
        root.stream? "#~" = some ⟨72, 3, "#~"⟩ ∧
        Metadata.streamBytes (repeatedStreams.encode [0xFF]) ⟨72, 3, "#~"⟩ = #[1, 2, 3] := by
  have fits : repeatedStreams.Fits := {
    version := by decide +kernel
    someStreams := by decide
    fewStreams := by decide
    headers := by decide +kernel }
  rcases read_root fits [0xFF] with ⟨root, read, _, _, version, _, streams, bodies, first⟩
  refine ⟨fits, root, read, version, ?_, ?_⟩
  · rw [first, streams]
    exact ⟨rfl, [], [⟨75, 0, "#Strings"⟩, ⟨75, 1, "#~"⟩], by decide +kernel, by simp⟩
  · decide +kernel

end RootContents

end CilLoader
