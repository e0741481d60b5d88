import Mathlib.Data.List.TakeWhile
import CilLoader.Identity
import CilLoader.Proofs.Text.Blanks
import CilLoader.Proofs.Text.Numbers
import CilLoader.Proofs.Text.Parts

/-!
# Written versions and key tokens

The texts that are read as versions and as key tokens. The text of a version, and that of a key
token, has no blank and no comma in it and is read as what it was made of.
-/

namespace CilLoader

/-! ## Names -/

namespace Identity

/-- As a display name, the name is nothing but the simple name. -/
structure Bare (name : String) : Prop where
  undivided : ',' ∉ name.toList
  first : ∀ character ∈ name.toList.head?, Blank.isBlank character = false
  last : ∀ character ∈ name.toList.getLast?, Blank.isBlank character = false

theorem simpleNameOf_sublist (name : String) :
    (simpleNameOf name).toList.Sublist name.toList := by
  rw [simpleNameOf, String.toList_ofList]
  exact (Blank.trim_sublist _).trans (List.takeWhile_sublist _)

theorem simpleNameOf_eq_self_iff {name : String} : simpleNameOf name = name ↔ Bare name := by
  have asLists : simpleNameOf name = name ↔
      Blank.trim (name.toList.takeWhile (· != ',')) = name.toList := by
    rw [simpleNameOf, ← String.toList_inj, String.toList_ofList]
  rw [asLists]
  constructor
  · intro same
    have undivided : name.toList.takeWhile (· != ',') = name.toList := by
      have kept := Blank.trim_sublist (name.toList.takeWhile (· != ','))
      rw [same] at kept
      exact List.Sublist.antisymm (List.takeWhile_sublist _) kept
    rw [undivided, Blank.trim_eq_self_iff] at same
    refine ⟨?_, same.1, same.2⟩
    intro comma
    have noComma := List.takeWhile_eq_self_iff.mp undivided ',' comma
    simp at noComma
  · rintro ⟨undivided, first, last⟩
    have whole : name.toList.takeWhile (· != ',') = name.toList := by
      rw [List.takeWhile_eq_self_iff]
      intro character member
      have different : character ≠ ',' := fun comma => undivided (comma ▸ member)
      simpa using different
    rw [whole, Blank.trim_eq_self_iff]
    exact ⟨first, last⟩

theorem bare_of_forall {text : String}
    (solid : ∀ character ∈ text.toList, character ≠ ',' ∧ Blank.isBlank character = false) :
    Bare text where
  undivided := fun comma => (solid ',' comma).1 rfl
  first := fun character head => (solid character (List.mem_of_mem_head? head)).2
  last := fun character last => (solid character (List.mem_of_getLast? last)).2

theorem Bare.trim_eq {text : String} (bare : Bare text) :
    Blank.trim text.toList = text.toList :=
  Blank.trim_eq_self_iff.mpr ⟨bare.first, bare.last⟩

/-- Dots, digits and letters are neither commas nor blanks. -/
theorem bare_of_range {text : String}
    (range : ∀ character ∈ text.toList, 0x2C < character.toNat ∧ character.toNat < 0x85) :
    Bare text := by
  apply bare_of_forall
  intro character member
  have bounds := range character member
  constructor
  · rintro rfl
    exact absurd bounds.1 (by decide)
  · simp [Blank.isBlank, Blank.ranges]
    omega

end Identity

/-! ## Versions -/

namespace Version

open Number

/-- Two to four numbers with dots between them. -/
def IsDotted (number : List Char → Prop) (text : List Char) : Prop :=
  ∃ parts, 2 ≤ parts.length ∧ parts.length ≤ 4 ∧ (∀ part ∈ parts, number part) ∧
    text = ['.'].intercalate parts

theorem exists_ofParts?_iff {parts : List Nat} :
    (∃ version, ofParts? parts = some version) ↔ 2 ≤ parts.length ∧ parts.length ≤ 4 := by
  rcases parts with _ | ⟨_, _ | ⟨_, _ | ⟨_, _ | ⟨_, _ | ⟨_, _⟩⟩⟩⟩⟩ <;> simp [ofParts?]

theorem exists_parse?_iff {text : List Char} :
    (∃ version, parse? text = some version) ↔ IsDotted (MaySign IsWord) (Blank.trim text) := by
  constructor
  · rintro ⟨version, read⟩
    rw [parse?, Option.bind_eq_bind, Option.bind_eq_some_iff] at read
    obtain ⟨numbers, readAll, made⟩ := read
    have count := exists_ofParts?_iff.mp ⟨version, made⟩
    have sameLength := congrArg List.length (mapM_eq_some_iff.mp readAll)
    rw [List.length_map, List.length_map] at sameLength
    rw [← sameLength] at count
    refine ⟨_, count.1, count.2, ?_, (Text.intercalate_cut '.' _).symm⟩
    intro part member
    exact exists_readWord?_iff.mp (exists_mapM_eq_some_iff.mp ⟨numbers, readAll⟩ part member)
  · rintro ⟨parts, two, four, each, whole⟩
    have nonempty : parts ≠ [] := List.ne_nil_of_length_pos (by omega)
    have undotted : ∀ part ∈ parts, '.' ∉ part := by
      intro part member dot
      rcases each part member with word | ⟨rest, rfl, word⟩
      · exact absurd (word.digits '.' dot) (by decide)
      · rcases List.mem_cons.mp dot with same | dot
        · exact absurd same (by decide)
        · exact absurd (word.digits '.' dot) (by decide)
    have readable : ∀ part ∈ parts, ∃ number, readWord? part = some number :=
      fun part member => exists_readWord?_iff.mpr (each part member)
    obtain ⟨numbers, readAll⟩ := exists_mapM_eq_some_iff.mpr readable
    have sameLength := congrArg List.length (mapM_eq_some_iff.mp readAll)
    rw [List.length_map, List.length_map] at sameLength
    rw [sameLength] at two four
    obtain ⟨version, made⟩ := exists_ofParts?_iff.mpr ⟨two, four⟩
    refine ⟨version, ?_⟩
    rw [parse?, whole, Text.cut_intercalate nonempty undotted, readAll]
    exact made

theorem exists_parse_iff {text : List Char} :
    (∃ version, parse text = .ok version) ↔ IsDotted (MaySign IsWord) (Blank.trim text) := by
  rw [← exists_parse?_iff, parse]
  cases parse? text <;> simp

theorem isDotted_iff {text : List Char} :
    IsDotted IsWord text ↔ IsDotted (MaySign IsWord) text ∧ '+' ∉ text := by
  constructor
  · rintro ⟨parts, two, four, each, rfl⟩
    refine ⟨⟨parts, two, four, fun part member => .inl (each part member), rfl⟩, ?_⟩
    rw [Text.mem_intercalate_iff (by decide)]
    rintro ⟨part, member, sign⟩
    exact (each part member).unsigned sign
  · rintro ⟨⟨parts, two, four, each, rfl⟩, unsigned⟩
    refine ⟨parts, two, four, ?_, rfl⟩
    intro part member
    refine isWord_iff.mpr ⟨each part member, ?_⟩
    intro sign
    exact unsigned ((Text.mem_intercalate_iff (by decide)).mpr ⟨part, member, sign⟩)

theorem toList_text (version : Version) :
    version.text.toList =
      ['.'].intercalate (version.parts.map fun part => (toString part).toList) := by
  rw [text, String.toList_intercalate, List.map_map]
  rfl

theorem bare_text (version : Version) : Identity.Bare version.text := by
  apply Identity.bare_of_range
  intro character member
  by_cases dot : character = '.'
  · subst dot
    decide
  · rw [toList_text, Text.mem_intercalate_iff dot] at member
    obtain ⟨_, written, inside⟩ := member
    obtain ⟨part, _, rfl⟩ := List.mem_map.mp written
    rw [Nat.toString_eq_repr, Nat.toList_repr] at inside
    have digit := toNat_of_isDigit (Nat.isDigit_of_mem_toDigits (by decide) (by decide) inside)
    omega

theorem parse_text (version : Version) : parse version.text.toList = .ok version := by
  have undotted : ∀ part ∈ version.parts.map fun part => (toString part).toList, '.' ∉ part := by
    intro written member dot
    obtain ⟨part, _, rfl⟩ := List.mem_map.mp member
    rw [Nat.toString_eq_repr, Nat.toList_repr] at dot
    exact absurd (Nat.isDigit_of_mem_toDigits (by decide) (by decide) dot) (by decide)
  have small : ∀ part ∈ version.parts, part ≤ 0xFFFF := by
    intro part member
    simp only [parts, List.mem_cons, List.not_mem_nil, or_false] at member
    rcases member with rfl | rfl | rfl | rfl <;> exact Nat.le_of_lt_succ (UInt16.toNat_lt _)
  have readAll : (version.parts.map fun part => (toString part).toList).mapM readWord? =
      some version.parts := by
    rw [mapM_eq_some_iff, List.map_map]
    exact List.map_congr_left fun part member => readWord?_toString (small part member)
  have made : ofParts? version.parts = some version := by
    simp [parts, ofParts?]
  have read : parse? version.text.toList = some version := by
    rw [parse?, (bare_text version).trim_eq, toList_text,
      Text.cut_intercalate (by simp [parts]) undotted, readAll]
    exact made
  rw [parse, read]

end Version

/-! ## Key tokens -/

namespace KeyToken

open Hexadecimal Number

theorem exists_readBytes?_iff : ∀ {text : List Char},
    (∃ bytes, readBytes? text = some bytes) ↔ IsSignedBytes text
  | [] => by simp [readBytes?, IsSignedBytes.nil]
  | [_] => by
      constructor
      · rintro ⟨_, ⟨⟩⟩
      · rintro ⟨⟩
  | high :: low :: rest => by
      have restRead : (∃ bytes, readBytes? rest = some bytes) ↔ IsSignedBytes rest :=
        exists_readBytes?_iff
      constructor
      · rintro ⟨bytes, read⟩
        rw [readBytes?, Option.bind_eq_bind, Option.bind_eq_some_iff] at read
        obtain ⟨value, readFirst, read⟩ := read
        rw [Option.bind_eq_bind, Option.bind_eq_some_iff] at read
        obtain ⟨others, readOthers, _⟩ := read
        have digits := exists_readHexByte?_iff.mp ⟨value, readFirst⟩
        exact .cons digits.1 digits.2 (restRead.mp ⟨others, readOthers⟩)
      · rintro (_ | ⟨first, second, others⟩)
        obtain ⟨value, readFirst⟩ := exists_readHexByte?_iff.mpr ⟨first, second⟩
        obtain ⟨bytes, readOthers⟩ := restRead.mpr others
        exact ⟨UInt8.ofNat value :: bytes, by simp [readBytes?, readFirst, readOthers]⟩

theorem two_mul_length_of_readBytes? : ∀ {text : List Char} {bytes : List UInt8},
    readBytes? text = some bytes → 2 * bytes.length = text.length
  | [], bytes, read => by
      cases read
      rfl
  | [_], bytes, read => by cases read
  | high :: low :: rest, bytes, read => by
      rw [readBytes?, Option.bind_eq_bind, Option.bind_eq_some_iff] at read
      obtain ⟨value, _, read⟩ := read
      rw [Option.bind_eq_bind, Option.bind_eq_some_iff] at read
      obtain ⟨others, readOthers, made⟩ := read
      cases made
      have sameLength := two_mul_length_of_readBytes? readOthers
      simp only [List.length_cons]
      omega

theorem exists_parse_iff {text : List Char} :
    (∃ token, parse text = .ok token) ↔ text.length = 16 ∧ IsSignedBytes text := by
  rw [← exists_readBytes?_iff, parse]
  constructor
  · rintro ⟨token, read⟩
    split at read
    case isFalse => cases read
    case isTrue shape =>
      refine ⟨shape.1, ?_⟩
      cases readAll : readBytes? text with
      | none => simp [readAll] at read
      | some bytes => exact ⟨bytes, rfl⟩
  · rintro ⟨sixteen, bytes, read⟩
    have signed := exists_readBytes?_iff.mp ⟨bytes, read⟩
    have ascii : text.all (·.toNat < 0x80) = true := by simpa using signed.toNat_lt
    have eight : bytes.length = 8 := by
      have sameLength := two_mul_length_of_readBytes? read
      omega
    rw [if_pos ⟨sixteen, ascii⟩, read]
    exact ⟨⟨bytes, eight⟩, by simp [ofList?, eight]⟩

theorem bare_text (token : KeyToken) : Identity.Bare token.text := by
  apply Identity.bare_of_range
  intro character member
  rw [text, String.toList_ofList] at member
  have bounds := toNat_of_isDigit (isDigit_of_mem_ofBytes member)
  omega

theorem readBytes?_ofBytes (bytes : List UInt8) : readBytes? (ofBytes bytes) = some bytes := by
  induction bytes with
  | nil => rfl
  | cons byte bytes induction =>
      have first := readHexByte?_byte byte
      have joined : ofBytes (byte :: bytes) = digits 2 byte.toNat ++ ofBytes bytes := rfl
      rw [joined]
      rw [digits_two] at first ⊢
      simp [readBytes?, first, induction]

theorem length_text (token : KeyToken) : token.text.toList.length = 16 := by
  have sameLength := two_mul_length_of_readBytes? (readBytes?_ofBytes token.bytes)
  rw [text, String.toList_ofList, ← sameLength, token.length_bytes]

theorem parse_text (token : KeyToken) : parse token.text.toList = .ok token := by
  have read := readBytes?_ofBytes token.bytes
  have sixteen := token.length_text
  rw [text, String.toList_ofList] at sixteen ⊢
  have signed := exists_readBytes?_iff.mp ⟨token.bytes, read⟩
  have ascii : (ofBytes token.bytes).all (·.toNat < 0x80) = true := by simpa using signed.toNat_lt
  rw [parse, if_pos ⟨sixteen, ascii⟩, read]
  simp [ofList?, token.length_bytes]

end KeyToken

end CilLoader
