import CilLoader.Text.Number

/-!
# Numbers that are read, and numbers that were written

What the readers of decimal numbers of 16 bits and of hexadecimal bytes take for a number: digits,
or a plus sign and digits. What is written in digits is read back as the number it was.
-/

namespace CilLoader

/-! ## Decimal numbers -/

namespace Number

/-- A number of 16 bits in decimal digits. -/
structure IsWord (text : List Char) : Prop where
  nonempty : text ≠ []
  digits : ∀ character ∈ text, character.isDigit = true
  bounded : Nat.ofDigitChars 10 text 0 ≤ 0xFFFF

/-- A text of some form, or one with a plus sign in front. -/
def MaySign (form : List Char → Prop) (text : List Char) : Prop :=
  form text ∨ ∃ rest, text = '+' :: rest ∧ form rest

theorem mapM_eq_some_iff {α β : Type} {read? : α → Option β} {items : List α}
    {results : List β} : items.mapM read? = some results ↔ items.map read? = results.map some := by
  induction items generalizing results with
  | nil => cases results <;> simp
  | cons item items induction =>
      rw [List.mapM_cons, List.map_cons]
      cases results with
      | nil => cases read? item <;> cases items.mapM read? <;> simp
      | cons result results =>
          rw [List.map_cons, List.cons.injEq, ← induction]
          cases read? item <;> cases items.mapM read? <;> simp

theorem exists_mapM_eq_some_iff {α β : Type} {read? : α → Option β} {items : List α} :
    (∃ results, items.mapM read? = some results) ↔
      ∀ item ∈ items, ∃ result, read? item = some result := by
  induction items with
  | nil => simp
  | cons item items induction =>
      rw [List.forall_mem_cons, ← induction, List.mapM_cons]
      cases read? item <;> cases items.mapM read? <;> simp

theorem isDigit_iff_le {character : Char} :
    character.isDigit = true ↔ '0' ≤ character ∧ character ≤ '9' := by
  rw [Char.isDigit, Bool.and_eq_true, decide_eq_true_iff, decide_eq_true_iff]
  rfl

theorem toNat_of_isDigit {character : Char} (digit : character.isDigit = true) :
    48 ≤ character.toNat ∧ character.toNat ≤ 57 := by
  have bounds := isDigit_iff_le.mp digit
  exact ⟨bounds.1, bounds.2⟩

theorem decimalDigit?_of_isDigit {character : Char} (digit : character.isDigit = true) :
    decimalDigit? character = some (character.toNat - 48) := by
  rw [decimalDigit?, if_pos (isDigit_iff_le.mp digit)]

theorem isDigit_of_decimalDigit? {character : Char} {value : Nat}
    (read : decimalDigit? character = some value) : character.isDigit = true := by
  rw [decimalDigit?] at read
  split at read
  case isTrue bounds => exact isDigit_iff_le.mpr bounds
  case isFalse => cases read

theorem mapM_decimalDigit? {text : List Char}
    (digits : ∀ character ∈ text, character.isDigit = true) :
    text.mapM decimalDigit? = some (text.map fun character => character.toNat - 48) := by
  rw [mapM_eq_some_iff, List.map_map]
  apply List.map_congr_left
  intro character member
  exact decimalDigit?_of_isDigit (digits character member)

theorem ofDigits_map (text : List Char) :
    ofDigits 10 (text.map fun character => character.toNat - 48) = Nat.ofDigitChars 10 text 0 := by
  rw [ofDigits, List.foldl_map, Nat.ofDigitChars_eq_foldl]
  simp only [Nat.mul_comm 10]
  rfl

/-- A reader of words wants digits behind a plus sign, if there is one, and no more than 16 bits. -/
theorem readWord?_eq_some_iff {text : List Char} {value : Nat} :
    readWord? text = some value ↔
      IsWord (dropPlus text) ∧ value = Nat.ofDigitChars 10 (dropPlus text) 0 := by
  rw [readWord?, read?, Option.bind_eq_bind, Option.bind_eq_some_iff]
  constructor
  · rintro ⟨values, read, found⟩
    have digits : ∀ character ∈ dropPlus text, character.isDigit = true := by
      intro character member
      obtain ⟨digit, readDigit⟩ := exists_mapM_eq_some_iff.mp ⟨values, read⟩ character member
      exact isDigit_of_decimalDigit? readDigit
    cases (mapM_decimalDigit? digits).symm.trans read
    rw [ofDigits_map] at found
    split at found
    case isTrue => cases found
    case isFalse fits =>
      cases found
      simp at fits
      exact ⟨⟨fits.1, digits, fits.2⟩, rfl⟩
  · rintro ⟨⟨nonempty, digits, bounded⟩, rfl⟩
    refine ⟨_, mapM_decimalDigit? digits, ?_⟩
    rw [ofDigits_map, if_neg (by simp [nonempty, bounded])]

theorem dropPlus_cons_of_ne {first : Char} (other : first ≠ '+') (rest : List Char) :
    dropPlus (first :: rest) = first :: rest := by
  simp [dropPlus, other]

theorem IsWord.unsigned {text : List Char} (word : IsWord text) : '+' ∉ text := by
  intro sign
  exact absurd (word.digits '+' sign) (by decide)

theorem IsWord.dropPlus_eq {text : List Char} (word : IsWord text) : dropPlus text = text := by
  cases text with
  | nil => rfl
  | cons first rest =>
      apply dropPlus_cons_of_ne
      exact fun sign => word.unsigned (sign ▸ List.mem_cons_self)

theorem isWord_dropPlus_iff {text : List Char} : IsWord (dropPlus text) ↔ MaySign IsWord text := by
  constructor
  · intro word
    cases text with
    | nil => exact .inl word
    | cons first rest =>
        by_cases sign : first = '+'
        · subst sign
          exact .inr ⟨rest, rfl, word⟩
        · rw [dropPlus_cons_of_ne sign] at word
          exact .inl word
  · rintro (word | ⟨rest, rfl, word⟩)
    · rwa [word.dropPlus_eq]
    · exact word

theorem exists_readWord?_iff {text : List Char} :
    (∃ value, readWord? text = some value) ↔ MaySign IsWord text := by
  simp [readWord?_eq_some_iff, isWord_dropPlus_iff]

theorem isWord_iff {text : List Char} : IsWord text ↔ MaySign IsWord text ∧ '+' ∉ text := by
  constructor
  · intro word
    exact ⟨.inl word, word.unsigned⟩
  · rintro ⟨word | ⟨rest, rfl, _⟩, unsigned⟩
    · exact word
    · exact absurd List.mem_cons_self unsigned

theorem readWord?_toString {value : Nat} (small : value ≤ 0xFFFF) :
    readWord? (toString value).toList = some value := by
  have digits : ∀ character ∈ Nat.toDigits 10 value, character.isDigit = true :=
    fun character member => Nat.isDigit_of_mem_toDigits (by decide) (by decide) member
  have same : Nat.ofDigitChars 10 (Nat.toDigits 10 value) 0 = value :=
    Nat.ofDigitChars_ten_toDigits
  have word : IsWord (Nat.toDigits 10 value) := ⟨Nat.toDigits_ne_nil, digits, by omega⟩
  rw [Nat.toString_eq_repr, Nat.toList_repr, readWord?_eq_some_iff, word.dropPlus_eq, same]
  exact ⟨word, rfl⟩

end Number

/-! ## Hexadecimal bytes -/

namespace Hexadecimal

def IsDigit (character : Char) : Prop :=
  ('0' ≤ character ∧ character ≤ '9') ∨ ('a' ≤ character ∧ character ≤ 'f') ∨
    ('A' ≤ character ∧ character ≤ 'F')

instance (character : Char) : Decidable (IsDigit character) :=
  inferInstanceAs (Decidable (_ ∨ _))

/-- Two characters for each byte: two digits, or a plus sign and one digit. -/
inductive IsSignedBytes : List Char → Prop where
  | nil : IsSignedBytes []
  | cons {high low : Char} {rest : List Char} (first : IsDigit high ∨ high = '+')
      (second : IsDigit low) (others : IsSignedBytes rest) : IsSignedBytes (high :: low :: rest)

theorem toNat_of_isDigit {character : Char} (digit : IsDigit character) :
    0x30 ≤ character.toNat ∧ character.toNat ≤ 0x66 := by
  rcases digit with bounds | bounds | bounds
  · have lower : 0x30 ≤ character.toNat := bounds.1
    have upper : character.toNat ≤ 0x39 := bounds.2
    omega
  · have lower : 0x61 ≤ character.toNat := bounds.1
    have upper : character.toNat ≤ 0x66 := bounds.2
    omega
  · have lower : 0x41 ≤ character.toNat := bounds.1
    have upper : character.toNat ≤ 0x46 := bounds.2
    omega

theorem digitValue?_lt {character : Char} {value : Nat}
    (read : digitValue? character = some value) : value < 16 := by
  rw [digitValue?] at read
  split at read
  case isTrue bounds =>
    have upper : character.toNat ≤ 57 := bounds.2
    cases read
    omega
  case isFalse =>
    split at read
    case isTrue bounds =>
      have upper : character.toNat ≤ 102 := bounds.2
      cases read
      omega
    case isFalse =>
      split at read
      case isTrue bounds =>
        have upper : character.toNat ≤ 70 := bounds.2
        cases read
        omega
      case isFalse => cases read

theorem exists_digitValue?_iff {character : Char} :
    (∃ value, digitValue? character = some value) ↔ IsDigit character := by
  rw [digitValue?, IsDigit]
  split
  · simp [*]
  · split
    · simp [*]
    · split <;> simp [*]

theorem digitValue?_digit : ∀ value < 16, digitValue? (digit value) = some value := by
  decide

theorem isDigit_digit : ∀ value < 16, IsDigit (digit value) := by
  decide

theorem digits_two (value : Nat) : digits 2 value = [digit (value / 16 % 16), digit (value % 16)] :=
  rfl

theorem isDigit_of_mem_ofBytes {bytes : List UInt8} {character : Char}
    (member : character ∈ ofBytes bytes) : IsDigit character := by
  obtain ⟨byte, _, inside⟩ := List.mem_flatMap.mp member
  simp only [digits_two, List.mem_cons, List.not_mem_nil, or_false] at inside
  rcases inside with rfl | rfl <;> exact isDigit_digit _ (Nat.mod_lt _ (by decide))

/-- In pairs, digits are bytes, and bytes without a plus sign are digits. -/
theorem isSignedBytes_iff : ∀ {text : List Char}, text.length % 2 = 0 →
    ((∀ character ∈ text, IsDigit character) ↔ IsSignedBytes text ∧ '+' ∉ text)
  | [], _ => by simp [IsSignedBytes.nil]
  | [_], odd => by cases odd
  | high :: low :: rest, even => by
      have evenRest : rest.length % 2 = 0 := by
        simp only [List.length_cons] at even
        omega
      have others := isSignedBytes_iff evenRest
      have digitPlus : ¬IsDigit '+' := by decide
      constructor
      · intro digits
        have restDigits := others.mp fun character member => digits character (by simp [member])
        refine ⟨.cons (.inl (digits high (by simp))) (digits low (by simp)) restDigits.1, ?_⟩
        exact fun sign => digitPlus (digits '+' sign)
      · rintro ⟨_ | ⟨first, second, signed⟩, unsigned⟩
        have notPlus : high ≠ '+' := fun sign => unsigned (sign ▸ List.mem_cons_self)
        have restUnsigned : '+' ∉ rest := fun sign => unsigned (by simp [sign])
        rw [List.forall_mem_cons, List.forall_mem_cons]
        exact ⟨first.resolve_right notPlus, second, others.mpr ⟨signed, restUnsigned⟩⟩

theorem IsSignedBytes.toNat_lt {text : List Char} (signed : IsSignedBytes text) :
    ∀ character ∈ text, character.toNat < 0x80 := by
  induction signed with
  | nil => exact fun character member => absurd member List.not_mem_nil
  | @cons high low rest first second _ induction =>
      rw [List.forall_mem_cons, List.forall_mem_cons]
      refine ⟨?_, Nat.lt_of_le_of_lt (toNat_of_isDigit second).2 (by decide), induction⟩
      rcases first with digit | rfl
      · exact Nat.lt_of_le_of_lt (toNat_of_isDigit digit).2 (by decide)
      · decide

end Hexadecimal

namespace Number

open Hexadecimal

theorem readHexByte?_digits {high low : Char} {upper lower : Nat}
    (readHigh : digitValue? high = some upper) (readLow : digitValue? low = some lower) :
    readHexByte? [high, low] = some (upper * 16 + lower) := by
  have unsigned : high ≠ '+' := by
    rintro rfl
    cases readHigh
  have upperBound := digitValue?_lt readHigh
  have lowerBound := digitValue?_lt readLow
  have fits : ¬255 < upper * 16 + lower := by omega
  simp [readHexByte?, read?, dropPlus_cons_of_ne unsigned, readHigh, readLow, ofDigits, fits]

theorem readHexByte?_plus (low : Char) : readHexByte? ['+', low] = digitValue? low := by
  cases readLow : digitValue? low with
  | none => simp [readHexByte?, read?, dropPlus, readLow]
  | some lower =>
      have bound := digitValue?_lt readLow
      have fits : ¬255 < lower := by omega
      simp [readHexByte?, read?, dropPlus, readLow, ofDigits, fits]

theorem exists_readHexByte?_iff {high low : Char} :
    (∃ value, readHexByte? [high, low] = some value) ↔
      (IsDigit high ∨ high = '+') ∧ IsDigit low := by
  by_cases sign : high = '+'
  · rw [sign, readHexByte?_plus, exists_digitValue?_iff]
    simp
  · rw [or_iff_left sign, ← exists_digitValue?_iff, ← exists_digitValue?_iff]
    constructor
    · rintro ⟨value, read⟩
      rw [readHexByte?, read?, dropPlus_cons_of_ne sign, Option.bind_eq_bind,
        Option.bind_eq_some_iff] at read
      obtain ⟨values, readAll, _⟩ := read
      have each := exists_mapM_eq_some_iff.mp ⟨values, readAll⟩
      exact ⟨each high (by simp), each low (by simp)⟩
    · rintro ⟨⟨upper, readHigh⟩, lower, readLow⟩
      exact ⟨_, readHexByte?_digits readHigh readLow⟩

end Number

namespace Hexadecimal

theorem readHexByte?_byte (byte : UInt8) :
    Number.readHexByte? (digits 2 byte.toNat) = some byte.toNat := by
  have bound := byte.toNat_lt
  rw [digits_two, Number.readHexByte?_digits (digitValue?_digit _ (Nat.mod_lt _ (by decide)))
    (digitValue?_digit _ (Nat.mod_lt _ (by decide)))]
  congr 1
  omega

end Hexadecimal

end CilLoader
