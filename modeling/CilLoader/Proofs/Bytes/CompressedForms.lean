import CilLoader.Bytes.Compressed
import CilLoader.Proofs.Bytes.Recovery

/-!
# Written forms of compressed numbers and tokens

A number may be written in any of the three widths that has room for it, and it is read back from
each of them. The shortest form is the one that writers choose. A token of a type is written as its
row and a tag for its table.
-/

namespace CilLoader

namespace Bytes

/-- The bytes of a number, the most significant first. -/
def ofNumberReversed : (width : Nat) → (value : Nat) → List UInt8
  | 0, _ => []
  | width + 1, value =>
    UInt8.ofNat (value / limit width) :: ofNumberReversed width (value % limit width)

theorem limit_pos (width : Nat) : 0 < limit width := by
  induction width with
  | zero => decide
  | succ width induction =>
      rw [limit]
      omega

end Bytes

namespace Compressed

/-- The bits of the first byte that announce a width. -/
def lead : (width : Nat) → Nat
  | 1 => 0
  | 2 => 0x80
  | _ => 0xC0

/-- A width is one of three, and the number has no more bits than it has room for. -/
def Fits (width value : Nat) : Prop :=
  (width = 1 ∨ width = 2 ∨ width = 4) ∧ value < range width

instance (width value : Nat) : Decidable (Fits width value) :=
  inferInstanceAs (Decidable (_ ∧ _))

/-- A signed number loses one bit to its sign. -/
def SignedFits (width : Nat) (value : Int) : Prop :=
  (width = 1 ∨ width = 2 ∨ width = 4) ∧
    -(range width / 2 : Nat) ≤ value ∧ value < (range width / 2 : Nat)

def encodeIn (width value : Nat) : List UInt8 :=
  UInt8.ofNat (lead width + value / Bytes.limit (width - 1)) ::
    Bytes.ofNumberReversed (width - 1) (value % Bytes.limit (width - 1))

/-- Moves the sign into the lowest place. -/
def rotate (width : Nat) (value : Int) : Nat :=
  if 0 ≤ value then (2 * value).toNat else (2 * value + range width + 1).toNat

/-- The forms that a number can be written in. -/
inductive Form (value : Nat) : List UInt8 → Prop where
  | inWidth {width : Nat} (fits : Fits width value) : Form value (encodeIn width value)

inductive SignedForm (value : Int) : List UInt8 → Prop where
  | inWidth {width : Nat} (fits : SignedFits width value) :
      SignedForm value (encodeIn width (rotate width value))

/-- The forms of a token, which must be that of a type: its row, and below it the tag that stands
for its table. -/
inductive TokenForm (token : Token) : List UInt8 → Prop where
  | definition {written : List UInt8} (table : token.table = 0x02)
      (form : Form (4 * token.row) written) : TokenForm token written
  | reference {written : List UInt8} (table : token.table = 0x01)
      (form : Form (4 * token.row + 1) written) : TokenForm token written
  | specification {written : List UInt8} (table : token.table = 0x1B)
      (form : Form (4 * token.row + 2) written) : TokenForm token written

/-! ## The shortest forms -/

def Writable (value : Nat) : Prop :=
  value < 0x20000000

instance (value : Nat) : Decidable (Writable value) :=
  inferInstanceAs (Decidable (_ < _))

def SignedWritable (value : Int) : Prop :=
  -0x10000000 ≤ value ∧ value < 0x10000000

instance (value : Int) : Decidable (SignedWritable value) :=
  inferInstanceAs (Decidable (_ ∧ _))

/-- Tokens of types can be written, whatever their row. -/
def TokenWritable (token : Token) : Prop :=
  token.table = 0x02 ∨ token.table = 0x01 ∨ token.table = 0x1B

def shortest (value : Nat) : Nat :=
  if value < 0x80 then 1 else if value < 0x4000 then 2 else 4

def shortestSigned (value : Int) : Nat :=
  if -0x40 ≤ value ∧ value < 0x40 then 1 else if -0x2000 ≤ value ∧ value < 0x2000 then 2 else 4

def encode (value : Nat) : List UInt8 :=
  encodeIn (shortest value) value

def encodeSigned (value : Int) : List UInt8 :=
  encodeIn (shortestSigned value) (rotate (shortestSigned value) value)

theorem form_encode {value : Nat} (writable : Writable value) : Form value (encode value) := by
  apply Form.inWidth
  simp only [shortest]
  split
  · exact ⟨.inl rfl, by assumption⟩
  · split
    · exact ⟨.inr (.inl rfl), by assumption⟩
    · exact ⟨.inr (.inr rfl), writable⟩

theorem signedForm_encodeSigned {value : Int} (writable : SignedWritable value) :
    SignedForm value (encodeSigned value) := by
  apply SignedForm.inWidth
  simp only [shortestSigned]
  split
  · exact ⟨.inl rfl, by assumption⟩
  · split
    · exact ⟨.inr (.inl rfl), by assumption⟩
    · exact ⟨.inr (.inr rfl), writable⟩

theorem exists_tokenForm {token : Token} (writable : TokenWritable token) :
    ∃ written, TokenForm token written := by
  have fits : ∀ tag, tag < 4 → Writable (4 * token.row + tag) := by
    intro tag small
    have bound := token.row_lt
    rw [Writable]
    omega
  rcases writable with table | table | table
  · exact ⟨_, .definition table (form_encode (fits 0 (by decide)))⟩
  · exact ⟨_, .reference table (form_encode (fits 1 (by decide)))⟩
  · exact ⟨_, .specification table (form_encode (fits 2 (by decide)))⟩

/-! ## What the first byte says, and the sign -/

theorem lead_lt {width value : Nat} (fits : Fits width value) :
    lead width + value / Bytes.limit (width - 1) < 256 := by
  rcases fits with ⟨rfl | rfl | rfl, bound⟩ <;>
    simp only [lead, range, Nat.reduceSub, Bytes.limit] at bound ⊢ <;> omega

theorem width?_lead {width value : Nat} (fits : Fits width value) :
    width? (lead width + value / Bytes.limit (width - 1)) =
      some (width, value / Bytes.limit (width - 1)) := by
  rcases fits with ⟨rfl | rfl | rfl, bound⟩ <;>
    simp only [lead, range, Nat.reduceSub, Bytes.limit, width?] at bound ⊢
  · rw [if_pos (by omega)]
    simp
  · rw [if_neg (by omega), if_pos (by omega)]
    simp
  · rw [if_neg (by omega), if_neg (by omega), if_pos (by omega)]
    simp

theorem fits_rotate {width : Nat} {value : Int} (fits : SignedFits width value) :
    Fits width (rotate width value) := by
  refine ⟨fits.1, ?_⟩
  rcases fits with ⟨rfl | rfl | rfl, low, high⟩ <;>
    simp only [range, rotate] at low high ⊢ <;> split <;> omega

theorem unrotate_rotate {width : Nat} {value : Int} (fits : SignedFits width value) :
    unrotate width (rotate width value) = value := by
  rcases fits with ⟨rfl | rfl | rfl, low, high⟩ <;>
    simp only [range, rotate, unrotate] at low high ⊢ <;> split <;> split <;> omega

end Compressed

theorem Token.ofNat_parts (token : Token) :
    (⟨UInt32.ofNat (token.table <<< 24 ||| token.row)⟩ : Token) = token := by
  have bound := token.value.toNat_lt
  have joined : token.table <<< 24 ||| token.row = token.value.toNat := by
    rw [← Nat.shiftLeft_add_eq_or_of_lt token.row_lt, Nat.shiftLeft_eq, table, row,
      Nat.shiftRight_eq_div_pow]
    omega
  rw [joined, UInt32.ofNat_toNat]

namespace Decoder

open Compressed

theorem recovers_byte {value : Nat} (fits : value < 256) :
    Recovers byte [UInt8.ofNat value] value :=
  recovers_number fits

theorem recovers_moreBytes {count low : Nat} (high : Nat) (fits : low < Bytes.limit count) :
    (moreBytes count high).Recovers (Bytes.ofNumberReversed count low)
      (high * Bytes.limit count + low) := by
  induction count generalizing high low with
  | zero =>
      have nothing : low = 0 := Nat.lt_one_iff.mp fits
      rw [nothing, Bytes.limit, Nat.mul_one]
      exact recovers_succeed high
  | succ count induction =>
      have positive := Bytes.limit_pos count
      have first : low / Bytes.limit count < 256 := Nat.div_lt_of_lt_mul fits
      have rest := induction (high * 256 + low / Bytes.limit count) (Nat.mod_lt low positive)
      have sum : (high * 256 + low / Bytes.limit count) * Bytes.limit count +
          low % Bytes.limit count = high * Bytes.limit (count + 1) + low := by
        rw [Nat.add_mul, Nat.add_assoc, Nat.div_add_mod', Bytes.limit, Nat.mul_assoc,
          Nat.mul_comm 256]
      rw [sum] at rest
      exact (recovers_byte first).bind rest

theorem recovers_compressedSized {width value : Nat} (fits : Fits width value) :
    compressedSized.Recovers (encodeIn width value) (value, width) := by
  have rest := (recovers_moreBytes (value / Bytes.limit (width - 1))
    (Nat.mod_lt value (Bytes.limit_pos (width - 1)))).map fun value => (value, width)
  rw [Nat.div_add_mod'] at rest
  refine (recovers_byte (lead_lt fits)).bind ?_
  rw [width?_lead fits]
  exact rest

theorem recovers_compressed {value : Nat} {written : List UInt8} (form : Form value written) :
    compressed.Recovers written value := by
  cases form with
  | inWidth fits => exact (recovers_compressedSized fits).map Prod.fst

theorem recovers_compressedSigned {value : Int} {written : List UInt8}
    (form : SignedForm value written) : compressedSigned.Recovers written value := by
  cases form with
  | @inWidth width fits =>
      have recovers := (recovers_compressedSized (fits_rotate fits)).map fun sized =>
        unrotate sized.2 sized.1
      rwa [unrotate_rotate fits] at recovers

theorem recovers_compressedToken {token : Token} {written : List UInt8}
    (form : TokenForm token written) : compressedToken.Recovers written token := by
  have tagged : ∀ tag, tag < 4 → tokenTable? tag = some token.table →
      Form (4 * token.row + tag) written → compressedToken.Recovers written token := by
    intro tag small table form
    have tagOf : (4 * token.row + tag) % 4 = tag := by omega
    have rowOf : (4 * token.row + tag) / 4 = token.row := by omega
    rw [← List.append_nil written]
    refine (recovers_compressed form).bind ?_
    simp only [tagOf, table, rowOf, token.ofNat_parts]
    exact recovers_succeed token
  cases form with
  | definition table form => exact tagged 0 (by decide) (by rw [table]; rfl) form
  | reference table form => exact tagged 1 (by decide) (by rw [table]; rfl) form
  | specification table form => exact tagged 2 (by decide) (by rw [table]; rfl) form

end Decoder

end CilLoader
