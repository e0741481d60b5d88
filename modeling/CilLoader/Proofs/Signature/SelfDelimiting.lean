import CilLoader.Proofs.Bytes.Delimited
import CilLoader.Proofs.Signature.Congruence
import CilLoader.Proofs.Strict.Encodings

/-!
# Self-delimiting signatures

A signature tells by itself where it ends. The reader looks ahead twice, for modifiers and for the
mark in front of a parameter, but only at bytes that it consumes in any case if it succeeds. So what
comes behind a signature does not matter, and a signature that is cut short cannot be taken for
another one.
-/

namespace CilLoader

namespace Decoder

open SignatureCode

variable {α : Type}

theorem Plain.forward {decoder : Decoder α} (plain : decoder.Plain) : Forward decoder := by
  intro data position value stop read
  have steady := plain.steady data position
  rw [read] at steady
  exact steady.1

theorem Guarded.forward {decoder : Decoder α} (guarded : Guarded decoder) : Forward decoder := by
  intro data position value stop read
  have ordered := guarded.le_stop data position
  rwa [read] at ordered

/-! ## The code of a type -/

/-- The code of a type, behind its modifiers. -/
def typeCode : Decoder Nat := do
  modifiers
  byte

/-- The code of a type, behind at most `bound` modifiers. Nothing is looked at ahead. -/
def typeCodeUpTo : (bound : Nat) → Decoder Nat
  | 0 => byte
  | bound + 1 => do
    let code ← byte
    if code = requiredModifier ∨ code = optionalModifier then
      let _ ← compressedToken
      typeCodeUpTo bound
    else succeed code

theorem byte_apply (data : Bytes) (position : Nat) :
    byte data position =
      if position < data.size then (.ok (data.byteAt position), position + 1)
      else (.error .outOfBounds, position) :=
  rfl

/-- A byte that is looked at and left alone is read again. -/
theorem modifiersUpTo_bind_byte (bound : Nat) :
    (modifiersUpTo bound >>= fun _ => byte) = typeCodeUpTo bound := by
  induction bound with
  | zero => rfl
  | succ bound induction =>
      funext data position
      rw [typeCodeUpTo, ← induction, modifiersUpTo, bind_bind]
      by_cases left : position < data.size
      · have more : hasMore data position = (.ok true, position) := by
          rw [hasMore, decide_eq_true left]
        have looked : peek data position = (.ok (data.byteAt position), position) := by
          rw [peek, if_pos left]
        have read : byte data position = (.ok (data.byteAt position), position + 1) := by
          rw [byte_apply, if_pos left]
        rw [bind_of_ok more, if_pos rfl, bind_bind, bind_of_ok looked, bind_of_ok read]
        split
        case isTrue => rw [bind_bind, bind_of_ok read, bind_bind]
        case isFalse => exact read
      · have none : hasMore data position = (.ok false, position) := by
          rw [hasMore, decide_eq_false left]
        have failure : byte data position = (.error .outOfBounds, position) := by
          rw [byte_apply, if_neg left]
        rw [bind_of_ok none, if_neg Bool.false_ne_true, bind_of_error failure]
        exact failure

theorem plain_typeCodeUpTo (bound : Nat) : Plain (typeCodeUpTo bound) := by
  induction bound with
  | zero => exact .byte
  | succ bound induction =>
      refine Plain.byte.bind fun code => ?_
      split
      · exact plain_compressedToken.bind fun _ => induction
      · exact .succeed code

/-- Each modifier takes more than a byte, so that a bound of one for each byte left is enough. -/
theorem typeCodeUpTo_succ {data : Bytes} {position bound : Nat}
    (enough : data.size - position ≤ bound) :
    typeCodeUpTo (bound + 1) data position = typeCodeUpTo bound data position := by
  induction bound generalizing position with
  | zero =>
      have failure : byte data position = (.error .outOfBounds, position) := by
        rw [byte_apply, if_neg (by omega)]
      exact (bind_of_error failure).trans failure.symm
  | succ bound induction =>
      refine bind_congr_ok fun code behindCode readCode => ?_
      split
      case isFalse => rfl
      case isTrue =>
        refine bind_congr_ok fun token behindToken readToken => induction ?_
        have consumed := consumes_byte data position code behindCode readCode
        have passed := plain_compressedToken.forward data behindCode token behindToken readToken
        omega

theorem consumes_typeCodeUpTo (bound : Nat) : Consumes (typeCodeUpTo bound) := by
  cases bound with
  | zero => exact consumes_byte
  | succ bound =>
      refine consumes_byte.bind fun code => ?_
      split
      · exact (plain_compressedToken.bind fun _ => plain_typeCodeUpTo bound).forward
      · exact (Plain.succeed code).forward

theorem typeCodeUpTo_of_le {data : Bytes} {position bound : Nat}
    (enough : data.size - position ≤ bound) :
    typeCodeUpTo bound data position = typeCode data position := by
  have same : typeCode data position =
      typeCodeUpTo (data.size - position) data position := by
    rw [← modifiersUpTo_bind_byte]
    rfl
  rw [same]
  induction enough with
  | refl => rfl
  | step enough induction => rw [typeCodeUpTo_succ enough, induction]

theorem Plain.delimited {decoder : Decoder α} (plain : decoder.Plain) : Delimited decoder := by
  induction plain with
  | succeed value => exact delimited_succeed value
  | refuse cause => exact delimited_fail _
  | byte => exact delimited_byte
  | bind _ _ first next => exact first.bind next

/-- The number of modifiers that are looked for depends on the size of the data. It is always
enough, and so does not matter. -/
theorem delimited_typeCode : Delimited typeCode := by
  intro data position code stop inside read
  have readUpTo : ∀ {bound}, data.size - position ≤ bound →
      (typeCodeUpTo bound).Delimits data position code stop := by
    intro bound enough
    rw [← typeCodeUpTo_of_le enough] at read
    exact (plain_typeCodeUpTo bound).delimited data position code stop inside read
  have here := readUpTo (Nat.le_refl _)
  constructor
  · exact here.ordered
  · exact here.inside
  · intro other agree enough
    have both := Nat.le_max_right (data.size - position) (other.size - position)
    rw [← typeCodeUpTo_of_le both]
    exact (readUpTo (Nat.le_max_left _ _)).stable other agree enough
  · intro other agree there short
    have both := Nat.le_max_right (data.size - position) (other.size - position)
    rw [← typeCodeUpTo_of_le both]
    exact (readUpTo (Nat.le_max_left _ _)).starves other agree there short

theorem consumes_typeCode : Consumes typeCode := by
  intro data position code stop read
  rw [← typeCodeUpTo_of_le (Nat.le_refl _)] at read
  exact consumes_typeCodeUpTo _ data position code stop read

/-! ## Types and methods -/

theorem typeWithin_succ (room : Nat) :
    typeWithin (room + 1) = typeCode >>= typeBody (typeWithin room) := by
  rw [typeCode, bind_bind]
  rfl

theorem consumes_typeWithin (room : Nat) : Consumes (typeWithin room) := by
  cases room with
  | zero => rintro _ _ _ _ ⟨⟩
  | succ room =>
      rw [typeWithin_succ]
      exact consumes_typeCode.bind fun code =>
        (Guarded.typeBody (Guarded.typeWithin room) code).forward

theorem delimited_parameter {type : Decoder TypeSignature} (delimited : Delimited type)
    (consumes : Consumes type) : Delimited (parameter type) := by
  refine delimited_peek_bind (fun code => ?_) (fun code => ?_)
  · split
    · exact delimited_byte.bind fun _ => delimited
    · exact delimited
  · split
    · exact consumes_byte.bind fun _ => consumes.forward
    · exact consumes

theorem congruence_delimited :
    Grammar.Congruence (m := Decoder) (n := Decoder) fun _ decoder _ => Delimited decoder where
  plain := Plain.delimited
  succeed := delimited_succeed
  bind := Delimited.bind

theorem delimited_typeWithin (room : Nat) : Delimited (typeWithin room) := by
  induction room with
  | zero => exact delimited_fail _
  | succ room induction =>
      rw [typeWithin_succ]
      refine delimited_typeCode.bind fun code => ?_
      rw [← Grammar.typeBody_eq]
      have relatedParameter := delimited_parameter induction (consumes_typeWithin room)
      exact congruence_delimited.typeBody _ (typeWithin room) induction relatedParameter code

theorem delimited_methodWithin (room : Nat) : Delimited (methodWithin room) := by
  rw [methodWithin, ← Grammar.methodOver_eq]
  have delimited := delimited_typeWithin room
  exact congruence_delimited.methodOver _ (typeWithin room) delimited
    (delimited_parameter delimited (consumes_typeWithin room))

end Decoder

namespace SignatureReader

variable {α : Type}

/-- A reading goes on behind what it has consumed. Only one that runs out of room marks the
reader. -/
theorem read_of_outcome (reader : SignatureReader) (decoder : Nat → Decoder α)
    {result : Except Error α} {stop : Nat}
    (outcome : decoder reader.room reader.cursor.data reader.cursor.position = (result, stop)) :
    reader.read decoder =
      (result, ⟨⟨reader.cursor.data, stop⟩, reader.nesting + (ranOut result).toNat⟩) := by
  rw [read, Cursor.run_of_eq outcome]
  cases result with
  | ok value => rfl
  | error error => cases error <;> rfl

/-- What a reading owes to the bytes that it consumes, and to nothing else. -/
structure SelfDelimits (reading : SignatureReader → Except Error α × SignatureReader)
    (data : Bytes) (value : α) (stop : Nat) : Prop where
  inside : stop ≤ data.size
  stable : ∀ rest : Bytes,
    let other := data.slice 0 stop ++ rest
    reading (start other) = (.ok value, ⟨⟨other, stop⟩, 0⟩)
  starves : ∀ length < stop,
    (reading (start (data.slice 0 length))).1 = .error .outOfBounds

theorem selfDelimits_of_delimited {decoder : Nat → Decoder α}
    (delimited : ∀ room, (decoder room).Delimited) {data : Bytes} {value : α}
    {after : SignatureReader} (success : (start data).read decoder = (.ok value, after)) :
    SelfDelimits (read · decoder) data value after.cursor.position := by
  rcases outcome : decoder (start data).room data 0 with ⟨result, stop⟩
  have begun := read_of_outcome (start data) decoder outcome
  rw [begun] at success
  cases success
  have delimits := delimited _ data 0 value stop (Nat.zero_le _) outcome
  constructor
  · exact delimits.inside
  · intro rest
    have enough : stop ≤ (data.slice 0 stop ++ rest).size := by
      rw [Array.size_append, Bytes.size_slice delimits.inside]
      omega
    exact read_of_outcome (start _) decoder
      (delimits.stable _ (Bytes.agreeBefore_append delimits.inside rest) enough)
  · intro length short
    have inside : length ≤ data.size := Nat.le_trans (Nat.le_of_lt short) delimits.inside
    have size : (data.slice 0 length).size = length := Bytes.size_slice inside
    have agree : data.AgreeBefore (data.slice 0 length) (data.slice 0 length).size := by
      rw [size]
      exact Bytes.agreeBefore_slice inside
    have failed := delimits.starves _ agree (Nat.zero_le _) (by rwa [size])
    rcases cut : decoder (start data).room (data.slice 0 length) 0 with ⟨result, stopped⟩
    rw [cut] at failed
    cases failed
    exact congrArg Prod.fst (read_of_outcome (start (data.slice 0 length)) decoder cut)

/-- What follows a signature does not change what is read, and every proper beginning of a signature
ends too early. -/
theorem readings_selfDelimit :
    (∀ (data : Bytes) (type : TypeSignature) (after : SignatureReader),
      (start data).readType = (.ok type, after) →
        SelfDelimits readType data type after.cursor.position) ∧
    ∀ (data : Bytes) (method : MethodSignature) (after : SignatureReader),
      (start data).readMethod = (.ok method, after) →
        SelfDelimits readMethod data method after.cursor.position :=
  ⟨fun _ _ _ success => selfDelimits_of_delimited Decoder.delimited_typeWithin success,
    fun _ _ _ success => selfDelimits_of_delimited Decoder.delimited_methodWithin success⟩

/-- A generic type behind a modifier, and a method with a variable argument behind the mark. Further
bytes follow both of them. -/
theorem readings_selfDelimit_marked :
    (let data : Bytes := #[0x20, 0x80, 0x85, 0x15, 0x12, 0x49, 0x01, 0x0E, 0x41]
      let type : TypeSignature := .generic .reference ⟨0x01000012⟩ [.primitive .string]
      (start data).readType = (.ok type, ⟨⟨data, 8⟩, 0⟩) ∧ SelfDelimits readType data type 8) ∧
    (let data : Bytes := #[0x25, 0x02, 0x01, 0x0E, 0x41, 0x1D, 0x08, 0x20]
      let method : MethodSignature :=
        .mk ⟨true, false, true⟩ 0 (.primitive .void) [.primitive .string, .vector (.primitive .i4)]
      (start data).readMethod = (.ok method, ⟨⟨data, 7⟩, 0⟩) ∧
        SelfDelimits readMethod data method 7) :=
  ⟨⟨rfl, readings_selfDelimit.1 #[0x20, 0x80, 0x85, 0x15, 0x12, 0x49, 0x01, 0x0E, 0x41]
      _ ⟨⟨_, 8⟩, 0⟩ rfl⟩,
    ⟨rfl, readings_selfDelimit.2 #[0x25, 0x02, 0x01, 0x0E, 0x41, 0x1D, 0x08, 0x20]
      _ ⟨⟨_, 7⟩, 0⟩ rfl⟩⟩

end SignatureReader

end CilLoader
