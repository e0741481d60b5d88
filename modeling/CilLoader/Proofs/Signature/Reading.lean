import CilLoader.Proofs.Signature.Room
import CilLoader.Proofs.Signature.WrittenForms

/-!
# Reading written signatures

Whatever form a type is written in, it is read back, and the reader stops right behind it, if the
type is nested no deeper than the reader has room for. If it is nested deeper, the reader says so.
-/

namespace CilLoader

namespace SignatureCode

theorem toNat_byteOf {code : Nat} (isByte : code < 256) : (byteOf code).toNat = code :=
  UInt8.toNat_ofNat_of_lt' isByte

/-- Codes of types are neither modifiers nor marks of parameters. -/
def IsTypeCode (code : Nat) : Prop :=
  code < 256 ∧ ¬IsModifier code ∧ code ≠ sentinel

instance (code : Nat) : Decidable (IsTypeCode code) :=
  inferInstanceAs (Decidable (_ ∧ _))

theorem IsModifier.lt_and_ne {code : Nat} (modifier : IsModifier code) :
    code < 256 ∧ code ≠ sentinel := by
  rcases modifier with rfl | rfl <;> decide

theorem BodyForm.exists_typeCode {type : TypeSignature} {written : List UInt8}
    (form : BodyForm type written) :
    ∃ code rest, IsTypeCode code ∧ written = byteOf code :: rest := by
  cases form with
  | primitive type =>
      have typeCode : IsTypeCode type.code := by cases type <;> decide
      exact ⟨type.code, [], typeCode, rfl⟩
  | @named kind _ name _ =>
      have typeCode : IsTypeCode kind.code := by cases kind <;> decide
      exact ⟨kind.code, name, typeCode, rfl⟩
  | generic => exact ⟨_, _, by decide, rfl⟩
  | typeVariable => exact ⟨_, _, by decide, rfl⟩
  | methodVariable => exact ⟨_, _, by decide, rfl⟩
  | vector => exact ⟨_, _, by decide, rfl⟩
  | array => exact ⟨_, _, by decide, rfl⟩
  | pointer => exact ⟨_, _, by decide, rfl⟩
  | byRef => exact ⟨_, _, by decide, rfl⟩
  | pinned => exact ⟨_, _, by decide, rfl⟩
  | function => exact ⟨_, _, by decide, rfl⟩

theorem TypeForm.exists_unmarked {type : TypeSignature} {written : List UInt8}
    (form : TypeForm type written) :
    ∃ code rest, (code < 256 ∧ code ≠ sentinel) ∧ written = byteOf code :: rest := by
  rcases form with ⟨modifiers, body⟩
  cases modifiers with
  | none =>
      rcases body.exists_typeCode with ⟨code, rest, typeCode, rfl⟩
      exact ⟨code, rest, ⟨typeCode.1, typeCode.2.2⟩, rfl⟩
  | @more code _ _ _ modifier _ _ => exact ⟨code, _, modifier.lt_and_ne, rfl⟩

end SignatureCode

/-- The first byte of a method tells its convention. -/
theorem CallingConvention.Form.ofByte_eq {convention : CallingConvention} {isGeneric : Bool}
    {code : Nat} (form : convention.Form isGeneric code) :
    code < 256 ∧ code.testBit 4 = isGeneric ∧ ofByte code = convention := by
  rcases convention with ⟨hasThis, explicitThis, isVarArg⟩
  cases form with
  | @fixed kind isFixed known =>
      cases isFixed
      have kinds : ∀ kind < 5, ∀ isGeneric hasThis explicitThis,
          let code := flags ⟨hasThis, explicitThis, false⟩ isGeneric + kind
          code < 256 ∧ code.testBit 4 = isGeneric ∧
            ofByte code = ⟨hasThis, explicitThis, false⟩ := by decide
      exact kinds kind known isGeneric hasThis explicitThis
  | varying isVarying =>
      cases isVarying
      cases isGeneric <;> cases hasThis <;> cases explicitThis <;> decide

namespace Decoder

open SignatureCode

variable {α : Type}

/-! ## Marks and modifiers -/

theorem peek_of_holdsAt {data : Bytes} {position code : Nat} {rest : List UInt8}
    (isByte : code < 256) (holds : data.HoldsAt position (byteOf code :: rest)) :
    peek data position = (.ok code, position) := by
  have below : position < data.size := by
    have inside := holds.le_size
    rw [List.length_cons] at inside
    omega
  rw [peek, if_pos below, Bytes.byteAt, holds.1]
  simp only [toNat_byteOf isByte]

theorem byte_of_holdsAt {data : Bytes} {position code : Nat} {rest : List UInt8}
    (isByte : code < 256) (holds : data.HoldsAt position (byteOf code :: rest)) :
    byte data position = (.ok code, position + 1) := by
  rw [← List.singleton_append] at holds
  exact recovers_byte isByte data position (Bytes.holdsAt_append.mp holds).1

theorem modifiersUpTo_of_typeCode {code : Nat} (typeCode : IsTypeCode code) {rest : List UInt8}
    {data : Bytes} {position : Nat} (bound : Nat)
    (holds : data.HoldsAt position (byteOf code :: rest)) :
    modifiersUpTo bound data position = (.ok (), position) := by
  have other : ¬(code = requiredModifier ∨ code = optionalModifier) := typeCode.2.1
  cases bound with
  | zero => rfl
  | succ bound =>
      rw [modifiersUpTo, bind_of_ok (hasMore_of_holdsAt (List.cons_ne_nil _ _) holds), if_pos rfl,
        bind_of_ok (peek_of_holdsAt typeCode.1 holds), if_neg other]
      rfl

theorem modifiersUpTo_of_modifier {code : Nat} (modifier : IsModifier code) {token : Token}
    {name rest : List UInt8} (names : Compressed.TokenForm token name) {data : Bytes}
    {position bound : Nat} (holds : data.HoldsAt position (byteOf code :: (name ++ rest))) :
    modifiersUpTo (bound + 1) data position =
      modifiersUpTo bound data (position + 1 + name.length) := by
  have isByte := modifier.lt_and_ne.1
  have announced : code = requiredModifier ∨ code = optionalModifier := modifier
  have holdsName := (Bytes.holdsAt_append.mp holds.2).1
  rw [modifiersUpTo, bind_of_ok (hasMore_of_holdsAt (List.cons_ne_nil _ _) holds), if_pos rfl,
    bind_of_ok (peek_of_holdsAt isByte holds), if_pos announced,
    bind_of_ok (byte_of_holdsAt isByte holds),
    bind_of_ok (recovers_compressedToken names data _ holdsName)]

theorem modifiersUpTo_of_holdsAt {before : List UInt8} (form : ModifiersForm before) {code : Nat}
    (typeCode : IsTypeCode code) {rest : List UInt8} {data : Bytes} {position bound : Nat}
    (holds : data.HoldsAt position (before ++ byteOf code :: rest))
    (enough : before.length ≤ bound) :
    modifiersUpTo bound data position = (.ok (), position + before.length) := by
  induction form generalizing position bound with
  | none => exact modifiersUpTo_of_typeCode typeCode bound holds
  | @more modifierCode token name others modifier names _ induction =>
      rw [List.cons_append, List.append_assoc] at holds
      rw [List.length_cons, List.length_append] at enough ⊢
      have holdsOthers := (Bytes.holdsAt_append.mp holds.2).2
      cases bound with
      | zero => omega
      | succ bound =>
          have passed := induction holdsOthers (by omega : others.length ≤ bound)
          have samePosition : position + (name.length + others.length + 1) =
              position + 1 + name.length + others.length := by omega
          rw [modifiersUpTo_of_modifier modifier names holds, passed, samePosition]

/-- Modifiers are skipped wherever a type stands behind them. -/
theorem modifiers_of_holdsAt {before : List UInt8} (form : ModifiersForm before) {code : Nat}
    (typeCode : IsTypeCode code) {rest : List UInt8} {data : Bytes} {position : Nat}
    (holds : data.HoldsAt position (before ++ byteOf code :: rest)) :
    modifiers data position = (.ok (), position + before.length) := by
  have inside := (Bytes.holdsAt_append.mp holds).1.le_size
  have enough : before.length ≤ data.size - position := by omega
  exact modifiersUpTo_of_holdsAt form typeCode holds enough

theorem parameter_of_unmarked {type : Decoder TypeSignature} {code : Nat} {rest : List UInt8}
    (unmarked : code < 256 ∧ code ≠ sentinel) {data : Bytes} {position : Nat}
    (holds : data.HoldsAt position (byteOf code :: rest)) :
    parameter type data position = type data position := by
  rw [parameter, bind_of_ok (peek_of_holdsAt unmarked.1 holds), if_neg unmarked.2]

theorem parameter_of_marked {type : Decoder TypeSignature} {rest : List UInt8} {data : Bytes}
    {position : Nat} (holds : data.HoldsAt position (byteOf sentinel :: rest)) :
    parameter type data position = type data (position + 1) := by
  have isByte : sentinel < 256 := by decide
  rw [parameter, bind_of_ok (peek_of_holdsAt isByte holds), if_pos rfl,
    bind_of_ok (byte_of_holdsAt isByte holds)]

/-! ## The parts of a type -/

theorem recovers_times {item : Decoder α} {form : α → List UInt8 → Prop} {items : List α}
    {written : List UInt8}
    (each : ∀ {value bytes}, form value bytes → item.Recovers bytes value)
    (all : ItemsForm form items written) : (times items.length item).Recovers written items := by
  induction all with
  | nil => exact recovers_succeed []
  | @cons first items _ _ head _ induction =>
      exact (each head).bind (induction.map (first :: ·))

theorem recovers_counted {item : Decoder α} {form : α → List UInt8 → Prop} {items : List α}
    {written : List UInt8}
    (each : ∀ {value bytes}, form value bytes → item.Recovers bytes value)
    (form : CountedForm form items written) : (counted item).Recovers written items := by
  rcases form with ⟨length, all⟩
  exact (recovers_compressed length).bind (recovers_times each all)

section Within

variable {room nesting : Nat} {type : Decoder TypeSignature} {value : TypeSignature}
  {written : List UInt8}

theorem RecoversWithin.parameter_unmarked (within : RecoversWithin room nesting type written value)
    (form : TypeForm value written) :
    RecoversWithin room nesting (parameter type) written value := by
  rcases form.exists_unmarked with ⟨code, rest, unmarked, rfl⟩
  constructor
  · intro enough data position holds
    rw [parameter_of_unmarked unmarked holds]
    exact within.recovers enough data position holds
  · intro beyond data position holds
    rw [parameter_of_unmarked unmarked holds]
    exact within.exhausts beyond data position holds

theorem RecoversWithin.parameter_marked (within : RecoversWithin room nesting type written value) :
    RecoversWithin room nesting (parameter type) (byteOf sentinel :: written) value := by
  constructor
  · intro enough data position holds
    rw [parameter_of_marked holds, within.recovers enough data _ holds.2, List.length_cons,
      Nat.add_assoc, Nat.add_comm 1]
  · intro beyond data position holds
    rw [parameter_of_marked holds]
    exact within.exhausts beyond data _ holds.2

theorem RecoversWithin.arrayOver (within : RecoversWithin room nesting type written value)
    {rank : Nat} {sizes : List Nat} {lowerBounds : List Int}
    {rankWritten sizesWritten boundsWritten : List UInt8}
    (ranked : Compressed.Form rank rankWritten)
    (sized : CountedForm Compressed.Form sizes sizesWritten)
    (bounded : CountedForm Compressed.SignedForm lowerBounds boundsWritten) :
    RecoversWithin room nesting (arrayOver type)
      (written ++ (rankWritten ++ (sizesWritten ++ boundsWritten)))
      (.array value rank sizes lowerBounds) := by
  refine within.bindRecovers ((recovers_compressed ranked).bind ?_)
  refine (recovers_counted recovers_compressed sized).bind ?_
  exact (recovers_counted recovers_compressedSigned bounded).map
    (TypeSignature.array value rank sizes)

theorem RecoversWithin.genericOver {kind : NominalKind} {token : Token}
    {arguments : List TypeSignature} {name count : List UInt8}
    (names : Compressed.TokenForm token name) (nonempty : arguments ≠ [])
    (length : Compressed.Form arguments.length count)
    (within : RecoversWithin room nesting (times arguments.length type) written arguments) :
    RecoversWithin room nesting (genericOver type)
      (byteOf kind.code :: (name ++ (count ++ written))) (.generic kind token arguments) := by
  have isByte : kind.code < 256 := by cases kind <;> decide
  have some : arguments.length ≠ 0 := fun none => nonempty (List.length_eq_zero_iff.mp none)
  refine (recovers_byte isByte).bindWithin ?_
  rw [NominalKind.ofCode?_code]
  refine (recovers_compressedToken names).bindWithin ?_
  refine (recovers_compressed length).bindWithin ?_
  rw [if_neg some]
  exact within.map (TypeSignature.generic kind token)

theorem RecoversWithin.methodOver {convention : CallingConvention} {isGeneric : Bool}
    {code genericCount nestingRest : Nat} {parameters : List TypeSignature}
    {generics count rest : List UInt8} (call : convention.Form isGeneric code)
    (counted : (if isGeneric then compressed else succeed 0).Recovers generics genericCount)
    (length : Compressed.Form parameters.length count)
    (returned : RecoversWithin room nesting type written value)
    (within : RecoversWithin room nestingRest (times parameters.length (parameter type)) rest
      parameters) :
    RecoversWithin room (max nesting nestingRest) (methodOver type)
      (byteOf code :: (generics ++ (count ++ (written ++ rest))))
      (.mk convention genericCount value parameters) := by
  rcases call.ofByte_eq with ⟨isByte, announced, sameConvention⟩
  refine (recovers_byte isByte).bindWithin ?_
  rw [announced, sameConvention]
  cases isGeneric
  all_goals
    refine counted.bindWithin ?_
    refine (recovers_compressed length).bindWithin ?_
    exact returned.bind (within.map (MethodSignature.mk convention genericCount value))

end Within

/-- What follows the modifiers of a type. -/
def bodyWithin (room : Nat) : Decoder TypeSignature := do
  typeBody (typeWithin room) (← byte)

theorem RecoversWithin.behindCode {room nesting code : Nat} {type : TypeSignature}
    {written : List UInt8} (isByte : code < 256)
    (within : RecoversWithin room nesting (typeBody (typeWithin room) code) written type) :
    RecoversWithin room nesting (bodyWithin room) (byteOf code :: written) type :=
  (recovers_byte isByte).bindWithin within

theorem typeBody_primitive (type : Decoder TypeSignature) (primitive : PrimitiveType) :
    typeBody type primitive.code = succeed (.primitive primitive) := by
  rw [typeBody, PrimitiveType.ofCode?_code]

theorem typeBody_named (type : Decoder TypeSignature) (kind : NominalKind) :
    typeBody type kind.code = (do return .named kind (← compressedToken)) := by
  cases kind <;> rfl

end Decoder

/-! ## Types and methods -/

theorem TypeSignature.nesting_pos (type : TypeSignature) : 0 < type.nesting := by
  cases type <;> simp [TypeSignature.nesting]

open Decoder

namespace SignatureCode

theorem recoversWithin_of_body {room nesting : Nat} {type : TypeSignature}
    {before written : List UInt8} (modifiers : ModifiersForm before) (body : BodyForm type written)
    (within : RecoversWithin room nesting (bodyWithin room) written type) :
    RecoversWithin (room + 1) (nesting + 1) (typeWithin (room + 1)) (before ++ written) type := by
  rcases body.exists_typeCode with ⟨code, rest, typeCode, rfl⟩
  have skipped : ∀ data position, Bytes.HoldsAt data position (before ++ byteOf code :: rest) →
      typeWithin (room + 1) data position = bodyWithin room data (position + before.length) := by
    intro data position holds
    exact bind_of_ok (modifiers_of_holdsAt modifiers typeCode holds)
  constructor
  · intro enough data position holds
    have holdsBody := (Bytes.holdsAt_append.mp holds).2
    rw [skipped data position holds, within.recovers (by omega) data _ holdsBody,
      List.length_append, Nat.add_assoc]
  · intro beyond data position holds
    have holdsBody := (Bytes.holdsAt_append.mp holds).2
    rw [skipped data position holds]
    exact within.exhausts (by omega) data _ holdsBody

mutual
theorem TypeForm.recoversWithin {type : TypeSignature} {written : List UInt8} :
    TypeForm type written → ∀ room,
      RecoversWithin room type.nesting (typeWithin room) written type
  | .mk modifiers body, 0 => {
      recovers := fun enough => absurd enough (Nat.not_le_of_lt type.nesting_pos)
      exhausts := fun _ _ _ _ => rfl }
  | .mk modifiers body, room + 1 => by
      have within := recoversWithin_of_body modifiers body (body.recoversWithin room)
      rwa [Nat.sub_add_cancel type.nesting_pos] at within

theorem BodyForm.recoversWithin {type : TypeSignature} {written : List UInt8} :
    BodyForm type written → ∀ room,
      RecoversWithin room (type.nesting - 1) (bodyWithin room) written type
  | .primitive type, room => by
      apply RecoversWithin.behindCode (by cases type <;> decide)
      rw [typeBody_primitive]
      exact (recovers_succeed _).within room
  | @BodyForm.named kind _ _ names, room => by
      apply RecoversWithin.behindCode (by cases kind <;> decide)
      rw [typeBody_named]
      exact ((recovers_compressedToken names).map (TypeSignature.named kind)).within room
  | .generic names nonempty length inside, room =>
      .behindCode (by decide) (.genericOver names nonempty length (inside.recoversWithin room))
  | .typeVariable form, room =>
      .behindCode (by decide)
        (((recovers_compressed form).map TypeSignature.typeVariable).within room)
  | .methodVariable form, room =>
      .behindCode (by decide)
        (((recovers_compressed form).map TypeSignature.methodVariable).within room)
  | .vector inside, room =>
      .behindCode (by decide) ((inside.recoversWithin room).map TypeSignature.vector)
  | .array inside ranked sized bounded, room =>
      .behindCode (by decide) ((inside.recoversWithin room).arrayOver ranked sized bounded)
  | .pointer inside, room =>
      .behindCode (by decide) ((inside.recoversWithin room).map TypeSignature.pointer)
  | .byRef inside, room =>
      .behindCode (by decide) ((inside.recoversWithin room).map TypeSignature.byRef)
  | .pinned inside, room =>
      .behindCode (by decide) ((inside.recoversWithin room).map TypeSignature.pinned)
  | .function inside, room =>
      .behindCode (by decide) ((inside.recoversWithin room).map TypeSignature.function)

theorem TypesForm.recoversWithin {types : List TypeSignature} {written : List UInt8} :
    TypesForm types written → ∀ room,
      RecoversWithin room (nestingOfAll types) (times types.length (typeWithin room)) written types
  | .nil, room => (recovers_succeed []).within room
  | .cons head tail, room =>
      (head.recoversWithin room).bind ((tail.recoversWithin room).map (_ :: ·))

theorem ParametersForm.recoversWithin {types : List TypeSignature} {written : List UInt8} :
    ParametersForm types written → ∀ room,
      RecoversWithin room (nestingOfAll types)
        (times types.length (parameter (typeWithin room))) written types
  | .nil, room => (recovers_succeed []).within room
  | .plain head tail, room =>
      ((head.recoversWithin room).parameter_unmarked head).bind
        ((tail.recoversWithin room).map (_ :: ·))
  | .marked head tail, room =>
      (head.recoversWithin room).parameter_marked.bind
        ((tail.recoversWithin room).map (_ :: ·))

theorem MethodForm.recoversWithin {method : MethodSignature} {written : List UInt8} :
    MethodForm method written → ∀ room,
      RecoversWithin room method.nesting (methodWithin room) written method
  | .plain call length returned inside, room =>
      RecoversWithin.methodOver call (recovers_succeed 0) length (returned.recoversWithin room)
        (inside.recoversWithin room)
  | .generic call counted length returned inside, room =>
      RecoversWithin.methodOver call (recovers_compressed counted) length
        (returned.recoversWithin room) (inside.recoversWithin room)
end

end SignatureCode

namespace SignatureReader

open SignatureCode

theorem read_start {α : Type} {decoder : Nat → Decoder α} {nesting : Nat} {written : List UInt8}
    {value : α} (within : RecoversWithin 49 nesting (decoder 49) written value)
    (rest : List UInt8) :
    let data := (written ++ rest).toArray
    (nesting < 50 → (start data).read decoder = (.ok value, ⟨⟨data, written.length⟩, 0⟩)) ∧
      (50 ≤ nesting → ((start data).read decoder).1 = .error (.recursionLimit 50)) := by
  intro data
  have holds : Bytes.HoldsAt data 0 written :=
    (Bytes.holdsAt_append.mp (Bytes.holdsAt_toArray [] (written ++ rest))).1
  have run : ∀ {result stop}, decoder 49 data 0 = (result, stop) →
      (start data).cursor.run (decoder (start data).room) = (result, ⟨data, stop⟩) :=
    fun outcome => Cursor.run_of_eq outcome
  constructor
  · intro shallow
    have outcome := within.recovers (Nat.le_of_lt_succ shallow) data 0 holds
    rw [read, run outcome, Nat.zero_add]
    rfl
  · intro deep
    have failed := within.exhausts deep data 0 holds
    rcases outcome : decoder 49 data 0 with ⟨result, stop⟩
    rw [outcome] at failed
    cases failed
    rw [read, run outcome]
    rfl

/-- Every type and every method that can be written has a form. From whatever form a fresh reader
reads it back, if it is nested less than fifty deep, and stops right behind it. If it is nested
deeper, the reader answers that it is. -/
theorem read_written :
    (∀ type : TypeSignature, type.Writable → ∃ written, TypeForm type written) ∧
    (∀ type written rest, TypeForm type written →
      let data := (written ++ rest).toArray
      (type.nesting < 50 →
        (start data).readType = (.ok type, ⟨⟨data, written.length⟩, 0⟩)) ∧
      (50 ≤ type.nesting → (start data).readType.1 = .error (.recursionLimit 50))) ∧
    (∀ method : MethodSignature, method.Writable → ∃ written, MethodForm method written) ∧
    (∀ method written rest, MethodForm method written →
      let data := (written ++ rest).toArray
      (method.nesting < 50 →
        (start data).readMethod = (.ok method, ⟨⟨data, written.length⟩, 0⟩)) ∧
      (50 ≤ method.nesting → (start data).readMethod.1 = .error (.recursionLimit 50))) :=
  ⟨exists_typeForm, fun _ _ rest form => read_start (form.recoversWithin 49) rest,
    exists_methodForm, fun _ _ rest form => read_start (form.recoversWithin 49) rest⟩

/-- A pointer to methods with variable arguments. The second parameter starts these. -/
def formatter : TypeSignature :=
  .function (.mk ⟨true, false, true⟩ 0 (.primitive .void)
    [.primitive .string, .pointer (.methodVariable 300)])

/-- Before the second parameter there are the mark and a modifier. -/
def formatterWritten : List UInt8 :=
  [0x1B, 0x25, 0x02, 0x01, 0x0E, 0x41, 0x20, 0x15, 0x0F, 0x1E, 0x81, 0x2C]

open Compressed in
theorem read_written_formatter :
    formatter.Writable ∧ TypeForm formatter formatterWritten ∧
      (∃ written, TypeForm formatter written) ∧
      let data := (formatterWritten ++ [0xFF]).toArray
      (start data).readType = (.ok formatter, ⟨⟨data, 12⟩, 0⟩) := by
  have writable : formatter.Writable :=
    ⟨(by decide : Writable 0), (by decide : Writable 2), trivial, trivial,
      (by decide : Writable 300), trivial⟩
  have count : Form 2 (encodeIn 1 2) := .inWidth (by decide)
  have string : TypeForm (.primitive .string) [0x0E] := .mk .none (.primitive .string)
  have name : TokenForm ⟨0x01000005⟩ (encodeIn 1 21) :=
    .reference (by decide) (.inWidth (by decide))
  have index : Form 300 (encodeIn 2 300) := .inWidth (by decide)
  have pointer : TypeForm (.pointer (.methodVariable 300)) _ :=
    .mk (.more (.inr rfl) name .none) (.pointer (.mk .none (.methodVariable index)))
  have form : TypeForm formatter formatterWritten :=
    .mk .none (.function (.plain (.varying rfl) (by exact count) (.mk .none (.primitive .void))
      (.plain string (.marked pointer .nil))))
  rcases read_written with ⟨exists_form, reads, _⟩
  exact ⟨writable, form, exists_form formatter writable,
    (reads formatter formatterWritten [0xFF] form).1 (by decide)⟩

end SignatureReader

end CilLoader
