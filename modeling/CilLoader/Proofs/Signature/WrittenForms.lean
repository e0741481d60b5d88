import CilLoader.Signature.Decoder
import CilLoader.Proofs.Bytes.CompressedForms

/-!
# Written forms of signatures

The grammar of signatures: which bytes stand for a type or a method. One type has many forms, since
custom modifiers may stand before every type, a mark before every parameter, and each number may
be written in several widths. A type has a form if its numbers and tokens can be written at all.
-/

namespace CilLoader

/-! ## Nesting -/

mutual
/-- How deep a type is nested. A type that has no types inside is one deep. -/
def TypeSignature.nesting : TypeSignature → Nat
  | .primitive _ => 1
  | .named _ _ => 1
  | .generic _ _ arguments => nestingOfAll arguments + 1
  | .typeVariable _ => 1
  | .methodVariable _ => 1
  | .vector element => element.nesting + 1
  | .array element _ _ _ => element.nesting + 1
  | .pointer target => target.nesting + 1
  | .byRef target => target.nesting + 1
  | .pinned target => target.nesting + 1
  | .function method => method.nesting + 1

/-- A method is no type itself: it is nested as deep as the types it is made of. -/
def MethodSignature.nesting : MethodSignature → Nat
  | .mk _ _ returnType parameters => max returnType.nesting (nestingOfAll parameters)

def nestingOfAll : List TypeSignature → Nat
  | [] => 0
  | type :: types => max type.nesting (nestingOfAll types)
end

/-! ## The grammar -/

namespace CallingConvention

/-- The bits beside the kind of call: whether there are generic parameters, and what is said about
the receiver. -/
def flags (convention : CallingConvention) (isGeneric : Bool) : Nat :=
  (if isGeneric then 0x10 else 0) + (if convention.hasThis then 0x20 else 0) +
    (if convention.explicitThis then 0x40 else 0)

/-- The first byte of a method. Besides the call with variable arguments there are the default one
and four unmanaged ones. -/
inductive Form (convention : CallingConvention) (isGeneric : Bool) : Nat → Prop where
  | fixed {kind : Nat} (isFixed : convention.isVarArg = false) (known : kind < 5) :
      Form convention isGeneric (convention.flags isGeneric + kind)
  | varying (isVarying : convention.isVarArg = true) :
      Form convention isGeneric (convention.flags isGeneric + 5)

end CallingConvention

namespace SignatureCode

def byteOf (code : Nat) : UInt8 :=
  UInt8.ofNat code

def IsModifier (code : Nat) : Prop :=
  code = requiredModifier ∨ code = optionalModifier

instance (code : Nat) : Decidable (IsModifier code) :=
  inferInstanceAs (Decidable (_ ∨ _))

/-- Any number of custom modifiers, each naming a type. -/
inductive ModifiersForm : List UInt8 → Prop where
  | none : ModifiersForm []
  | more {code : Nat} {token : Token} {name rest : List UInt8} (modifier : IsModifier code)
      (names : Compressed.TokenForm token name) (others : ModifiersForm rest) :
      ModifiersForm (byteOf code :: (name ++ rest))

inductive ItemsForm {α : Type} (form : α → List UInt8 → Prop) : List α → List UInt8 → Prop where
  | nil : ItemsForm form [] []
  | cons {item : α} {items : List α} {first rest : List UInt8} (head : form item first)
      (tail : ItemsForm form items rest) : ItemsForm form (item :: items) (first ++ rest)

/-- A list behind its length. -/
inductive CountedForm {α : Type} (form : α → List UInt8 → Prop) (items : List α) :
    List UInt8 → Prop where
  | mk {count written : List UInt8} (length : Compressed.Form items.length count)
      (all : ItemsForm form items written) : CountedForm form items (count ++ written)

mutual
/-- A type behind its custom modifiers. -/
inductive TypeForm : TypeSignature → List UInt8 → Prop where
  | mk {type : TypeSignature} {before written : List UInt8} (modifiers : ModifiersForm before)
      (body : BodyForm type written) : TypeForm type (before ++ written)

/-- A type from its code on. -/
inductive BodyForm : TypeSignature → List UInt8 → Prop where
  | primitive (type : PrimitiveType) : BodyForm (.primitive type) [byteOf type.code]
  | named {kind : NominalKind} {token : Token} {name : List UInt8}
      (names : Compressed.TokenForm token name) :
      BodyForm (.named kind token) (byteOf kind.code :: name)
  | generic {kind : NominalKind} {token : Token} {arguments : List TypeSignature}
      {name count written : List UInt8} (names : Compressed.TokenForm token name)
      (nonempty : arguments ≠ []) (length : Compressed.Form arguments.length count)
      (inside : TypesForm arguments written) :
      BodyForm (.generic kind token arguments)
        (byteOf generic :: byteOf kind.code :: (name ++ (count ++ written)))
  | typeVariable {index : Nat} {written : List UInt8} (form : Compressed.Form index written) :
      BodyForm (.typeVariable index) (byteOf typeVariable :: written)
  | methodVariable {index : Nat} {written : List UInt8} (form : Compressed.Form index written) :
      BodyForm (.methodVariable index) (byteOf methodVariable :: written)
  | vector {element : TypeSignature} {written : List UInt8} (inside : TypeForm element written) :
      BodyForm (.vector element) (byteOf vector :: written)
  | array {element : TypeSignature} {rank : Nat} {sizes : List Nat} {lowerBounds : List Int}
      {written rankWritten sizesWritten boundsWritten : List UInt8}
      (inside : TypeForm element written) (ranked : Compressed.Form rank rankWritten)
      (sized : CountedForm Compressed.Form sizes sizesWritten)
      (bounded : CountedForm Compressed.SignedForm lowerBounds boundsWritten) :
      BodyForm (.array element rank sizes lowerBounds)
        (byteOf array :: (written ++ (rankWritten ++ (sizesWritten ++ boundsWritten))))
  | pointer {target : TypeSignature} {written : List UInt8} (inside : TypeForm target written) :
      BodyForm (.pointer target) (byteOf pointer :: written)
  | byRef {target : TypeSignature} {written : List UInt8} (inside : TypeForm target written) :
      BodyForm (.byRef target) (byteOf byRef :: written)
  | pinned {target : TypeSignature} {written : List UInt8} (inside : TypeForm target written) :
      BodyForm (.pinned target) (byteOf pinned :: written)
  | function {method : MethodSignature} {written : List UInt8}
      (inside : MethodForm method written) :
      BodyForm (.function method) (byteOf function :: written)

inductive TypesForm : List TypeSignature → List UInt8 → Prop where
  | nil : TypesForm [] []
  | cons {type : TypeSignature} {types : List TypeSignature} {first rest : List UInt8}
      (head : TypeForm type first) (tail : TypesForm types rest) :
      TypesForm (type :: types) (first ++ rest)

/-- Parameters, each with or without the mark that starts the variable arguments. -/
inductive ParametersForm : List TypeSignature → List UInt8 → Prop where
  | nil : ParametersForm [] []
  | plain {type : TypeSignature} {types : List TypeSignature} {first rest : List UInt8}
      (head : TypeForm type first) (tail : ParametersForm types rest) :
      ParametersForm (type :: types) (first ++ rest)
  | marked {type : TypeSignature} {types : List TypeSignature} {first rest : List UInt8}
      (head : TypeForm type first) (tail : ParametersForm types rest) :
      ParametersForm (type :: types) (byteOf sentinel :: (first ++ rest))

/-- A method. The number of its generic parameters is written only if it says to have some. -/
inductive MethodForm : MethodSignature → List UInt8 → Prop where
  | plain {convention : CallingConvention} {code : Nat} {returnType : TypeSignature}
      {parameters : List TypeSignature} {count result written : List UInt8}
      (call : convention.Form false code) (length : Compressed.Form parameters.length count)
      (returned : TypeForm returnType result) (inside : ParametersForm parameters written) :
      MethodForm (.mk convention 0 returnType parameters)
        (byteOf code :: (count ++ (result ++ written)))
  | generic {convention : CallingConvention} {code genericCount : Nat}
      {returnType : TypeSignature} {parameters : List TypeSignature}
      {generics count result written : List UInt8}
      (call : convention.Form true code) (counted : Compressed.Form genericCount generics)
      (length : Compressed.Form parameters.length count)
      (returned : TypeForm returnType result) (inside : ParametersForm parameters written) :
      MethodForm (.mk convention genericCount returnType parameters)
        (byteOf code :: (generics ++ (count ++ (result ++ written))))
end

end SignatureCode

/-! ## What can be written -/

mutual
/-- All numbers in the type can be compressed, all tokens are those of types, and every generic
type has arguments. -/
def TypeSignature.Writable : TypeSignature → Prop
  | .primitive _ => True
  | .named _ token => Compressed.TokenWritable token
  | .generic _ token arguments =>
    Compressed.TokenWritable token ∧ arguments ≠ [] ∧ Compressed.Writable arguments.length ∧
      AllWritable arguments
  | .typeVariable index => Compressed.Writable index
  | .methodVariable index => Compressed.Writable index
  | .vector element => element.Writable
  | .array element rank sizes lowerBounds =>
    element.Writable ∧ Compressed.Writable rank ∧
      (Compressed.Writable sizes.length ∧ ∀ size ∈ sizes, Compressed.Writable size) ∧
      Compressed.Writable lowerBounds.length ∧
        ∀ bound ∈ lowerBounds, Compressed.SignedWritable bound
  | .pointer target => target.Writable
  | .byRef target => target.Writable
  | .pinned target => target.Writable
  | .function method => method.Writable

def MethodSignature.Writable : MethodSignature → Prop
  | .mk _ genericCount returnType parameters =>
    Compressed.Writable genericCount ∧ Compressed.Writable parameters.length ∧
      returnType.Writable ∧ AllWritable parameters

def AllWritable : List TypeSignature → Prop
  | [] => True
  | type :: types => type.Writable ∧ AllWritable types
end

theorem CallingConvention.exists_form (convention : CallingConvention) (isGeneric : Bool) :
    ∃ code, convention.Form isGeneric code := by
  cases isVarArg : convention.isVarArg with
  | false => exact ⟨_, .fixed isVarArg (by decide : 0 < 5)⟩
  | true => exact ⟨_, .varying isVarArg⟩

namespace SignatureCode

theorem exists_itemsForm {α : Type} {form : α → List UInt8 → Prop} {items : List α}
    (each : ∀ item ∈ items, ∃ written, form item written) :
    ∃ written, ItemsForm form items written := by
  induction items with
  | nil => exact ⟨[], .nil⟩
  | cons item items induction =>
      rcases each item List.mem_cons_self with ⟨first, head⟩
      rcases induction fun other member => each other (List.mem_cons_of_mem item member) with
          ⟨rest, tail⟩
      exact ⟨first ++ rest, .cons head tail⟩

theorem exists_countedForm {α : Type} {form : α → List UInt8 → Prop} {items : List α}
    (length : Compressed.Writable items.length)
    (each : ∀ item ∈ items, ∃ written, form item written) :
    ∃ written, CountedForm form items written := by
  rcases exists_itemsForm each with ⟨written, all⟩
  exact ⟨_, .mk (Compressed.form_encode length) all⟩

theorem TypesForm.unmarked {types : List TypeSignature} {written : List UInt8} :
    TypesForm types written → ParametersForm types written
  | .nil => .nil
  | .cons head tail => .plain head tail.unmarked

mutual
theorem exists_typeForm (type : TypeSignature) (writable : type.Writable) :
    ∃ written, TypeForm type written := by
  suffices body : ∃ written, BodyForm type written by
    rcases body with ⟨written, body⟩
    exact ⟨[] ++ written, .mk .none body⟩
  cases type with
  | primitive type => exact ⟨_, .primitive type⟩
  | named kind token =>
      rcases Compressed.exists_tokenForm writable with ⟨name, names⟩
      exact ⟨_, .named names⟩
  | generic kind token arguments =>
      rcases writable with ⟨token, nonempty, length, inside⟩
      rcases Compressed.exists_tokenForm token with ⟨name, names⟩
      rcases exists_typesForm arguments inside with ⟨written, inside⟩
      exact ⟨_, .generic names nonempty (Compressed.form_encode length) inside⟩
  | typeVariable index => exact ⟨_, .typeVariable (Compressed.form_encode writable)⟩
  | methodVariable index => exact ⟨_, .methodVariable (Compressed.form_encode writable)⟩
  | vector element =>
      rcases exists_typeForm element writable with ⟨written, inside⟩
      exact ⟨_, .vector inside⟩
  | array element rank sizes lowerBounds =>
      rcases writable with ⟨inside, ranked, ⟨sizesLength, eachSize⟩, boundsLength, eachBound⟩
      rcases exists_typeForm element inside with ⟨written, inside⟩
      have sizeForms : ∀ size ∈ sizes, ∃ written, Compressed.Form size written :=
        fun size member => ⟨_, Compressed.form_encode (eachSize size member)⟩
      have boundForms : ∀ bound ∈ lowerBounds, ∃ written, Compressed.SignedForm bound written :=
        fun bound member => ⟨_, Compressed.signedForm_encodeSigned (eachBound bound member)⟩
      rcases exists_countedForm sizesLength sizeForms with ⟨sizesWritten, sized⟩
      rcases exists_countedForm boundsLength boundForms with ⟨boundsWritten, bounded⟩
      exact ⟨_, .array inside (Compressed.form_encode ranked) sized bounded⟩
  | pointer target =>
      rcases exists_typeForm target writable with ⟨written, inside⟩
      exact ⟨_, .pointer inside⟩
  | byRef target =>
      rcases exists_typeForm target writable with ⟨written, inside⟩
      exact ⟨_, .byRef inside⟩
  | pinned target =>
      rcases exists_typeForm target writable with ⟨written, inside⟩
      exact ⟨_, .pinned inside⟩
  | function method =>
      rcases exists_methodForm method writable with ⟨written, inside⟩
      exact ⟨_, .function inside⟩

theorem exists_methodForm (method : MethodSignature) (writable : method.Writable) :
    ∃ written, MethodForm method written := by
  rcases method with ⟨convention, genericCount, returnType, parameters⟩
  rcases writable with ⟨generics, length, returned, inside⟩
  rcases convention.exists_form true with ⟨code, call⟩
  rcases exists_typeForm returnType returned with ⟨result, returned⟩
  rcases exists_typesForm parameters inside with ⟨written, inside⟩
  exact ⟨_, .generic call (Compressed.form_encode generics) (Compressed.form_encode length)
    returned inside.unmarked⟩

theorem exists_typesForm (types : List TypeSignature) (writable : AllWritable types) :
    ∃ written, TypesForm types written := by
  cases types with
  | nil => exact ⟨[], .nil⟩
  | cons type types =>
      rcases exists_typeForm type writable.1 with ⟨first, head⟩
      rcases exists_typesForm types writable.2 with ⟨rest, tail⟩
      exact ⟨_, .cons head tail⟩
end

end SignatureCode

end CilLoader
