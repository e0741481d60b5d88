import CilLoader.Proofs.Bytes.Accounted
import CilLoader.Proofs.Signature.SelfDelimiting
import CilLoader.Proofs.Signature.WrittenForms

/-!
# How large a decoded signature is

The counts in a signature may be as large as a compressed number can be. Still a signature has no
more types, sizes and bounds than bytes, because each of them takes a byte of its own. How deep
types are nested is limited by the room of the reader.
-/

namespace CilLoader

/-! ## Parts -/

mutual
/-- The types that a type consists of, at all depths, the type itself being the first. -/
def TypeSignature.parts : TypeSignature → List TypeSignature
  | .primitive type => [.primitive type]
  | .named kind token => [.named kind token]
  | .generic kind token arguments => .generic kind token arguments :: partsOfAll arguments
  | .typeVariable index => [.typeVariable index]
  | .methodVariable index => [.methodVariable index]
  | .vector element => .vector element :: element.parts
  | .array element rank sizes lowerBounds =>
    .array element rank sizes lowerBounds :: element.parts
  | .pointer target => .pointer target :: target.parts
  | .byRef target => .byRef target :: target.parts
  | .pinned target => .pinned target :: target.parts
  | .function method => .function method :: method.parts

def MethodSignature.parts : MethodSignature → List TypeSignature
  | .mk _ _ returnType parameters => returnType.parts ++ partsOfAll parameters

def partsOfAll : List TypeSignature → List TypeSignature
  | [] => []
  | type :: types => type.parts ++ partsOfAll types
end

theorem TypeSignature.parts_eq_cons (type : TypeSignature) :
    type.parts = type :: type.parts.tail := by
  cases type <;> rfl

/-- A type by itself counts as one, and an array also counts its sizes and its lower bounds. -/
def TypeSignature.bulk : TypeSignature → Nat
  | .array _ _ sizes lowerBounds => 1 + sizes.length + lowerBounds.length
  | _ => 1

/-- How many types there are, together with all sizes and lower bounds of arrays. -/
def extentOf : List TypeSignature → Nat
  | [] => 0
  | type :: types => type.bulk + extentOf types

def TypeSignature.extent (type : TypeSignature) : Nat :=
  extentOf type.parts

def MethodSignature.extent (method : MethodSignature) : Nat :=
  extentOf method.parts

theorem extentOf_append (first second : List TypeSignature) :
    extentOf (first ++ second) = extentOf first + extentOf second := by
  induction first with
  | nil => simp [extentOf]
  | cons type types induction => simp [extentOf, induction, Nat.add_assoc]

theorem extentOf_partsOfAll_cons (type : TypeSignature) (types : List TypeSignature) :
    extentOf (partsOfAll (type :: types)) = type.extent + extentOf (partsOfAll types) :=
  extentOf_append type.parts (partsOfAll types)

theorem MethodSignature.extent_mk (convention : CallingConvention) (genericCount : Nat)
    (returnType : TypeSignature) (parameters : List TypeSignature) :
    (MethodSignature.mk convention genericCount returnType parameters).extent =
      returnType.extent + extentOf (partsOfAll parameters) :=
  extentOf_append returnType.parts (partsOfAll parameters)

theorem TypeSignature.extent_array (element : TypeSignature) (rank : Nat) (sizes : List Nat)
    (lowerBounds : List Int) :
    (TypeSignature.array element rank sizes lowerBounds).extent =
      1 + sizes.length + lowerBounds.length + element.extent := rfl

theorem TypeSignature.extent_generic (kind : NominalKind) (token : Token)
    (arguments : List TypeSignature) :
    (TypeSignature.generic kind token arguments).extent =
      1 + extentOf (partsOfAll arguments) := rfl

theorem TypeSignature.extent_function (method : MethodSignature) :
    (TypeSignature.function method).extent = 1 + method.extent := rfl

namespace Decoder

open SignatureCode

/-- Paid for by the bytes that it has taken, and not deeper than the room. -/
def Affordable (room taken : Nat) (type : TypeSignature) : Prop :=
  type.extent ≤ taken ∧ type.nesting ≤ room

def AllAffordable (room taken : Nat) (types : List TypeSignature) : Prop :=
  extentOf (partsOfAll types) ≤ taken ∧ nestingOfAll types ≤ room

section Grammar

variable {type : Decoder TypeSignature} {room : Nat}

/-- Types that are read one after another. -/
theorem accounts_times (accounts : Accounts type (Affordable room)) (count : Nat) :
    Accounts (times count type) (AllAffordable room) := by
  apply accounts.times
  · exact ⟨Nat.le_refl 0, Nat.zero_le room⟩
  · intro taken type rest types here there
    rw [Affordable] at here
    rw [AllAffordable] at there ⊢
    rw [extentOf_partsOfAll_cons, nestingOfAll]
    omega

/-- The mark in front of a parameter takes a byte of its own. -/
theorem accounts_parameter (accounts : Accounts type (Affordable room)) :
    Accounts (parameter type) (Affordable room) := by
  apply accounts_peek.bind
  intro taken code nothing
  subst nothing
  split
  case isTrue =>
    apply consumes_byte.accounts.bind
    intro mark code positive
    apply accounts.imp
    intro rest type affordable
    rw [Affordable] at affordable ⊢
    omega
  case isFalse =>
    simpa using accounts

/-- Two bytes are taken for the calling convention and for the number of parameters. -/
theorem accounts_methodOver (accounts : Accounts type (Affordable room)) :
    Accounts (methodOver type) fun taken method =>
      method.extent + 2 ≤ taken ∧ method.nesting ≤ room := by
  apply consumes_byte.accounts.bind
  intro first convention positive
  -- The number of generic parameters is read or left out, and both go on alike.
  have goesOn : ∀ taken genericCount : Nat, Accounts
      (do
        let parameterCount ← compressed
        let returnType ← type
        let parameters ← times parameterCount (parameter type)
        return MethodSignature.mk (CallingConvention.ofByte convention) genericCount returnType
          parameters)
      fun more method => method.extent + 2 ≤ first + (taken + more) ∧ method.nesting ≤ room := by
    intro second genericCount
    apply consumes_compressed.accounts.bind
    intro third parameterCount counted
    apply accounts.bind
    intro fourth returnType returned
    apply (accounts_times (accounts_parameter accounts) parameterCount).map
    intro fifth parameters inside
    rw [Affordable] at returned
    rw [AllAffordable] at inside
    rw [MethodSignature.extent_mk, MethodSignature.nesting]
    omega
  dsimp only
  split
  · exact consumes_compressed.accounts.bind fun taken count _ => goesOn taken count
  · exact (Plain.succeed 0).forward.accounts.bind fun taken count _ => goesOn taken count

/-- What follows the code of a type pays for all but the type itself. -/
def AffordableBody (room taken : Nat) (type : TypeSignature) : Prop :=
  type.extent ≤ taken + 1 ∧ type.nesting ≤ room + 1

/-- A type with nothing inside. -/
theorem accounts_leaf {α : Type} {decoder : Decoder α} {leaf : α → TypeSignature}
    (forward : Forward decoder) (single : ∀ value, (leaf value).extent = 1)
    (shallow : ∀ value, (leaf value).nesting = 1) :
    Accounts (do return leaf (← decoder)) (AffordableBody room) := by
  apply forward.accounts.map
  intro taken value _
  rw [AffordableBody, single, shallow]
  omega

/-- A type around another one. -/
theorem accounts_wrapped {wrap : TypeSignature → TypeSignature}
    (accounts : Accounts type (Affordable room))
    (larger : ∀ inside, (wrap inside).extent = 1 + inside.extent)
    (deeper : ∀ inside, (wrap inside).nesting = inside.nesting + 1) :
    Accounts (do return wrap (← type)) (AffordableBody room) := by
  apply accounts.map
  intro taken inside affordable
  rw [Affordable] at affordable
  rw [AffordableBody, larger, deeper]
  omega

theorem accounts_arrayOver (accounts : Accounts type (Affordable room)) :
    Accounts (arrayOver type) (AffordableBody room) := by
  apply accounts.bind
  intro first element affordable
  apply consumes_compressed.accounts.bind
  intro second rank _
  apply consumes_compressed.accounts_counted.bind
  intro third sizes sized
  apply consumes_compressedSigned.accounts_counted.map
  intro fourth lowerBounds bounded
  rw [Affordable] at affordable
  rw [AffordableBody, TypeSignature.extent_array, TypeSignature.nesting]
  omega

theorem accounts_genericOver (accounts : Accounts type (Affordable room)) :
    Accounts (genericOver type) (AffordableBody room) := by
  apply consumes_byte.accounts.bind
  intro first head _
  split
  · exact accounts_fail _ _
  · apply plain_compressedToken.forward.accounts.bind
    intro second token _
    apply consumes_compressed.accounts.bind
    intro third count _
    split
    · exact accounts_fail _ _
    · apply (accounts_times accounts count).map
      intro fourth arguments affordable
      rw [AllAffordable] at affordable
      rw [AffordableBody, TypeSignature.extent_generic, TypeSignature.nesting]
      omega

theorem accounts_functionOver (accounts : Accounts type (Affordable room)) :
    Accounts (do return .function (← methodOver type)) (AffordableBody room) := by
  apply (accounts_methodOver accounts).map
  intro taken method affordable
  rw [AffordableBody, TypeSignature.extent_function, TypeSignature.nesting]
  omega

theorem accounts_typeBody (accounts : Accounts type (Affordable room)) (code : Nat) :
    Accounts (typeBody type code) (AffordableBody room) := by
  rw [typeBody]
  split
  · exact accounts_succeed ⟨Nat.le_refl 1, Nat.le_add_left 1 room⟩
  · exact accounts_leaf plain_compressedToken.forward (fun _ => rfl) (fun _ => rfl)
  · split
    · exact accounts_wrapped accounts (fun _ => rfl) (fun _ => rfl)
    split
    · exact accounts_wrapped accounts (fun _ => rfl) (fun _ => rfl)
    split
    · exact accounts_wrapped accounts (fun _ => rfl) (fun _ => rfl)
    split
    · exact accounts_wrapped accounts (fun _ => rfl) (fun _ => rfl)
    split
    · exact accounts_leaf consumes_compressed.forward (fun _ => rfl) (fun _ => rfl)
    split
    · exact accounts_leaf consumes_compressed.forward (fun _ => rfl) (fun _ => rfl)
    split
    · exact accounts_arrayOver accounts
    split
    · exact accounts_genericOver accounts
    split
    · exact accounts_functionOver accounts
    · exact accounts_fail _ _

end Grammar

theorem accounts_typeWithin (room : Nat) : Accounts (typeWithin room) (Affordable room) := by
  induction room with
  | zero => exact accounts_fail _ _
  | succ room induction =>
      rw [typeWithin_succ]
      apply consumes_typeCode.accounts.bind
      intro taken code positive
      apply (accounts_typeBody induction code).imp
      intro more type affordable
      rw [AffordableBody] at affordable
      rw [Affordable]
      omega

theorem accounts_methodWithin (room : Nat) :
    Accounts (methodWithin room) fun taken method =>
      method.extent + 2 ≤ taken ∧ method.nesting ≤ room :=
  accounts_methodOver (accounts_typeWithin room)

end Decoder

namespace SignatureReader

open Decoder SignatureCode

/-- A reading succeeds exactly as its decoder does. -/
theorem read_eq_ok_iff {α : Type} {decoder : Nat → Decoder α} {reader after : SignatureReader}
    {value : α} :
    reader.read decoder = (.ok value, after) ↔
      decoder reader.room reader.cursor.data reader.cursor.position =
          (.ok value, after.cursor.position) ∧
        after = ⟨⟨reader.cursor.data, after.cursor.position⟩, reader.nesting⟩ := by
  rcases outcome : decoder reader.room reader.cursor.data reader.cursor.position with
    ⟨result, stop⟩
  rw [read_of_outcome reader decoder outcome]
  constructor
  · intro same
    cases same
    exact ⟨rfl, rfl⟩
  · intro ⟨same, behind⟩
    cases same
    exact Prod.ext rfl behind.symm

/-- A reader at the start of some data accounts for what it reads by the place where it stops. -/
theorem accounted_start {α : Type} {decoder : Nat → Decoder α} {property : Nat → Nat → α → Prop}
    (accounts : ∀ room, Accounts (decoder room) (property room))
    (delimited : ∀ room, (decoder room).Delimited) {data : Bytes} {value : α}
    {after : SignatureReader} (success : (start data).read decoder = (.ok value, after)) :
    after.cursor.position ≤ data.size ∧
      property (depthLimit - 1) after.cursor.position value := by
  have outcome := (read_eq_ok_iff.mp success).1
  constructor
  · exact (delimited _ data 0 value _ (Nat.zero_le _) outcome).inside
  · obtain ⟨taken, behind, holds⟩ := accounts _ data 0 value _ outcome
    rw [behind, Nat.zero_add]
    exact holds

/-- Whatever numbers of parameters, arguments, sizes and bounds the data declare, what is read from
them is no larger than the bytes that it has consumed, and less deep than the limit. -/
theorem extent_le_consumed :
    (∀ (data : Bytes) (type : TypeSignature) (after : SignatureReader),
      (start data).readType = (.ok type, after) →
        type.extent ≤ after.cursor.position ∧ after.cursor.position ≤ data.size ∧
          type.nesting < depthLimit) ∧
    ∀ (data : Bytes) (method : MethodSignature) (after : SignatureReader),
      (start data).readMethod = (.ok method, after) →
        method.extent + 2 ≤ after.cursor.position ∧ after.cursor.position ≤ data.size ∧
          method.nesting < depthLimit := by
  constructor
  · intro data type after success
    obtain ⟨inside, extent, nesting⟩ :=
      accounted_start accounts_typeWithin delimited_typeWithin success
    exact ⟨extent, inside, Nat.lt_succ_of_le nesting⟩
  · intro data method after success
    obtain ⟨inside, extent, nesting⟩ :=
      accounted_start accounts_methodWithin delimited_methodWithin success
    exact ⟨extent, inside, Nat.lt_succ_of_le nesting⟩

/-- An array of rank two with one size and one lower bound, and a generic method. The array has two
types, a size and a bound in seven bytes. -/
theorem extent_le_consumed_array :
    (let data : Bytes := #[0x14, 0x08, 0x02, 0x01, 0x05, 0x01, 0x00]
      let type : TypeSignature := .array (.primitive .i4) 2 [5] [0]
      (start data).readType = (.ok type, ⟨⟨data, 7⟩, 0⟩) ∧
        type.extent = 4 ∧ 4 ≤ 7 ∧ 7 ≤ data.size ∧ type.nesting < depthLimit) ∧
    (let data : Bytes := #[0x30, 0x01, 0x01, 0x1E, 0x00, 0x1C]
      let method : MethodSignature :=
        .mk ⟨true, false, false⟩ 1 (.methodVariable 0) [.primitive .object]
      (start data).readMethod = (.ok method, ⟨⟨data, 6⟩, 0⟩) ∧
        method.extent = 2 ∧ 2 + 2 ≤ 6 ∧ 6 ≤ data.size ∧ method.nesting < depthLimit) :=
  ⟨⟨rfl, rfl, extent_le_consumed.1 #[0x14, 0x08, 0x02, 0x01, 0x05, 0x01, 0x00]
      (.array (.primitive .i4) 2 [5] [0]) ⟨⟨_, 7⟩, 0⟩ rfl⟩,
    ⟨rfl, rfl, extent_le_consumed.2 #[0x30, 0x01, 0x01, 0x1E, 0x00, 0x1C]
      (.mk ⟨true, false, false⟩ 1 (.methodVariable 0) [.primitive .object]) ⟨⟨_, 6⟩, 0⟩ rfl⟩⟩

end SignatureReader

end CilLoader
