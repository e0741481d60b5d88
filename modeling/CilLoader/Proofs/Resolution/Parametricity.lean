import CilLoader.Context.Resolution

/-!
# Resolution with related references

The evaluation of a signature puts references together and does nothing else with them. So what
relates two ways to resolve references relates the evaluations too. A property of actions is the
case of a relation that looks at one side only.
-/

namespace CilLoader

namespace Bounded

open CilLoader.Action

variable [ExecutableParser]

/-- A relation of actions that holds of all that an evaluation is made of. -/
structure Parametric (related : {α : Type} → Bounded α → Bounded α → Prop) : Prop where
  giveUp : ∀ {α : Type} (action : Bounded α), related giveUp action
  pure : ∀ {α : Type} (value : α), related (pure value) (pure value)
  bind : ∀ {α β : Type} {first first' : Bounded α} {next next' : α → Bounded β},
    related first first' → (∀ value, related (next value) (next' value)) →
      related (first >>= next) (first' >>= next')
  primitive : ∀ type, related (ofAction (resolvePrimitive type)) (ofAction (resolvePrimitive type))
  head : ∀ token type,
    related (ofAction (genericHead token type)) (ofAction (genericHead token type))
  decoded : ∀ {α : Type} (result : Except Error α),
    related (ofAction (ofExcept result)) (ofAction (ofExcept result))
  direct : ∀ module token,
    related (ofAction (directReference module token)) (ofAction (directReference module token))

namespace Parametric

variable {related : {α : Type} → Bounded α → Bounded α → Prop}

mutual
theorem resolveSignatureWith (parametric : Parametric related)
    {reference reference' : Token → Bounded TypeDesc}
    (references : ∀ token, related (reference token) (reference' token))
    (signature : TypeSignature) :
    related (Bounded.resolveSignatureWith reference signature)
      (Bounded.resolveSignatureWith reference' signature) := by
  cases signature with
  | primitive type => exact parametric.primitive type
  | named _ token => exact references token
  | generic _ token arguments =>
      apply parametric.bind (references token)
      intro type
      apply parametric.bind (parametric.head token type)
      intro definition
      exact parametric.bind (resolveSignaturesWith parametric references arguments)
        fun _ => parametric.pure _
  | typeVariable index => exact parametric.pure _
  | methodVariable index => exact parametric.pure _
  | vector element =>
      exact parametric.bind (resolveSignatureWith parametric references element)
        fun _ => parametric.pure _
  | array element rank _ _ =>
      exact parametric.bind (resolveSignatureWith parametric references element)
        fun _ => parametric.pure _
  | pointer target =>
      exact parametric.bind (resolveSignatureWith parametric references target)
        fun _ => parametric.pure _
  | byRef target =>
      exact parametric.bind (resolveSignatureWith parametric references target)
        fun _ => parametric.pure _
  | pinned target => exact resolveSignatureWith parametric references target
  | function signature =>
      rcases signature with ⟨convention, _, returnType, parameters⟩
      apply parametric.bind (resolveSignaturesWith parametric references parameters)
      intro _
      exact parametric.bind (resolveSignatureWith parametric references returnType)
        fun _ => parametric.pure _

theorem resolveSignaturesWith (parametric : Parametric related)
    {reference reference' : Token → Bounded TypeDesc}
    (references : ∀ token, related (reference token) (reference' token))
    (signatures : List TypeSignature) :
    related (Bounded.resolveSignaturesWith reference signatures)
      (Bounded.resolveSignaturesWith reference' signatures) := by
  cases signatures with
  | nil => exact parametric.pure _
  | cons signature signatures =>
      apply parametric.bind (resolveSignatureWith parametric references signature)
      intro _
      exact parametric.bind (resolveSignaturesWith parametric references signatures)
        fun _ => parametric.pure _
end

/-- A larger bound is related to a smaller one, if having been given up is related to anything. -/
theorem resolveReferenceWithin (parametric : Parametric related) (module : Module)
    {bound bound' : Nat} (le : bound ≤ bound') (token : Token) :
    related (Bounded.resolveReferenceWithin module bound token)
      (Bounded.resolveReferenceWithin module bound' token) := by
  induction bound generalizing bound' token with
  | zero =>
      by_cases table : token.table = TableId.typeSpec.number
      · rw [resolveReferenceWithin_zero table]
        exact parametric.giveUp _
      · rw [resolveReferenceWithin_of_otherTable table, resolveReferenceWithin_of_otherTable table]
        exact parametric.direct module token
  | succ bound induction =>
      cases bound' with
      | zero => exact absurd le (Nat.not_succ_le_zero bound)
      | succ bound' =>
          by_cases table : token.table = TableId.typeSpec.number
          · rw [resolveReferenceWithin_succ table, resolveReferenceWithin_succ table]
            exact parametric.bind (parametric.decoded _) fun signature =>
              parametric.resolveSignatureWith (induction (Nat.le_of_succ_le_succ le)) signature
          · rw [resolveReferenceWithin_of_otherTable table,
              resolveReferenceWithin_of_otherTable table]
            exact parametric.direct module token

end Parametric

end Bounded

end CilLoader
