import Mathlib.Data.List.Basic
import CilLoader.TypeDesc

/-!
# Substitution of type parameters

Instantiating a type puts an argument in the place of every parameter that has one. This is done in
one go: what has been put in is not looked at again. So instantiating twice is the same as
instantiating once, over arguments that have been instantiated themselves. That types without
parameters are left alone makes no difference.
-/

namespace CilLoader.TypeDesc

/-- What holds of a type if it holds of the types it is made from holds of every type. -/
@[induction_eliminator]
theorem induction {motive : TypeDesc → Prop}
    (definition : ∀ type, motive (.definition type))
    (instantiated : ∀ type arguments, (∀ argument ∈ arguments, motive argument) →
      motive (.instantiated type arguments))
    (vector : ∀ element, motive element → motive (.vector element))
    (array : ∀ element rank, motive element → motive (.array element rank))
    (pointer : ∀ target, motive target → motive (.pointer target))
    (byRef : ∀ target, motive target → motive (.byRef target))
    (function : ∀ hasThis returnType parameters, motive returnType →
      (∀ type ∈ parameters, motive type) → motive (.function hasThis returnType parameters))
    (parameter : ∀ kind index, motive (.parameter kind index)) (type : TypeDesc) : motive type := by
  have none : ∀ argument ∈ ([] : List TypeDesc), motive argument := nofun
  have more : ∀ head tail, motive head → (∀ argument ∈ tail, motive argument) →
      ∀ argument ∈ head :: tail, motive argument :=
    fun head tail first rest => List.forall_mem_cons.mpr ⟨first, rest⟩
  exact TypeDesc.rec (motive_2 := fun types => ∀ argument ∈ types, motive argument)
    definition instantiated vector array pointer byRef function parameter none more type

theorem anyHasParameters_eq (types : List TypeDesc) :
    anyHasParameters types = types.any hasParameters := by
  induction types with
  | nil => rfl
  | cons type types induction => rw [anyHasParameters, induction, List.any_cons]

theorem instantiateAll_eq (typeArguments methodArguments types : List TypeDesc) :
    instantiateAll typeArguments methodArguments types =
      types.map (instantiate typeArguments methodArguments) := by
  induction types with
  | nil => rfl
  | cons type types induction => rw [instantiateAll, induction, List.map_cons]

/-! ## Parameters -/

mutual
/-- The parameters that a type mentions, from left to right. -/
def mentioned : TypeDesc → List (ParameterKind × Nat)
  | definition _ => []
  | instantiated _ arguments => mentionedByAny arguments
  | vector element => mentioned element
  | array element _ => mentioned element
  | pointer target => mentioned target
  | byRef target => mentioned target
  | function _ returnType parameters => mentioned returnType ++ mentionedByAny parameters
  | parameter kind index => [(kind, index)]

def mentionedByAny : List TypeDesc → List (ParameterKind × Nat)
  | [] => []
  | type :: types => mentioned type ++ mentionedByAny types
end

theorem mentionedByAny_eq (types : List TypeDesc) :
    mentionedByAny types = types.flatMap mentioned := by
  induction types with
  | nil => rfl
  | cons type types induction => rw [mentionedByAny, induction, List.flatMap_cons]

theorem hasParameters_iff (type : TypeDesc) :
    type.hasParameters = true ↔ ∃ mention, mention ∈ type.mentioned := by
  induction type with
  | definition type => simp [hasParameters, mentioned]
  | instantiated type arguments induction =>
      simp only [hasParameters, anyHasParameters_eq, List.any_eq_true, mentioned,
        mentionedByAny_eq, List.mem_flatMap]
      grind
  | vector element induction => simpa only [hasParameters, mentioned] using induction
  | array element rank induction => simpa only [hasParameters, mentioned] using induction
  | pointer target induction => simpa only [hasParameters, mentioned] using induction
  | byRef target induction => simpa only [hasParameters, mentioned] using induction
  | function hasThis returnType parameters inductionReturn induction =>
      simp only [hasParameters, anyHasParameters_eq, Bool.or_eq_true, List.any_eq_true, mentioned,
        mentionedByAny_eq, List.mem_append, List.mem_flatMap]
      grind
  | parameter kind index => simp [hasParameters, mentioned]

/-! ## Substitution -/

mutual
/-- The type with something else in the place of every parameter. -/
def substitute (replacement : ParameterKind → Nat → TypeDesc) : TypeDesc → TypeDesc
  | definition type => definition type
  | instantiated type arguments => instantiated type (substituteAll replacement arguments)
  | vector element => vector (substitute replacement element)
  | array element rank => array (substitute replacement element) rank
  | pointer target => pointer (substitute replacement target)
  | byRef target => byRef (substitute replacement target)
  | function hasThis returnType parameters =>
    function hasThis (substitute replacement returnType) (substituteAll replacement parameters)
  | parameter kind index => replacement kind index

def substituteAll (replacement : ParameterKind → Nat → TypeDesc) : List TypeDesc → List TypeDesc
  | [] => []
  | type :: types => substitute replacement type :: substituteAll replacement types
end

theorem substituteAll_eq (replacement : ParameterKind → Nat → TypeDesc) (types : List TypeDesc) :
    substituteAll replacement types = types.map (substitute replacement) := by
  induction types with
  | nil => rfl
  | cons type types induction => rw [substituteAll, induction, List.map_cons]

variable {replacement replacement' : ParameterKind → Nat → TypeDesc}

/-- Only the parameters that a type mentions matter. -/
theorem substitute_congr {type : TypeDesc}
    (same : ∀ mention ∈ type.mentioned,
      replacement mention.1 mention.2 = replacement' mention.1 mention.2) :
    type.substitute replacement = type.substitute replacement' := by
  induction type with
  | definition type => rfl
  | instantiated type arguments induction =>
      rw [mentioned, mentionedByAny_eq] at same
      rw [substitute, substitute, substituteAll_eq, substituteAll_eq]
      refine congrArg _ (List.map_congr_left fun argument member => ?_)
      exact induction argument member fun mention mentions =>
        same mention (List.mem_flatMap.mpr ⟨argument, member, mentions⟩)
  | vector element induction => exact congrArg vector (induction same)
  | array element rank induction => exact congrArg (array · rank) (induction same)
  | pointer target induction => exact congrArg pointer (induction same)
  | byRef target induction => exact congrArg byRef (induction same)
  | function hasThis returnType parameters inductionReturn induction =>
      rw [mentioned, mentionedByAny_eq] at same
      rw [substitute, substitute, substituteAll_eq, substituteAll_eq]
      have sameReturn := inductionReturn fun mention mentions =>
        same mention (List.mem_append_left _ mentions)
      have sameParameters := List.map_congr_left fun type member =>
        induction type member fun mention mentions =>
          same mention (List.mem_append_right _ (List.mem_flatMap.mpr ⟨type, member, mentions⟩))
      rw [sameReturn, sameParameters]
  | parameter kind index => exact same (kind, index) List.mem_cons_self

theorem substitute_parameter (type : TypeDesc) : type.substitute parameter = type := by
  induction type with
  | definition type => rfl
  | instantiated type arguments induction =>
      rw [substitute, substituteAll_eq, List.map_congr_left induction, List.map_id']
  | vector element induction => exact congrArg vector induction
  | array element rank induction => exact congrArg (array · rank) induction
  | pointer target induction => exact congrArg pointer induction
  | byRef target induction => exact congrArg byRef induction
  | function hasThis returnType parameters inductionReturn induction =>
      rw [substitute, substituteAll_eq, inductionReturn, List.map_congr_left induction,
        List.map_id']
  | parameter kind index => rfl

/-- What has been put in by the first substitution is all that the second one finds. -/
theorem substitute_substitute (type : TypeDesc) :
    (type.substitute replacement).substitute replacement' =
      type.substitute fun kind index => (replacement kind index).substitute replacement' := by
  induction type with
  | definition type => rfl
  | instantiated type arguments induction =>
      simp only [substitute, substituteAll_eq, List.map_map]
      exact congrArg _ (List.map_congr_left induction)
  | vector element induction => exact congrArg vector induction
  | array element rank induction => exact congrArg (array · rank) induction
  | pointer target induction => exact congrArg pointer induction
  | byRef target induction => exact congrArg byRef induction
  | function hasThis returnType parameters inductionReturn induction =>
      simp only [substitute, substituteAll_eq, List.map_map]
      rw [inductionReturn]
      exact congrArg _ (List.map_congr_left induction)
  | parameter kind index => rfl

theorem mentioned_substitute (type : TypeDesc) :
    (type.substitute replacement).mentioned =
      type.mentioned.flatMap fun mention => (replacement mention.1 mention.2).mentioned := by
  induction type with
  | definition type => rfl
  | instantiated type arguments induction =>
      simp only [substitute, substituteAll_eq, mentioned, mentionedByAny_eq, List.flatMap_map,
        List.flatMap_assoc]
      exact List.flatMap_congr induction
  | vector element induction => exact induction
  | array element rank induction => exact induction
  | pointer target induction => exact induction
  | byRef target induction => exact induction
  | function hasThis returnType parameters inductionReturn induction =>
      simp only [substitute, substituteAll_eq, mentioned, mentionedByAny_eq, List.flatMap_map,
        List.flatMap_assoc, List.flatMap_append, inductionReturn]
      rw [List.flatMap_congr induction]
  | parameter kind index => simp [substitute, mentioned]

theorem substitute_of_closed {type : TypeDesc} (closed : type.hasParameters = false) :
    type.substitute replacement = type := by
  have unmentioned : ∀ mention, mention ∉ type.mentioned := by
    intro mention mentions
    rw [(hasParameters_iff type).mpr ⟨mention, mentions⟩] at closed
    cases closed
  calc type.substitute replacement
    _ = type.substitute parameter :=
      substitute_congr fun mention mentions => absurd mentions (unmentioned mention)
    _ = type := substitute_parameter type

/-! ## Instantiation -/

variable {typeArguments methodArguments : List TypeDesc}

/-- A type that is left alone because it has no parameters is what substitution makes of it. -/
theorem ite_closed_eq_substitute {type changed : TypeDesc}
    (same : changed = type.substitute replacement) :
    (if !type.hasParameters then type else changed) = type.substitute replacement := by
  cases closed : type.hasParameters with
  | false => exact (substitute_of_closed closed).symm
  | true => exact same

theorem instantiate_eq_substitute (type : TypeDesc) :
    type.instantiate typeArguments methodArguments =
      type.substitute (argumentFor typeArguments methodArguments) := by
  induction type with
  | definition type => exact ite_closed_eq_substitute rfl
  | instantiated type arguments induction =>
      apply ite_closed_eq_substitute
      rw [instantiateAll_eq, substitute, substituteAll_eq, List.map_congr_left induction]
  | vector element induction => exact ite_closed_eq_substitute (congrArg vector induction)
  | array element rank induction =>
      exact ite_closed_eq_substitute (congrArg (array · rank) induction)
  | pointer target induction => exact ite_closed_eq_substitute (congrArg pointer induction)
  | byRef target induction => exact ite_closed_eq_substitute (congrArg byRef induction)
  | function hasThis returnType parameters inductionReturn induction =>
      apply ite_closed_eq_substitute
      rw [instantiateAll_eq, substitute, substituteAll_eq, inductionReturn,
        List.map_congr_left induction]
  | parameter kind index => exact ite_closed_eq_substitute rfl

/-- There is an argument for every parameter that the type mentions. -/
structure Supplies (typeArguments methodArguments : List TypeDesc) (type : TypeDesc) : Prop where
  types : ∀ index, (.type, index) ∈ type.mentioned → index < typeArguments.length
  methods : ∀ index, (.method, index) ∈ type.mentioned → index < methodArguments.length

theorem argumentFor_nil : argumentFor [] [] = parameter := by
  funext kind index
  cases kind <;> rfl

theorem Supplies.argumentFor_mem {type : TypeDesc}
    (supplies : Supplies typeArguments methodArguments type) {kind : ParameterKind} {index : Nat}
    (mentions : (kind, index) ∈ type.mentioned) :
    argumentFor typeArguments methodArguments kind index ∈ typeArguments ++ methodArguments := by
  cases kind with
  | type =>
      have inside := supplies.types index mentions
      rw [argumentFor, List.getD_eq_getElem?_getD, List.getElem?_eq_getElem inside]
      exact List.mem_append_left _ (List.getElem_mem inside)
  | method =>
      have inside := supplies.methods index mentions
      rw [argumentFor, List.getD_eq_getElem?_getD, List.getElem?_eq_getElem inside]
      exact List.mem_append_right _ (List.getElem_mem inside)

/-- What stands for a parameter can be changed by changing the arguments. -/
theorem Supplies.argumentFor_map {type : TypeDesc}
    (supplies : Supplies typeArguments methodArguments type) {kind : ParameterKind} {index : Nat}
    (mentions : (kind, index) ∈ type.mentioned) (change : TypeDesc → TypeDesc) :
    argumentFor (typeArguments.map change) (methodArguments.map change) kind index =
      change (argumentFor typeArguments methodArguments kind index) := by
  cases kind with
  | type => simp [argumentFor, supplies.types index mentions]
  | method => simp [argumentFor, supplies.methods index mentions]

theorem instantiate_nil (type : TypeDesc) : type.instantiate [] [] = type := by
  rw [instantiate_eq_substitute, argumentFor_nil, substitute_parameter]

theorem hasParameters_instantiate_iff (type : TypeDesc) :
    (type.instantiate typeArguments methodArguments).hasParameters = true ↔
      ∃ mention ∈ type.mentioned,
        (argumentFor typeArguments methodArguments mention.1 mention.2).hasParameters = true := by
  simp only [instantiate_eq_substitute, hasParameters_iff, mentioned_substitute,
    List.mem_flatMap]
  constructor
  · rintro ⟨mention, outer, mentionsOuter, mentions⟩
    exact ⟨outer, mentionsOuter, mention, mentions⟩
  · rintro ⟨outer, mentionsOuter, mention, mentions⟩
    exact ⟨mention, outer, mentionsOuter, mentions⟩

theorem instantiate_composes :
    (∀ (type : TypeDesc) (typeArguments methodArguments outerTypes outerMethods : List TypeDesc),
      Supplies typeArguments methodArguments type →
        (type.instantiate typeArguments methodArguments).instantiate outerTypes outerMethods =
          type.instantiate (typeArguments.map (instantiate outerTypes outerMethods))
            (methodArguments.map (instantiate outerTypes outerMethods))) ∧
    (∀ type : TypeDesc, type.instantiate [] [] = type) ∧
    ∀ (type : TypeDesc) (typeArguments methodArguments : List TypeDesc),
      Supplies typeArguments methodArguments type →
        (∀ argument ∈ typeArguments ++ methodArguments, argument.hasParameters = false) →
          (type.instantiate typeArguments methodArguments).hasParameters = false := by
  refine ⟨?_, instantiate_nil, ?_⟩
  · intro type typeArguments methodArguments outerTypes outerMethods supplies
    rw [instantiate_eq_substitute, instantiate_eq_substitute, instantiate_eq_substitute,
      substitute_substitute]
    -- Both sides substitute once, and every parameter that is substituted has an argument.
    apply substitute_congr
    rintro ⟨kind, index⟩ mentions
    rw [supplies.argumentFor_map mentions, instantiate_eq_substitute]
  · intro type typeArguments methodArguments supplies closed
    rw [← Bool.not_eq_true, hasParameters_instantiate_iff]
    rintro ⟨⟨kind, index⟩, mentions, isOpen⟩
    rw [closed _ (supplies.argumentFor_mem mentions)] at isOpen
    cases isOpen

def pairClass : TypeDefinition where
  module := 1
  token := ⟨0x02000001⟩
  «namespace» := ""
  name := "Pair`2"
  flags := 0
  baseType := none
  genericParams := ["First", "Second"]

/-- A pair of a vector and a pointer to a function. It mentions both parameters of its class and one
of its method. -/
def openPair : TypeDesc :=
  .instantiated pairClass
    [.vector (.parameter .type 1),
      .function false (.parameter .method 0) [.parameter .type 0, .definition pairClass]]

/-- The arguments exchange the two parameters, so they must not be looked at again. The outer ones
do not suffice for what they are applied to. -/
theorem instantiate_composes_exchanged :
    let typeArguments : List TypeDesc := [.parameter .type 1, .parameter .type 0]
    let methodArguments : List TypeDesc := [.byRef (.parameter .method 3)]
    let outer : List TypeDesc := [.pointer (.parameter .type 1)]
    Supplies typeArguments methodArguments openPair ∧
      (openPair.instantiate typeArguments methodArguments).instantiate outer [] =
        openPair.instantiate [.parameter .type 1, .pointer (.parameter .type 1)]
          [.byRef (.parameter .method 3)] ∧
      (∀ closed : TypeDefinition,
        (openPair.instantiate [.definition closed, .definition closed]
          [.definition closed]).hasParameters = false) := by
  intro typeArguments methodArguments outer
  have enough : ∀ typeArguments methodArguments : List TypeDesc, typeArguments.length = 2 →
      methodArguments.length = 1 → Supplies typeArguments methodArguments openPair := by
    intro typeArguments methodArguments two one
    refine ⟨fun index mentions => ?_, fun index mentions => ?_⟩
    all_goals
      simp [openPair, mentioned, mentionedByAny] at mentions
      omega
  rcases instantiate_composes with ⟨composes, _, closes⟩
  refine ⟨enough _ _ rfl rfl, composes _ _ _ outer [] (enough _ _ rfl rfl), fun closed => ?_⟩
  apply closes _ _ _ (enough _ _ rfl rfl)
  intro argument member
  have same : argument = .definition closed := by simpa using member
  rw [same]
  rfl

end CilLoader.TypeDesc
