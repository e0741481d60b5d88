import CilLoader.Executable.Container
import CilLoader.Proofs.Context.PathLoading
import CilLoader.Proofs.Resolution.Bounds

/-!
# Arguments and generic parameters

A signature writes down instantiations, each of a token over some arguments. The type that it
denotes has the same instantiations, over the definitions that the tokens stand for. Nothing
compares the number of arguments with the number of generic parameters. So a type has one argument
for each generic parameter exactly if the signatures behind it are written that way.
-/

namespace CilLoader

/-! ## Instantiations in types and in signatures -/

namespace TypeDesc

mutual
/-- Each instantiation in a type, at whatever depth, has one argument for each generic parameter of
its definition. -/
def fullyApplied : TypeDesc → Bool
  | definition _ => true
  | instantiated type arguments =>
    arguments.length == type.genericParams.length && allFullyApplied arguments
  | vector element => fullyApplied element
  | array element _ => fullyApplied element
  | pointer target => fullyApplied target
  | byRef target => fullyApplied target
  | function _ returnType parameters => allFullyApplied parameters && fullyApplied returnType
  | parameter _ _ => true

def allFullyApplied : List TypeDesc → Bool
  | [] => true
  | type :: types => fullyApplied type && allFullyApplied types
end

end TypeDesc

/-- A token in a signature stands for a whole type or is instantiated over some number of
arguments. -/
inductive TokenUse where
  | whole (token : Token)
  | instantiated (token : Token) (count : Nat)

namespace TypeSignature

mutual
/-- The uses of tokens at all depths of a signature. -/
def uses : TypeSignature → List TokenUse
  | primitive _ => []
  | named _ token => [.whole token]
  | generic _ token arguments => .instantiated token arguments.length :: usesOfAll arguments
  | typeVariable _ => []
  | methodVariable _ => []
  | vector element => uses element
  | array element _ _ _ => uses element
  | pointer target => uses target
  | byRef target => uses target
  | pinned target => uses target
  | function (.mk _ _ returnType parameters) => usesOfAll parameters ++ uses returnType

def usesOfAll : List TypeSignature → List TokenUse
  | [] => []
  | signature :: signatures => uses signature ++ usesOfAll signatures
end

end TypeSignature

namespace Module

variable {module : Module} {token : Token}

/-- The use of a token instantiates a token, directly or in a type specification that it stands
for. -/
inductive Instantiates (module : Module) (token : Token) (count : Nat) : TokenUse → Prop
  | itself : Instantiates module token count (.instantiated token count)
  | specified {other : Token} {specification : TypeSignature} {use : TokenUse}
      (table : other.table = TableId.typeSpec.number)
      (decoded : module.metadata.typeSpecSignature other.row = .ok specification)
      (member : use ∈ specification.uses) (behind : Instantiates module token count use) :
      Instantiates module token count (.whole other)

variable [ExecutableParser]

/-- All tokens that are instantiated stand for definitions with one generic parameter for each
argument. -/
def AppliesFully (module : Module) (system : FileSystem) (context : Context) (use : TokenUse) :
    Prop :=
  ∀ token count, module.Instantiates token count use → ∃ definition,
    Action.resolveTypeReference module token system context =
        (.ok (.definition definition), context) ∧
      count = definition.genericParams.length

variable {system : FileSystem} {context : Context}

theorem appliesFully_instantiated_iff (count : Nat) {definition : TypeDefinition}
    (standsFor : Action.resolveTypeReference module token system context =
      (.ok (.definition definition), context)) :
    module.AppliesFully system context (.instantiated token count) ↔
      count = definition.genericParams.length := by
  constructor
  · intro applies
    rcases applies token count .itself with ⟨other, standsForOther, arity⟩
    cases standsFor.symm.trans standsForOther
    exact arity
  · rintro arity _ _ ⟨⟩
    exact ⟨definition, standsFor, arity⟩

theorem appliesFully_of_otherTable (otherTable : token.table ≠ TableId.typeSpec.number) :
    module.AppliesFully system context (.whole token) := by
  rintro _ _ (_ | ⟨table, _, _, _⟩)
  exact absurd table otherTable

theorem appliesFully_whole_iff {specification : TypeSignature}
    (table : token.table = TableId.typeSpec.number)
    (decoded : module.metadata.typeSpecSignature token.row = .ok specification) :
    module.AppliesFully system context (.whole token) ↔
      ∀ use ∈ specification.uses, module.AppliesFully system context use := by
  constructor
  · intro applies use member head count instantiates
    exact applies head count (.specified table decoded member instantiates)
  · rintro applies head count (_ | ⟨_, decodedToo, member, behind⟩)
    cases decoded.symm.trans decodedToo
    exact applies _ member head count behind

end Module

/-! ## From signatures to types -/

namespace Bounded

open CilLoader.Action

variable {system : FileSystem} {context : Context}

theorem eq_definition_of_genericHead {token : Token} {type : TypeDesc} {head : TypeDefinition}
    {after : Context} (headed : genericHead token type system context = (.ok head, after)) :
    type = .definition head := by
  cases type with
  | definition definition =>
      cases headed
      rfl
  | _ => cases headed

variable [ExecutableParser]

theorem exists_definition_of_resolvePrimitive {primitive : PrimitiveType} {type : TypeDesc}
    {after : Context} (resolved : resolvePrimitive primitive system context = (.ok type, after)) :
    ∃ definition, type = .definition definition := by
  rw [resolvePrimitive] at resolved
  cases wellKnown : primitive.wellKnown? with
  | some kind =>
      rw [wellKnown] at resolved
      rcases bind_eq_ok.mp resolved with ⟨_, _, ⟨rfl, rfl⟩, required⟩
      rw [Context.requireWellKnown] at required
      cases published : context.wellKnown? kind with
      | none =>
          rw [published] at required
          cases required
      | some definition =>
          rw [published] at required
          cases required
          exact ⟨definition, rfl⟩
  | none =>
      rw [wellKnown] at resolved
      rcases bind_eq_ok.mp resolved with ⟨_, _, ⟨rfl, rfl⟩, resolved⟩
      cases bound : context.system with
      | none =>
          rw [bound] at resolved
          cases resolved
      | some binding =>
          rw [bound] at resolved
          rcases bind_eq_ok.mp resolved with ⟨definition, _, _, ⟨⟩⟩
          exact ⟨definition, rfl⟩

theorem exists_definition_of_directReference {module : Module} {token : Token} {type : TypeDesc}
    {after : Context} (referred : directReference module token system context = (.ok type, after)) :
    ∃ definition, type = .definition definition := by
  rw [directReference] at referred
  split at referred
  · rcases bind_eq_ok.mp referred with ⟨definition, _, _, ⟨⟩⟩
    exact ⟨definition, rfl⟩
  · split at referred
    · rcases bind_eq_ok.mp referred with ⟨definition, _, _, ⟨⟩⟩
      exact ⟨definition, rfl⟩
    · cases referred

/-- The uses that are fine are those from which fully applied types come. -/
structure Judges (reference : Token → Bounded TypeDesc) (system : FileSystem) (context : Context)
    (fine : TokenUse → Prop) : Prop where
  settled : context.Settled
  repeatable : ∀ token, Repeatable (reference token)
  instantiated : ∀ {token definition},
    reference token system context = some (.ok (.definition definition), context) →
      ∀ count, count = definition.genericParams.length ↔ fine (.instantiated token count)
  whole : ∀ {token type}, reference token system context = some (.ok type, context) →
    (type.fullyApplied ↔ fine (.whole token))

section Judges

variable {reference : Token → Bounded TypeDesc} {fine : TokenUse → Prop}

mutual
theorem Judges.signature (judges : Judges reference system context fine)
    (signature : TypeSignature) {type : TypeDesc}
    (run : resolveSignatureWith reference signature system context = some (.ok type, context)) :
    type.fullyApplied ↔ ∀ use ∈ signature.uses, fine use := by
  have repeatable := repeatable_resolveSignatureWith judges.repeatable
  have repeatableAll := repeatable_resolveSignaturesWith judges.repeatable
  cases signature with
  | primitive primitive =>
      rcases exists_definition_of_resolvePrimitive (Option.some.inj run) with ⟨definition, rfl⟩
      simp [TypeDesc.fullyApplied, TypeSignature.uses]
  | named _ token =>
      rw [TypeSignature.uses, List.forall_mem_singleton]
      exact judges.whole run
  | generic _ token arguments =>
      rcases (judges.repeatable token).bind_unchanged (fun type =>
        (repeatable_ofAction (repeatable_genericHead token type)).bind fun _ =>
          (repeatableAll arguments).bind fun _ => repeatable_pure _) judges.settled run with
        ⟨whole, referred, run⟩
      rcases (repeatable_ofAction (repeatable_genericHead token whole)).bind_unchanged (fun _ =>
        (repeatableAll arguments).bind fun _ => repeatable_pure _) judges.settled run with
        ⟨head, headed, run⟩
      rcases (repeatableAll arguments).map_unchanged judges.settled run with ⟨types, inner, rfl⟩
      cases eq_definition_of_genericHead (Option.some.inj headed)
      rcases judges.signatures arguments inner with ⟨length, inside⟩
      rw [TypeDesc.fullyApplied, TypeSignature.uses, List.forall_mem_cons, Bool.and_eq_true,
        beq_iff_eq, length, judges.instantiated referred, inside]
  | typeVariable index =>
      cases run
      simp [TypeDesc.fullyApplied, TypeSignature.uses]
  | methodVariable index =>
      cases run
      simp [TypeDesc.fullyApplied, TypeSignature.uses]
  | vector element =>
      rcases (repeatable element).map_unchanged judges.settled run with ⟨_, inner, rfl⟩
      rw [TypeDesc.fullyApplied, TypeSignature.uses, judges.signature element inner]
  | array element rank _ _ =>
      rcases (repeatable element).map_unchanged judges.settled run with ⟨_, inner, rfl⟩
      rw [TypeDesc.fullyApplied, TypeSignature.uses, judges.signature element inner]
  | pointer target =>
      rcases (repeatable target).map_unchanged judges.settled run with ⟨_, inner, rfl⟩
      rw [TypeDesc.fullyApplied, TypeSignature.uses, judges.signature target inner]
  | byRef target =>
      rcases (repeatable target).map_unchanged judges.settled run with ⟨_, inner, rfl⟩
      rw [TypeDesc.fullyApplied, TypeSignature.uses, judges.signature target inner]
  | pinned target => exact judges.signature target run
  | function signature =>
      rcases signature with ⟨convention, _, returnType, parameters⟩
      rcases (repeatableAll parameters).bind_unchanged (fun _ =>
        (repeatable returnType).bind fun _ => repeatable_pure _) judges.settled run with
        ⟨types, innerParameters, run⟩
      rcases (repeatable returnType).map_unchanged judges.settled run with ⟨_, inner, rfl⟩
      rw [TypeDesc.fullyApplied, TypeSignature.uses, List.forall_mem_append, Bool.and_eq_true,
        (judges.signatures parameters innerParameters).2, judges.signature returnType inner]

theorem Judges.signatures (judges : Judges reference system context fine)
    (signatures : List TypeSignature) {types : List TypeDesc}
    (run : resolveSignaturesWith reference signatures system context =
      some (.ok types, context)) :
    types.length = signatures.length ∧
      (TypeDesc.allFullyApplied types ↔
        ∀ use ∈ TypeSignature.usesOfAll signatures, fine use) := by
  cases signatures with
  | nil =>
      cases run
      simp [TypeDesc.allFullyApplied, TypeSignature.usesOfAll]
  | cons signature signatures =>
      have repeatable := repeatable_resolveSignatureWith judges.repeatable signature
      have repeatableAll := repeatable_resolveSignaturesWith judges.repeatable signatures
      rcases repeatable.bind_unchanged (fun _ => repeatableAll.bind fun _ => repeatable_pure _)
        judges.settled run with ⟨type, first, run⟩
      rcases repeatableAll.map_unchanged judges.settled run with ⟨types, rest, rfl⟩
      rcases judges.signatures signatures rest with ⟨length, inside⟩
      refine ⟨congrArg Nat.succ length, ?_⟩
      rw [TypeDesc.allFullyApplied, TypeSignature.usesOfAll, List.forall_mem_append,
        Bool.and_eq_true, judges.signature signature first, inside]
end

end Judges

variable {module : Module} {token : Token}

theorem resolveTypeReference_of_within {bound : Nat} (le : bound ≤ specificationBound module)
    {outcome : Except Error TypeDesc × Context}
    (reached : resolveReferenceWithin module bound token system context = some outcome) :
    resolveTypeReference module token system context = outcome := by
  rw [resolveTypeReference, settle, refines_of_le module le token system context outcome reached]

theorem fullyApplied_of_otherTable (otherTable : token.table ≠ TableId.typeSpec.number)
    {bound : Nat} {type : TypeDesc}
    (run : resolveReferenceWithin module bound token system context =
      some (.ok type, context)) : type.fullyApplied := by
  rw [resolveReferenceWithin_of_otherTable otherTable] at run
  rcases exists_definition_of_directReference (Option.some.inj run) with ⟨definition, rfl⟩
  rfl

theorem judges_resolveReferenceWithin (settled : context.Settled) {bound : Nat}
    (le : bound ≤ specificationBound module) :
    Judges (resolveReferenceWithin module bound) system context
      (module.AppliesFully system context) := by
  have repeatable := repeatable_resolveReferenceWithin module
  -- What is instantiated is resolved under the full bound, where it has the same outcome.
  have instantiated {bound : Nat} (le : bound ≤ specificationBound module) {token : Token}
      {definition : TypeDefinition}
      (referred : resolveReferenceWithin module bound token system context =
        some (.ok (.definition definition), context)) (count : Nat) :=
    (Module.appliesFully_instantiated_iff count
      (resolveTypeReference_of_within le referred)).symm
  induction bound with
  | zero =>
      refine ⟨settled, repeatable 0, instantiated le, ?_⟩
      intro token type run
      by_cases table : token.table = TableId.typeSpec.number
      · rw [resolveReferenceWithin_zero table] at run
        cases run
      · exact iff_of_true (fullyApplied_of_otherTable table run)
          (Module.appliesFully_of_otherTable table)
  | succ bound induction =>
      refine ⟨settled, repeatable (bound + 1), instantiated le, ?_⟩
      intro token type run
      by_cases table : token.table = TableId.typeSpec.number
      · have judges := induction (Nat.le_of_succ_le le)
        rw [resolveReferenceWithin_succ table] at run
        rcases (repeatable_ofAction (repeatable_ofExcept _)).bind_unchanged (fun signature =>
          repeatable_resolveSignatureWith judges.repeatable signature) settled run with
          ⟨specification, decoded, run⟩
        have decoded : module.metadata.typeSpecSignature token.row = .ok specification := by
          simpa using decoded
        rw [Module.appliesFully_whole_iff table decoded]
        exact judges.signature specification run
      · exact iff_of_true (fullyApplied_of_otherTable table run)
          (Module.appliesFully_of_otherTable table)

end Bounded

namespace Action

open Bounded

section

variable [ExecutableParser] {system : FileSystem} {context after : Context}

theorem fullyApplied_resolveSignature_iff (settled : context.Settled) {module : Module}
    {signature : TypeSignature} {type : TypeDesc}
    (resolved : resolveSignature module signature system context = (.ok type, after)) :
    type.fullyApplied ↔ ∀ use ∈ signature.uses, module.AppliesFully system after use := by
  have repeatable := repeatable_resolveSignature module signature
  have changes := repeatable.changing.changes resolved
  have again := repeatable.again settled resolved (.refl after) system
  have judges : Judges (resolveReferenceWithin module (specificationBound module)) system after
      (module.AppliesFully system after) :=
    judges_resolveReferenceWithin (settled.changes changes) (Nat.le_refl _)
  exact judges.signature signature (settle_eq_ok.mp again)

theorem fullyApplied_resolveTypeReference_iff (settled : context.Settled) {module : Module}
    {token : Token} {type : TypeDesc}
    (resolved : resolveTypeReference module token system context = (.ok type, after)) :
    type.fullyApplied ↔ module.AppliesFully system after (.whole token) := by
  -- A token is resolved as the signature that consists of it.
  have resolvedNamed : resolveSignature module (.named .reference token) system context =
      (.ok type, after) := resolved
  rw [fullyApplied_resolveSignature_iff settled resolvedNamed, TypeSignature.uses,
    List.forall_mem_singleton]

theorem resolved_fullyApplied_iff (evolved : context.Evolved) (module : Module)
    (system : FileSystem) :
    (∀ signature type after,
      resolveSignature module signature system context = (.ok type, after) →
        (type.fullyApplied ↔ ∀ use ∈ signature.uses, module.AppliesFully system after use)) ∧
    ∀ token type after, resolveTypeReference module token system context = (.ok type, after) →
      (type.fullyApplied ↔ module.AppliesFully system after (.whole token)) :=
  ⟨fun _ _ _ resolved => fullyApplied_resolveSignature_iff evolved.settled resolved,
    fun _ _ _ resolved => fullyApplied_resolveTypeReference_iff evolved.settled resolved⟩

end

open scoped Container

/-- An assembly with the name `A` and a type with one generic parameter. The first type
specification instantiates it over one argument, the second one is a vector of it over two. -/
def appliedImage : Bytes := #[
  -- the root
  0x42, 0x53, 0x4A, 0x42, 1, 0, 1, 0, 0, 0, 0, 0, 0, 0, 0, 0, 0, 0, 3, 0,
  -- the headers of the streams
  0x44, 0, 0, 0, 0x58, 0, 0, 0, 0x23, 0x7E, 0, 0,
  0x9C, 0, 0, 0, 5, 0, 0, 0, 0x23, 0x53, 0x74, 0x72, 0x69, 0x6E, 0x67, 0x73, 0, 0, 0, 0,
  0xA1, 0, 0, 0, 0x12, 0, 0, 0, 0x23, 0x42, 0x6C, 0x6F, 0x62, 0, 0, 0,
  -- one type, two type specifications, one assembly and one generic parameter
  0, 0, 0, 0, 2, 0, 0, 1, 4, 0, 0, 8, 1, 4, 0, 0, 0, 0, 0, 0, 0, 0, 0, 0, 1, 0, 0, 0, 2, 0, 0, 0,
  1, 0, 0, 0, 1, 0, 0, 0,
  1, 0, 0, 0, 1, 0, 0, 0, 0, 0, 1, 0, 1, 0,
  1, 0,
  8, 0,
  4, 0x80, 0, 0, 1, 0, 0, 0, 0, 0, 0, 0, 0, 0, 0, 0, 0, 0, 1, 0, 0, 0,
  0, 0, 0, 0, 2, 0, 3, 0,
  -- the strings
  0, 0x41, 0, 0x54, 0,
  -- the blobs
  0, 6, 0x15, 0x12, 4, 1, 0x13, 0, 9, 0x1D, 0x15, 0x12, 4, 2, 0x13, 0, 0x13, 0]

def appliedFiles : FileSystem where
  files := [([['A']], appliedImage)]
  directories := []

def appliedLoaded : Context :=
  Context.twinStart.afterHistory [(appliedFiles, .addModule ⟨"/A"⟩ none)]

theorem evolved_appliedLoaded : appliedLoaded.Evolved :=
  ⟨Context.twinConfiguration, Context.twinStart, [(appliedFiles, .addModule ⟨"/A"⟩ none)], rfl,
    rfl⟩

/-- Whether the type is fully applied that a token of a module denotes. -/
def appliedArity? (module : Module) (token : Token) : Option Bool :=
  (resolveTypeReference module token appliedFiles appliedLoaded).1.toOption.map (·.fullyApplied)

theorem exists_of_appliedArity? {module : Module} {token : Token} {arity : Bool}
    (answered : appliedArity? module token = some arity) :
    ∃ type after, resolveTypeReference module token appliedFiles appliedLoaded =
      (.ok type, after) ∧ type.fullyApplied = arity := by
  rcases Option.map_eq_some_iff.mp answered with ⟨type, resolved, same⟩
  exact ⟨type, _, Prod.ext (Error.toOption_eq_some.mp resolved) rfl, same⟩

theorem exists_module_appliedLoaded : ∃ module ∈ appliedLoaded.registry.byId,
    appliedArity? module ⟨0x1B000001⟩ = some true ∧
      appliedArity? module ⟨0x1B000002⟩ = some false := by
  have answers : (appliedLoaded.registry.byId.any fun module =>
      appliedArity? module ⟨0x1B000001⟩ == some true &&
        appliedArity? module ⟨0x1B000002⟩ == some false) = true := by
    decide +kernel
  simpa using answers

theorem resolved_fullyApplied_iff_applied : appliedLoaded.Evolved ∧
    ∃ module ∈ appliedLoaded.registry.byId, ∃ type after,
      resolveTypeReference module ⟨0x1B000001⟩ appliedFiles appliedLoaded = (.ok type, after) ∧
        module.AppliesFully appliedFiles after (.whole ⟨0x1B000001⟩) := by
  rcases exists_module_appliedLoaded with ⟨module, member, answered, _⟩
  rcases exists_of_appliedArity? answered with ⟨type, after, resolved, fully⟩
  refine ⟨evolved_appliedLoaded, module, member, type, after, resolved, ?_⟩
  exact ((resolved_fullyApplied_iff evolved_appliedLoaded module appliedFiles).2 _ _ _ resolved).mp
    fully

/-- Not every type that is resolved has one argument for each generic parameter. -/
theorem not_resolved_fullyApplied :
    ¬∀ system context, Context.Evolved context → ∀ module ∈ context.registry.byId,
      ∀ token type after, resolveTypeReference module token system context = (.ok type, after) →
        type.fullyApplied := by
  intro always
  rcases exists_module_appliedLoaded with ⟨module, member, _, answered⟩
  rcases exists_of_appliedArity? answered with ⟨type, after, resolved, overapplied⟩
  have fully := always _ _ evolved_appliedLoaded module member _ _ _ resolved
  cases overapplied.symm.trans fully

end Action

end CilLoader
