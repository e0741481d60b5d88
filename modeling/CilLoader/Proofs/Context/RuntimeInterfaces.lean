import CilLoader.Executable.Container
import CilLoader.Proofs.Context.ArrayClass
import CilLoader.Proofs.Stream.WrittenImage
import CilLoader.Proofs.TypeDesc.Substitution

/-!
# Runtime interfaces of instantiations and arrays

The interfaces of an instantiation are those of its open definition with the arguments put in. The
interfaces of a vector are those of the generic array class with the element put in, for the first
vector as for all later ones. Arrays of pointers and arrays that are no vectors have the interfaces
of the array class.
-/

namespace CilLoader

open CilLoader.Action

namespace Action

theorem mapM_map (change : β → γ) (act : α → Action β) (items : List α) :
    (items.mapM fun item => change <$> act item) = List.map change <$> items.mapM act := by
  induction items with
  | nil => rw [List.mapM_nil, List.mapM_nil, map_pure, List.map_nil]
  | cons item items induction =>
      simp only [List.mapM_cons, induction, bind_map_left, map_bind, map_pure, List.map_cons]

variable [ExecutableParser]

/-! ## Instantiations -/

/-- The interfaces that metadata lists, before arguments are put in. -/
theorem metadataInterfaces_eq (type : TypeDesc) {definition : TypeDefinition}
    (made : type.definition? = some definition) :
    metadataInterfaces type = List.map (·.instantiate type.arguments []) <$> (do
      match (← context).registry.get? definition.module with
      | none => fail (.typeResolution definition.token)
      | some module =>
        (module.metadata.interfaceImpls definition.token.row).mapM fun row =>
          resolveTypeReference module row.interface.token) := by
  rw [metadataInterfaces, made]
  dsimp only
  rw [map_bind]
  congr 1
  funext context
  cases context.registry.get? definition.module with
  | none => rfl
  | some module =>
      dsimp only
      rw [← mapM_map]
      simp only [bind_pure_comp]

theorem metadataInterfaces_instantiated (definition : TypeDefinition)
    (arguments : List TypeDesc) :
    metadataInterfaces (.instantiated definition arguments) =
      List.map (·.instantiate arguments []) <$> metadataInterfaces (.definition definition) := by
  rw [metadataInterfaces_eq (.instantiated definition arguments) rfl,
    metadataInterfaces_eq (.definition definition) rfl]
  have untouched : (fun interface : TypeDesc => interface.instantiate [] []) = id :=
    funext TypeDesc.instantiate_nil
  simp only [TypeDesc.arguments, untouched, List.map_id_fun, id_map]

theorem runtimeInterfaces_of_algorithm {type : TypeDesc} {algorithm : InterfaceAlgorithm}
    {system : FileSystem} {context middle : Context}
    (chosen : interfaceAlgorithm? type system context = (.ok (some algorithm), middle)) :
    runtimeInterfaces type system context = interfacesBy algorithm type system middle := by
  rw [runtimeInterfaces, bind_apply, chosen]

/-- A definition and its instantiations have the interfaces that metadata lists. -/
theorem runtimeInterfaces_eq_metadataInterfaces {context : Context}
    (defaults : context.config.interfaceSource = .metadata) {type : TypeDesc}
    (made : type.definition?.isSome = true) (system : FileSystem) :
    runtimeInterfaces type system context = metadataInterfaces type system context := by
  have chosen : interfaceAlgorithm? type system context = (.ok (some .configured), context) := by
    cases type <;> first | rfl | cases made
  rw [runtimeInterfaces_of_algorithm chosen, interfacesBy, bind_apply, context_apply]
  simp only [defaults]

theorem runtimeInterfaces_instantiated {context : Context}
    (defaults : context.config.interfaceSource = .metadata) (definition : TypeDefinition)
    (arguments : List TypeDesc) (system : FileSystem) :
    runtimeInterfaces (.instantiated definition arguments) system context =
      (List.map (·.instantiate arguments []) <$>
        runtimeInterfaces (.definition definition)) system context := by
  rw [runtimeInterfaces_eq_metadataInterfaces defaults rfl, metadataInterfaces_instantiated,
    map_apply, map_apply, runtimeInterfaces_eq_metadataInterfaces defaults rfl]

/-! ## Arrays -/

/-- A vector of pointers or an array that is no vector. -/
theorem runtimeInterfaces_of_baseArray {context : Context} {system : FileSystem}
    (defaults : context.config.interfaceSource = .metadata) {array : TypeDefinition}
    (published : context.wellKnown? .array = some array) {type : TypeDesc}
    (isArray : type.isArray = true)
    (chosen : interfaceAlgorithm? type system context = (.ok (some .baseArray), context)) :
    runtimeInterfaces type system context =
      runtimeInterfaces (.definition array) system context := by
  have required : context.requireWellKnown .array = .ok (.definition array) := by
    rw [Context.requireWellKnown, published]
  rw [runtimeInterfaces_of_algorithm chosen, interfacesBy, baseArrayInterfaces, if_pos isArray,
    bind_apply, context_apply]
  simp only [bind_apply, ofExcept_apply, required]
  exact (runtimeInterfaces_eq_metadataInterfaces defaults rfl system).symm

theorem runtimeInterfaces_vector {context found : Context} {system : FileSystem}
    {arrayClass : TypeDefinition} {element : TypeDesc} (noPointer : element.isPointer = false)
    (known : genericArrayClass system context = (.ok arrayClass, found)) :
    runtimeInterfaces (.vector element) system context =
      (List.map (·.instantiate [element] []) <$>
        metadataInterfaces (.definition arrayClass)) system found := by
  have chosen : interfaceAlgorithm? (.vector element) system context =
      (.ok (some (.arrayOf arrayClass)), found) := by
    rw [interfaceAlgorithm?, noPointer, if_neg Bool.false_ne_true, bind_apply, known]
    rfl
  rw [runtimeInterfaces_of_algorithm chosen, ← metadataInterfaces_instantiated]
  rfl

end Action

namespace Context

section

variable [ExecutableParser] {context later : Context} {system : FileSystem}

/-- What metadata lists does not depend on whether an array class is remembered. -/
theorem metadataInterfaces_withArrayClass (arrayClass : TypeDefinition) (type : TypeDesc)
    (system : FileSystem) (context : Context) :
    (metadataInterfaces type system (context.withArrayClass arrayClass)).1 =
      (metadataInterfaces type system context).1 := by
  have agreement : Agreement fun left right =>
      (left.withArrayClass arrayClass).SameButSymbols (right.withArrayClass arrayClass) := {
    registry := fun alike => (agreement_sameButSymbols.registry alike :)
    nextId := fun alike => (agreement_sameButSymbols.nextId alike :)
    system := fun alike => (agreement_sameButSymbols.system alike :)
    inputs := fun alike => (agreement_sameButSymbols.inputs alike :)
    references := fun alike => (agreement_sameButSymbols.references alike :)
    interfaceSource := fun alike => (agreement_sameButSymbols.interfaceSource alike :)
    opened := fun alike => agreement_sameButSymbols.opened alike
    numbered := fun alike => agreement_sameButSymbols.numbered alike
    registered := fun alike => agreement_sameButSymbols.registered alike }
  exact (preserves_metadataInterfaces agreement type system (context.withArrayClass arrayClass)
    context rfl).1

/-! ## The interfaces of instantiations and arrays -/

/-- Once a definition has answered its interfaces, its instantiations answer from them. -/
theorem Settled.runtimeInterfaces_instantiated_again (settled : context.Settled)
    (defaults : context.config.interfaceSource = .metadata) {definition : TypeDefinition}
    {interfaces : List TypeDesc} {after : Context}
    (answered : runtimeInterfaces (.definition definition) system context = (.ok interfaces, after))
    (grown : after.Extends later) (arguments : List TypeDesc) (laterSystem : FileSystem) :
    runtimeInterfaces (.instantiated definition arguments) laterSystem later =
      (.ok (interfaces.map (·.instantiate arguments [])), later) := by
  have changes := (changing_runtimeInterfaces (.definition definition)).changes answered
  have defaultsLater : later.config.interfaceSource = .metadata := by
    rw [((settled.extends changes).trans grown).config, defaults]
  rw [runtimeInterfaces_eq_metadataInterfaces defaults rfl] at answered
  rw [runtimeInterfaces_instantiated defaultsLater, map_apply,
    runtimeInterfaces_eq_metadataInterfaces defaultsLater rfl,
    (repeatable_metadataInterfaces _).again settled answered grown laterSystem]
  rfl

section Vectors

variable {binding : SystemBinding} {arrayClass : TypeDefinition} {resolved : Context}
  {element : TypeDesc} (remembers : context.RemembersFound)
  (bound : context.system = some binding)
  (found : resolveType binding.module WellKnownType.namespace "Array`1" system context =
    (.ok arrayClass, resolved))
  (noPointer : element.isPointer = false)
include remembers bound found noPointer

theorem RemembersFound.runtimeInterfaces_vector_eq :
    Action.runtimeInterfaces (.vector element) system context =
      (List.map (·.instantiate [element] []) <$> metadataInterfaces (.definition arrayClass))
        system (resolved.withArrayClass arrayClass) :=
  runtimeInterfaces_vector noPointer (remembers.genericArrayClass_eq bound found)

theorem RemembersFound.fst_runtimeInterfaces_vector
    (defaults : context.config.interfaceSource = .metadata) :
    (Action.runtimeInterfaces (.vector element) system context).1 =
      ((List.map (·.instantiate [element] []) <$>
        Action.runtimeInterfaces (.definition arrayClass)) system resolved).1 := by
  have changes := (changing_resolveType _ _ _).changes found
  have defaultsResolved : resolved.config.interfaceSource = .metadata := by
    rw [(remembers.settled.extends changes).config, defaults]
  rw [remembers.runtimeInterfaces_vector_eq bound found noPointer, map_apply, map_apply,
    runtimeInterfaces_eq_metadataInterfaces defaultsResolved rfl,
    metadataInterfaces_withArrayClass]

theorem RemembersFound.remembered_runtimeInterfaces_vector :
    (Action.runtimeInterfaces (.vector element) system context).2.arrayClass =
      some arrayClass := by
  rw [remembers.runtimeInterfaces_vector_eq bound found noPointer, map_apply]
  exact arrayClass_interfacesBy .metadata (.definition arrayClass) system
    (resolved.withArrayClass arrayClass)

end Vectors

/-- As long as the class is remembered, it is the one that is found, and all vectors have its
interfaces. -/
theorem RemembersFound.vectors_of_remembered (remembers : context.RemembersFound)
    (defaults : context.config.interfaceSource = .metadata) {binding : SystemBinding}
    (bound : context.system = some binding) {arrayClass : TypeDefinition}
    (remembered : context.arrayClass = some arrayClass) (system : FileSystem) :
    resolveType binding.module WellKnownType.namespace "Array`1" system context =
        (.ok arrayClass, context) ∧
      ∀ element, element.isPointer = false →
        Action.runtimeInterfaces (.vector element) system context =
          (List.map (·.instantiate [element] []) <$>
            Action.runtimeInterfaces (.definition arrayClass)) system context := by
  rcases remembers.found arrayClass remembered with ⟨other, otherBound, resolves⟩
  cases bound.symm.trans otherBound
  refine ⟨resolves system, ?_⟩
  intro element noPointer
  rw [runtimeInterfaces_vector noPointer (genericArrayClass_of_remembered remembered system),
    map_apply, map_apply, runtimeInterfaces_eq_metadataInterfaces defaults rfl]

theorem resolveType_of_getType? {module : Module} {«namespace» name : String}
    {type : TypeDefinition} (defined : module.getType? «namespace» name = .ok (some type))
    (system : FileSystem) (context : Context) :
    resolveType module «namespace» name system context = (.ok type, context) := by
  rw [resolveType, resolveTypeWithin, bind_apply, ofExcept_apply, defined]
  rfl

/-! ## All instantiations and arrays -/

theorem runtimeInterfaces_instantiate (evolved : context.Evolved)
    (defaults : context.config.interfaceSource = .metadata) (system : FileSystem) :
    -- The instantiations of a definition, asked in its stead or later than it.
    (∀ definition arguments,
      runtimeInterfaces (.instantiated definition arguments) system context =
        (List.map (·.instantiate arguments []) <$>
          runtimeInterfaces (.definition definition)) system context) ∧
    (∀ definition interfaces after,
      runtimeInterfaces (.definition definition) system context = (.ok interfaces, after) →
        ∀ history laterSystem arguments,
          let later := after.afterHistory history
          runtimeInterfaces (.instantiated definition arguments) laterSystem later =
            (.ok (interfaces.map (·.instantiate arguments [])), later)) ∧
    ∀ binding, context.system = some binding →
      -- Vectors, the first one and all later ones.
      (∀ arrayClass resolved,
        resolveType binding.module WellKnownType.namespace "Array`1" system context =
            (.ok arrayClass, resolved) →
          ∀ element, element.isPointer = false →
            let first := runtimeInterfaces (.vector element) system context
            first.1 = ((List.map (·.instantiate [element] []) <$>
              runtimeInterfaces (.definition arrayClass)) system resolved).1 ∧
            ∀ history laterSystem,
              let later := first.2.afterHistory history
              resolveType binding.module WellKnownType.namespace "Array`1" laterSystem later =
                (.ok arrayClass, later) ∧
              ∀ other, other.isPointer = false →
                runtimeInterfaces (.vector other) laterSystem later =
                  (List.map (·.instantiate [other] []) <$>
                    runtimeInterfaces (.definition arrayClass)) laterSystem later) ∧
      -- All other arrays.
      ∃ array, binding.module.getType? WellKnownType.namespace "Array" = .ok (some array) ∧
        (∀ element, element.isPointer = true →
          runtimeInterfaces (.vector element) system context =
            runtimeInterfaces (.definition array) system context) ∧
        ∀ element rank, runtimeInterfaces (.array element rank) system context =
          runtimeInterfaces (.definition array) system context := by
  have remembers := evolved.remembersFound
  refine ⟨fun definition arguments => runtimeInterfaces_instantiated defaults definition arguments
    system, ?_, ?_⟩
  · intro definition interfaces after answered history laterSystem arguments later
    have changes := (changing_runtimeInterfaces (.definition definition)).changes answered
    have grown := (remembers.settled.changes changes).extends_afterHistory history
    exact remembers.settled.runtimeInterfaces_instantiated_again defaults answered grown arguments
      laterSystem
  · intro binding bound
    refine ⟨?_, ?_⟩
    · intro arrayClass resolved found element noPointer first
      refine ⟨remembers.fst_runtimeInterfaces_vector bound found noPointer defaults, ?_⟩
      intro history laterSystem later
      have remembersFirst : first.2.RemembersFound :=
        remembers.runtimeInterfaces (.vector element) system
      have remembered : later.arrayClass = some arrayClass :=
        arrayClass_afterHistory_of_remembered
          (remembers.remembered_runtimeInterfaces_vector bound found noPointer) history
      have grownFirst : context.Extends first.2 :=
        remembers.settled.extends (changing_runtimeInterfaces (.vector element) system context)
      have grown : context.Extends later :=
        grownFirst.trans (remembersFirst.settled.extends_afterHistory history)
      have defaultsLater : later.config.interfaceSource = .metadata := by
        rw [grown.config, defaults]
      exact (remembersFirst.afterHistory history).vectors_of_remembered defaultsLater
        (grown.system binding bound) remembered laterSystem
    · have tagged := evolved.systemTagged
      rcases tagged.exists_wellKnown? bound .array with ⟨array, published⟩
      refine ⟨array, (tagged.wellKnown?_eq_some_iff bound).mp published, ?_, ?_⟩
      · intro element isPointer
        refine runtimeInterfaces_of_baseArray defaults published rfl ?_
        rw [interfaceAlgorithm?, if_pos isPointer]
        rfl
      · intro element rank
        exact runtimeInterfaces_of_baseArray defaults published rfl rfl

end

/-! ## The interface of the generic array class -/

open scoped Container

theorem interfaceImpls_systemModule :
    systemModule.metadata.interfaceImpls 27 = [⟨1, 27, ⟨.typeSpec, 1⟩⟩] := by
  decide +kernel

theorem typeSpecSignature_systemModule : systemModule.metadata.typeSpecSignature 1 =
    .ok (.generic .reference (Module.typeToken 28) [.typeVariable 0]) := by
  have written : systemContents.metadata.row? TypeSpecRow 1 = some _ :=
    ImageContents.row?_metadata fits_systemContents rfl rfl
  have row : systemContents.metadata.row? TypeSpecRow 1 = some ⟨1, 1⟩ := written
  have blob : systemContents.metadata.blob 1 = .ok #[0x15, 0x12, 112, 1, 0x13, 0] :=
    Error.toOption_eq_some.mp (by decide +kernel)
  rw [Metadata.typeSpecSignature, Metadata.requireRow, systemModule, Module.metadata, row]
  simp only [Error.ok_bind, blob]
  rfl

theorem resolveTypeReference_systemModule (system : FileSystem) (context : Context) :
    resolveTypeReference systemModule (Token.ofParts TableId.typeSpec.number 1) system context =
      (.ok (.instantiated (systemType "IList`1" 28) [.parameter .type 0]), context) := by
  have list : systemModule.typeByToken (Module.typeToken 28) = .ok (systemType "IList`1" 28) := by
    have named : systemNames[27]? = some "IList`1" := rfl
    have row : (Module.typeToken 28).row = 28 := by decide
    rw [Module.typeByToken, if_pos (by decide), row, typeAt_systemModule named]
  have row : (Token.ofParts TableId.typeSpec.number 1).row = 1 := by decide
  have head (bound : Nat) : Bounded.resolveReferenceWithin systemModule bound
      (Module.typeToken 28) system context =
        some (.ok (.definition (systemType "IList`1" 28)), context) := by
    rw [Bounded.resolveReferenceWithin_of_otherTable (by decide), Bounded.ofAction_apply,
      Bounded.directReference, if_pos (by decide), list]
    rfl
  rw [resolveTypeReference, specificationBound, Bounded.settle,
    Bounded.resolveReferenceWithin_succ (by decide), row, typeSpecSignature_systemModule]
  simp only [Bounded.bind_apply, Bounded.ofAction_apply, ofExcept_apply,
    Bounded.resolveSignatureWith, head]
  rfl

theorem resolveType_systemModule (system : FileSystem) (context : Context) :
    resolveType systemModule WellKnownType.namespace "Array`1" system context =
      (.ok (systemType "Array`1" 27), context) := by
  have named : systemNames[26]? = some "Array`1" := rfl
  exact resolveType_of_getType? (getType?_systemModule named) system context

/-- The open interface of the generic array class. -/
theorem runtimeInterfaces_systemType {context : Context}
    (registered : context.registry.get? 1 = some systemModule)
    (defaults : context.config.interfaceSource = .metadata) (system : FileSystem) :
    (runtimeInterfaces (.definition (systemType "Array`1" 27)) system context).1 =
      .ok [.instantiated (systemType "IList`1" 28) [.parameter .type 0]] := by
  have row : (systemType "Array`1" 27).token.row = 27 := by decide
  have number : (systemType "Array`1" 27).module = 1 := rfl
  have interface : (⟨.typeSpec, 1⟩ : CodedIndex).token =
      Token.ofParts TableId.typeSpec.number 1 := rfl
  rw [runtimeInterfaces_eq_metadataInterfaces defaults rfl, metadataInterfaces_eq _ rfl, map_apply,
    bind_apply, context_apply]
  simp only [number, registered, row, interfaceImpls_systemModule, List.mapM_cons, bind_apply,
    interface, resolveTypeReference_systemModule]
  rfl

/-- The interface of a vector is a list of its elements. -/
theorem runtimeInterfaces_instantiate_system : systemBound.Evolved ∧
    systemBound.config.interfaceSource = .metadata ∧
    ∀ element, element.isPointer = false →
      (runtimeInterfaces (.vector element) systemFiles systemBound).1 =
        .ok [.instantiated (systemType "IList`1" 28) [element]] := by
  rcases exists_system_systemBound with ⟨registered, defaults, types, bound⟩
  have evolved : systemBound.Evolved :=
    ⟨twinConfiguration, twinStart, systemHistory, rfl, by rw [systemBound]⟩
  refine ⟨evolved, defaults, ?_⟩
  intro element noPointer
  have found := resolveType_systemModule systemFiles systemBound
  have listed := runtimeInterfaces_systemType registered defaults systemFiles
  rcases (runtimeInterfaces_instantiate evolved defaults systemFiles).2.2 _ bound with ⟨vectors, _⟩
  rw [(vectors _ _ found element noPointer).1, map_apply, listed]
  rfl

end Context

end CilLoader
