import CilLoader.Proofs.Context.Runs

/-!
# Contexts that answer alike

Answers depend on the registered modules, the next number, the system module and parts of the
configuration. A relation of contexts that agree on these is kept by every action, if opening,
numbering and registering keep it. Neither the paths that have been opened nor the symbols that have
been found need to be the same. Binding the system module must be looked at separately, and so must
the interfaces of vectors, for which the generic array class is remembered.
-/

namespace CilLoader

namespace Context

/-- What related contexts agree on, and what happens to both without setting them apart. -/
structure Agreement (related : Context → Context → Prop) : Prop where
  registry : ∀ {left right}, related left right → left.registry = right.registry
  nextId : ∀ {left right}, related left right → left.nextId = right.nextId
  system : ∀ {left right}, related left right → left.system = right.system
  inputs : ∀ {left right}, related left right → left.config.inputs = right.config.inputs
  references : ∀ {left right}, related left right →
    left.config.references = right.config.references
  interfaceSource : ∀ {left right}, related left right →
    left.config.interfaceSource = right.config.interfaceSource
  opened : ∀ {left right}, related left right → ∀ paths otherPaths,
    related (left.withOpened paths) (right.withOpened otherPaths)
  numbered : ∀ {left right}, related left right →
    related left.withNumberUsed right.withNumberUsed
  registered : ∀ {left right}, related left right → ∀ module found otherFound,
    related (left.withModule module found) (right.withModule module otherFound)

/-- Related contexts remember the same generic array class or none, and remembering one does not set
them apart. -/
structure ArrayClassAgreement (related : Context → Context → Prop) : Prop where
  arrayClass : ∀ {left right}, related left right → left.arrayClass = right.arrayClass
  remembered : ∀ {left right}, related left right → ∀ type,
    related (left.withArrayClass type) (right.withArrayClass type)

variable {related : Context → Context → Prop}

theorem Agreement.source? (agreement : Agreement related) {left right : Context}
    (alike : related left right) (name : String) :
    left.config.source? name = right.config.source? name := by
  simp only [Configuration.source?, Configuration.input?, Configuration.reference?,
    agreement.inputs alike, agreement.references alike]

theorem Agreement.wellKnown? (agreement : Agreement related) {left right : Context}
    (alike : related left right) (kind : WellKnownType) :
    left.wellKnown? kind = right.wellKnown? kind := by
  rw [Context.wellKnown?, agreement.system alike, Context.wellKnown?]

theorem Agreement.requireWellKnown (agreement : Agreement related) {left right : Context}
    (alike : related left right) (kind : WellKnownType) :
    left.requireWellKnown kind = right.requireWellKnown kind := by
  rw [Context.requireWellKnown, agreement.wellKnown? alike, Context.requireWellKnown]

/-- What opening, numbering and registering keep of a context can be part of a relation. -/
theorem Agreement.restrict (agreement : Agreement related) {kept : Context → Prop}
    (opened : ∀ {context}, kept context → ∀ paths, kept (context.withOpened paths))
    (numbered : ∀ {context}, kept context → kept context.withNumberUsed)
    (registered : ∀ {context}, kept context → ∀ module found,
      kept (context.withModule module found)) :
    Agreement fun left right => related left right ∧ kept left where
  registry := fun alike => agreement.registry alike.1
  nextId := fun alike => agreement.nextId alike.1
  system := fun alike => agreement.system alike.1
  inputs := fun alike => agreement.inputs alike.1
  references := fun alike => agreement.references alike.1
  interfaceSource := fun alike => agreement.interfaceSource alike.1
  opened := fun alike paths otherPaths =>
    ⟨agreement.opened alike.1 paths otherPaths, opened alike.2 paths⟩
  numbered := fun alike => ⟨agreement.numbered alike.1, numbered alike.2⟩
  registered := fun alike module found otherFound =>
    ⟨agreement.registered alike.1 module found otherFound, registered alike.2 module found⟩

end Context

open Context

namespace Action

variable {related : Context → Context → Prop}

/-- In related contexts the action answers the same, and it leaves them related. -/
def Preserves (related : Context → Context → Prop) (action : Action α) : Prop :=
  ∀ system left right, related left right →
    (action system left).1 = (action system right).1 ∧
      related (action system left).2 (action system right).2

theorem preserves_pure (value : α) : Preserves related (pure value : Action α) :=
  fun _ _ _ alike => ⟨rfl, alike⟩

theorem preserves_fail (error : Error) : Preserves related (fail error : Action α) :=
  fun _ _ _ alike => ⟨rfl, alike⟩

theorem preserves_ofExcept (result : Except Error α) : Preserves related (ofExcept result) := by
  intro system left right alike
  rw [ofExcept_apply, ofExcept_apply]
  exact ⟨rfl, alike⟩

theorem Preserves.bind {first : Action α} {next : α → Action β}
    (preserves : Preserves related first)
    (preservesNext : ∀ value, Preserves related (next value)) :
    Preserves related (first >>= next) := by
  intro system left right alike
  rw [bind_apply, bind_apply]
  rcases preserves system left right alike with ⟨sameAnswer, alikeAfter⟩
  revert sameAnswer alikeAfter
  rcases first system left with ⟨result, after⟩
  rcases first system right with ⟨otherResult, otherAfter⟩
  rintro ⟨rfl⟩ alikeAfter
  cases result with
  | error error => exact ⟨rfl, alikeAfter⟩
  | ok value => exact preservesNext value system after otherAfter alikeAfter

/-- An action that first looks at something on which related contexts agree. -/
theorem preserves_context {next : Context → Action α}
    (same : ∀ left right, related left right → next left = next right)
    (preserves : ∀ context, Preserves related (next context)) :
    Preserves related (Action.context >>= next) := by
  intro system left right alike
  have run (context : Context) :
      (Action.context >>= next) system context = next context system context := rfl
  rw [run, run, same left right alike]
  exact preserves right system left right alike

theorem preserves_fileSystem {next : FileSystem → Action α}
    (preserves : ∀ system, Preserves related (next system)) :
    Preserves related (fileSystem >>= next) :=
  fun system left right alike => preserves system system left right alike

theorem preserves_mapM {act : α → Action β} (preserves : ∀ value, Preserves related (act value))
    (values : List α) : Preserves related (values.mapM act) := by
  induction values with
  | nil => exact preserves_pure []
  | cons value values induction =>
      rw [List.mapM_cons]
      exact (preserves value).bind fun _ => induction.bind fun _ => preserves_pure _

theorem preserves_genericHead (token : Token) (type : TypeDesc) :
    Preserves related (genericHead token type) := by
  cases type <;> first | exact preserves_pure _ | exact preserves_fail _

variable (agreement : Agreement related)
include agreement

theorem preserves_makeModule (image : Image) (expected : Option String) :
    Preserves related (makeModule image expected) := by
  intro system left right alike
  rw [makeModule_eq, makeModule_eq, agreement.nextId alike]
  cases Module.ofImage right.nextId image expected with
  | error error => exact ⟨rfl, alike⟩
  | ok module => exact ⟨rfl, agreement.numbered alike⟩

theorem preserves_resolveNested (reference : Token) (enclosing : TypeDefinition) (name : String) :
    Preserves related (resolveNested reference enclosing name) := by
  apply preserves_context
  · intro left right alike
    rw [agreement.registry alike]
  · intro context
    split
    · exact preserves_fail _
    · apply (preserves_ofExcept _).bind
      intro nested
      cases nested with
      | none => exact preserves_fail _
      | some type => exact preserves_pure type

theorem preserves_bindSystemModule
    (bound : ∀ {left right}, related left right → ∀ module types,
      related (left.withSystem module types) (right.withSystem module types)) (module : Module) :
    Preserves related (bindSystemModule module) := by
  intro system left right alike
  rw [bindSystemModule_eq, bindSystemModule_eq, agreement.system alike]
  split
  · exact ⟨rfl, alike⟩
  · split
    · exact ⟨rfl, alike⟩
    · exact ⟨rfl, bound alike module _⟩

variable [ExecutableParser]

/-! ## Loading -/

/-- Symbols are looked for on both sides, but what is found and what is opened on the way may
differ. -/
theorem preserves_addModule (path : Path) (expected : Option String) :
    Preserves related (addModule path expected) := by
  intro system left right alike
  rcases addModule_eq path expected system left with ⟨found, opened, more, loaded⟩
  rcases addModule_eq path expected system right with
    ⟨otherFound, otherOpened, otherMore, otherLoaded⟩
  have alikeOpened := agreement.opened alike opened otherOpened
  rw [loaded, otherLoaded, agreement.nextId alike, agreement.registry alike]
  cases Module.atPath system right.nextId path expected with
  | error error => exact ⟨rfl, alikeOpened⟩
  | ok module =>
      have alikeNumbered := agreement.numbered alikeOpened
      dsimp only
      cases (right.registry.commit module).1 with
      | error error => exact ⟨rfl, alikeNumbered⟩
      | ok commit =>
          cases commit with
          | inserted module =>
              exact ⟨rfl, agreement.registered (agreement.opened alikeNumbered more otherMore)
                module found otherFound⟩
          | existing module => exact ⟨rfl, alikeNumbered⟩

theorem preserves_tryResolveAssembly (name : String) :
    Preserves related (tryResolveAssembly name) := by
  apply preserves_context
  · intro left right alike
    rw [agreement.registry alike]
  · intro context
    split
    · exact preserves_pure _
    · apply preserves_context
      · intro left right alike
        rw [agreement.source? alike]
      · intro context
        split
        · exact preserves_pure _
        · exact (preserves_addModule agreement _ _).bind fun _ => preserves_pure _

theorem preserves_resolveAssembly (name : String) : Preserves related (resolveAssembly name) := by
  apply (preserves_tryResolveAssembly agreement name).bind
  intro found
  cases found with
  | none => exact preserves_fail _
  | some module => exact preserves_pure module

theorem preserves_resolveModuleByPath (path : Path) :
    Preserves related (resolveModuleByPath path) := by
  apply preserves_fileSystem
  intro system
  apply (preserves_ofExcept _).bind
  intro path
  apply preserves_context
  · intro left right alike
    rw [agreement.registry alike]
  · intro context
    split
    · exact preserves_pure _
    · exact preserves_addModule agreement path none

theorem preserves_preloadInputs : Preserves related preloadInputs := by
  apply preserves_context
  · intro left right alike
    rw [agreement.inputs alike]
  · intro context
    exact (preserves_mapM (fun _ => preserves_resolveAssembly agreement _) _).bind fun _ =>
      preserves_pure _

theorem preserves_loadDetached (path : Path) : Preserves related (loadDetached path) :=
  preserves_fileSystem fun _ =>
    (preserves_ofExcept _).bind fun _ => (preserves_ofExcept _).bind fun _ =>
      preserves_makeModule agreement _ none

/-! ## Resolution -/

theorem preserves_resolveAssemblyReference (module : Module) (token : Token) :
    Preserves related (resolveAssemblyReference module token) := by
  rw [resolveAssemblyReference]
  split
  · exact (preserves_ofExcept _).bind fun _ => preserves_resolveAssembly agreement _
  · exact preserves_fail _

theorem preserves_resolveTypeWithin (room : Nat) (module : Module) («namespace» name : String) :
    Preserves related (resolveTypeWithin room module «namespace» name) := by
  induction room generalizing module with
  | zero => exact preserves_fail _
  | succ room induction =>
      apply (preserves_ofExcept _).bind
      intro own
      cases own with
      | some type => exact preserves_pure type
      | none =>
          apply (preserves_ofExcept _).bind
          intro forwarder
          cases forwarder with
          | none => exact preserves_fail _
          | some reference =>
              exact (preserves_resolveAssemblyReference agreement module reference).bind
                fun target => induction target

theorem preserves_resolveType (module : Module) («namespace» name : String) :
    Preserves related (resolveType module «namespace» name) :=
  preserves_resolveTypeWithin agreement _ module «namespace» name

theorem preserves_resolveTypeRefWithin (room : Nat) (module : Module) (token : Token) :
    Preserves related (resolveTypeRefWithin room module token) := by
  induction room generalizing token with
  | zero => exact preserves_fail _
  | succ room induction =>
      rw [resolveTypeRefWithin]
      split
      · exact preserves_fail _
      · refine (preserves_ofExcept _).bind fun _ => (preserves_ofExcept _).bind fun _ => ?_
        dsimp only
        split
        · exact (preserves_resolveAssemblyReference agreement _ _).bind fun _ =>
            preserves_resolveType agreement _ _ _
        · exact preserves_resolveType agreement _ _ _
        · exact (induction _).bind fun _ => preserves_resolveNested agreement _ _ _
        · exact preserves_fail _

theorem preserves_resolveTypeRef (module : Module) (token : Token) :
    Preserves related (resolveTypeRef module token) :=
  preserves_resolveTypeRefWithin agreement _ module token

theorem preserves_resolvePrimitive (type : PrimitiveType) :
    Preserves related (resolvePrimitive type) := by
  rw [resolvePrimitive]
  split
  · apply preserves_context
    · intro left right alike
      rw [agreement.requireWellKnown alike]
    · intro context
      exact preserves_ofExcept _
  · apply preserves_context
    · intro left right alike
      rw [agreement.system alike]
    · intro context
      split
      · exact preserves_fail _
      · exact (preserves_resolveType agreement _ _ _).bind fun _ => preserves_pure _

end Action

namespace Bounded

variable {related : Context → Context → Prop}

/-- In related contexts the action is given up in both or in neither. If it is not, it answers the
same, and it leaves them related. -/
def Preserves (related : Context → Context → Prop) (action : Bounded α) : Prop :=
  ∀ system left right, related left right →
    Option.Rel (fun outcome other => outcome.1 = other.1 ∧ related outcome.2 other.2)
      (action system left) (action system right)

theorem preserves_ofAction {action : Action α} (preserves : action.Preserves related) :
    Preserves related (ofAction action) :=
  fun system left right alike => .some (preserves system left right alike)

theorem preserves_giveUp : Preserves related (giveUp : Bounded α) :=
  fun _ _ _ _ => .none

theorem Preserves.bind {first : Bounded α} {next : α → Bounded β}
    (preserves : Preserves related first)
    (preservesNext : ∀ value, Preserves related (next value)) :
    Preserves related (first >>= next) := by
  intro system left right alike
  rw [bind_apply, bind_apply]
  have agreed := preserves system left right alike
  revert agreed
  generalize first system left = outcome
  generalize first system right = other
  intro agreed
  cases agreed with
  | none => exact .none
  | @some outcome other agreed =>
      rcases outcome with ⟨result, after⟩
      rcases other with ⟨otherResult, otherAfter⟩
      rcases agreed with ⟨⟨rfl⟩, alikeAfter⟩
      cases result with
      | error error => exact .some ⟨rfl, alikeAfter⟩
      | ok value => exact preservesNext value system after otherAfter alikeAfter

theorem Preserves.settle {action : Bounded α} (preserves : Preserves related action)
    (error : Error) : (action.settle error).Preserves related := by
  intro system left right alike
  rw [Bounded.settle, Bounded.settle]
  have agreed := preserves system left right alike
  revert agreed
  generalize action system left = outcome
  generalize action system right = other
  intro agreed
  cases agreed with
  | none => exact ⟨rfl, alike⟩
  | some agreed => exact agreed

variable [ExecutableParser] (agreement : Agreement related)
include agreement

theorem preserves_directReference (module : Module) (token : Token) :
    (directReference module token).Preserves related := by
  rw [directReference]
  split
  · exact (Action.preserves_ofExcept _).bind fun _ => Action.preserves_pure _
  · split
    · exact (Action.preserves_resolveTypeRef agreement _ _).bind fun _ => Action.preserves_pure _
    · exact Action.preserves_fail _

theorem parametric_preserves : Parametric fun first _ => Preserves related first where
  giveUp := fun _ => preserves_giveUp
  pure := fun value => preserves_ofAction (Action.preserves_pure value)
  bind := Preserves.bind
  primitive := fun type => preserves_ofAction (Action.preserves_resolvePrimitive agreement type)
  head := fun token type => preserves_ofAction (Action.preserves_genericHead token type)
  decoded := fun result => preserves_ofAction (Action.preserves_ofExcept result)
  direct := fun module token =>
    preserves_ofAction (preserves_directReference agreement module token)

end Bounded

namespace Action

open Bounded

variable [ExecutableParser] {related : Context → Context → Prop}
variable (agreement : Agreement related)
include agreement

theorem preserves_resolveTypeReference (module : Module) (token : Token) :
    Preserves related (resolveTypeReference module token) :=
  ((parametric_preserves agreement).resolveReferenceWithin module (Nat.le_refl _) token).settle _

theorem preserves_resolveSignature (module : Module) (signature : TypeSignature) :
    Preserves related (resolveSignature module signature) := by
  have parametric := parametric_preserves agreement
  let reference := resolveReferenceWithin module (specificationBound module)
  have references : ∀ token, Bounded.Preserves related (reference token) :=
    fun token => parametric.resolveReferenceWithin module (Nat.le_refl _) token
  exact (@Parametric.resolveSignatureWith _ _ parametric reference reference references
    signature).settle _

/-! ## Runtime interfaces -/

theorem preserves_metadataInterfaces (type : TypeDesc) :
    Preserves related (metadataInterfaces type) := by
  rw [metadataInterfaces]
  split
  · exact preserves_pure _
  · apply preserves_context
    · intro left right alike
      rw [agreement.registry alike]
    · intro context
      split
      · exact preserves_fail _
      · apply preserves_mapM
        intro row
        exact (preserves_resolveTypeReference agreement _ _).bind fun _ => preserves_pure _

theorem preserves_interfacesBy (algorithm : InterfaceAlgorithm) (type : TypeDesc) :
    Preserves related (interfacesBy algorithm type) := by
  cases algorithm with
  | configured =>
      apply preserves_context
      · intro left right alike
        rw [agreement.interfaceSource alike]
      · intro context
        split
        · exact preserves_metadataInterfaces agreement type
        · exact preserves_ofExcept _
  | metadata => exact preserves_metadataInterfaces agreement type
  | arrayOf arrayClass =>
      cases type with
      | vector element => exact preserves_metadataInterfaces agreement _
      | _ => exact preserves_pure _
  | baseArray =>
      rw [interfacesBy, baseArrayInterfaces]
      split
      · apply preserves_context
        · intro left right alike
          rw [agreement.requireWellKnown alike]
        · intro context
          exact (preserves_ofExcept _).bind fun _ => preserves_metadataInterfaces agreement _
      · exact preserves_pure _

theorem preserves_genericArrayClass (remembering : ArrayClassAgreement related) :
    Preserves related genericArrayClass := by
  apply preserves_context
  · intro left right alike
    rw [remembering.arrayClass alike]
  · intro context
    split
    · exact preserves_pure _
    · apply preserves_context
      · intro left right alike
        rw [agreement.system alike]
      · intro context
        split
        · exact preserves_fail _
        · apply (preserves_resolveType agreement _ _ _).bind
          intro type
          have remembers :
              Preserves related (modify fun context => context.withArrayClass type) :=
            fun system left right alike => ⟨rfl, remembering.remembered alike type⟩
          exact remembers.bind fun _ => preserves_pure type

theorem preserves_interfaceAlgorithm? (remembering : ArrayClassAgreement related)
    (type : TypeDesc) : Preserves related (interfaceAlgorithm? type) := by
  cases type with
  | vector element =>
      rw [interfaceAlgorithm?]
      split
      · exact preserves_pure _
      · exact (preserves_genericArrayClass agreement remembering).bind fun _ => preserves_pure _
  | _ => exact preserves_pure _

theorem preserves_runtimeInterfaces (remembering : ArrayClassAgreement related)
    (type : TypeDesc) : Preserves related (runtimeInterfaces type) := by
  apply (preserves_interfaceAlgorithm? agreement remembering type).bind
  intro algorithm
  cases algorithm with
  | none => exact preserves_pure _
  | some algorithm => exact preserves_interfacesBy agreement algorithm type

end Action

open CilLoader.Action in
theorem Call.preserves_perform [ExecutableParser] {related : Context → Context → Prop}
    (agreement : Agreement related) (call : Call)
    (binding : ∀ module, call = .bindSystemModule module →
      Preserves related (Action.bindSystemModule module))
    (interfaces : ∀ type, call = .runtimeInterfaces type →
      Preserves related (Action.runtimeInterfaces type)) : Preserves related call.perform := by
  cases call with
  | resolveAssembly name =>
      exact (preserves_resolveAssembly agreement name).bind fun _ => preserves_pure _
  | tryResolveAssembly name =>
      apply (preserves_tryResolveAssembly agreement name).bind
      intro found
      cases found <;> exact preserves_pure _
  | addModule path expected =>
      exact (preserves_addModule agreement path expected).bind fun _ => preserves_pure _
  | resolveModuleByPath path =>
      exact (preserves_resolveModuleByPath agreement path).bind fun _ => preserves_pure _
  | loadDetached path =>
      exact (preserves_loadDetached agreement path).bind fun _ => preserves_pure _
  | preloadInputs => exact (preserves_preloadInputs agreement).bind fun _ => preserves_pure _
  | bindSystemModule module => exact (binding module rfl).bind fun _ => preserves_pure _
  | resolveAssemblyReference module token =>
      exact (preserves_resolveAssemblyReference agreement module token).bind fun _ =>
        preserves_pure _
  | resolveType module «namespace» name =>
      exact (preserves_resolveType agreement module «namespace» name).bind fun _ =>
        preserves_pure _
  | resolveTypeReference module token =>
      exact (preserves_resolveTypeReference agreement module token).bind fun _ => preserves_pure _
  | resolveSignature module signature =>
      exact (preserves_resolveSignature agreement module signature).bind fun _ => preserves_pure _
  | runtimeInterfaces type => exact (interfaces type rfl).bind fun _ => preserves_pure _

end CilLoader
