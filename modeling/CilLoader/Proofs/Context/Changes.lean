import Mathlib.Logic.Relation
import CilLoader.Context.Interfaces
import CilLoader.Proofs.Context.Loading
import CilLoader.Proofs.Module.SameSource
import CilLoader.Proofs.Resolution.Parametricity

/-!
# How a context changes

Whatever is asked of a context, it changes in five ways only: paths are noted as opened, numbers are
used up, modules are registered, the system module is bound and the generic array class is
remembered. What each of these changes keeps, every action keeps, whether it succeeds or fails.
-/

namespace CilLoader

namespace Context

/-- The context in which types of a module have been tagged and published as the well-known ones. -/
def withSystem (context : Context) (module : Module) (types : List TypeDefinition) : Context :=
  { context.withTags (types.zip WellKnownType.all) with system := some { module, types } }

end Context

theorem Action.bindSystemModule_eq (module : Module) (system : FileSystem) (context : Context) :
    bindSystemModule module system context =
      match context.system with
      | some bound => (.error (.systemModuleAlreadyBound bound.module.simpleName), context)
      | none =>
        match WellKnownType.all.mapM module.wellKnownType with
        | .error error => (.error error, context)
        | .ok types => (.ok (), context.withSystem module types) := by
  simp only [bindSystemModule, bind_apply, context_apply]
  cases unbound : context.system with
  | some bound => rfl
  | none =>
      simp only [bind_apply, ofExcept_apply]
      cases WellKnownType.all.mapM module.wellKnownType with
      | error error => rfl
      | ok types =>
          -- Tagging the types leaves the context as unbound as it was.
          have stillUnbound : (context.withTags (types.zip WellKnownType.all)).system = none :=
            unbound
          simp only [publishWellKnown, bind_apply, modify_apply, context_apply, stillUnbound]
          rfl

variable [ExecutableParser]

/-- The module is what the file at its path holds. -/
structure Module.LoadedFrom (system : FileSystem) (module : Module) : Prop where
  canonicalPath : ∃ path, system.canonicalize path = .ok module.path
  image : (system.read module.path >>= Image.ofBytes module.path) = .ok module.image
  identity : module.metadata.identity? = .ok (some module.identity)

namespace Module

theorem SameSource.of_loadedFrom {system : FileSystem} {left right : Module}
    (leftLoaded : left.LoadedFrom system) (rightLoaded : right.LoadedFrom system)
    (samePath : left.path = right.path) : left.SameSource right := by
  have image := leftLoaded.image
  rw [samePath, rightLoaded.image] at image
  have sameImage := (Except.ok.inj image).symm
  have identity := leftLoaded.identity
  rw [Module.metadata, sameImage, ← Module.metadata, rightLoaded.identity] at identity
  exact ⟨sameImage, (Option.some.inj (Except.ok.inj identity)).symm⟩

theorem atPath_eq_ok {system : FileSystem} {id : ModuleId} {path : Path}
    {expected : Option String} {module : Module}
    (made : atPath system id path expected = .ok module) :
    module.id = id ∧ module.LoadedFrom system ∧ system.canonicalize path = .ok module.path ∧
      ∀ name ∈ expected, foldName name = foldName module.simpleName := by
  rcases Error.bind_eq_ok.mp made with ⟨canonicalPath, canonical, made⟩
  rcases Error.bind_eq_ok.mp made with ⟨image, loaded, made⟩
  rcases ofImage_eq_ok made with ⟨sameId, sameImage, identity, name⟩
  have samePath : module.path = canonicalPath := by
    rcases Error.bind_eq_ok.mp loaded with ⟨data, _, ofBytes⟩
    rcases Error.bind_eq_ok.mp ofBytes with ⟨file, _, ofBytes⟩
    rcases Error.bind_eq_ok.mp ofBytes with ⟨metadata, _, ofBytes⟩
    cases ofBytes
    rw [Module.path, sameImage]
  subst samePath
  refine ⟨sameId, ⟨⟨path, canonical⟩, ?_, ?_⟩, canonical, name⟩
  · rw [sameImage]
    exact loaded
  · rw [metadata, sameImage]
    exact identity

end Module

namespace Context

inductive Change (system : FileSystem) (context : Context) : Context → Prop
  | opened (paths : List Path) : Change system context (context.withOpened paths)
  | numbered : Change system context context.withNumberUsed
  | registered (module : Module) (found : Option Symbols)
      (source : module.LoadedFrom system) (number : module.id = context.nextId)
      (freshName : context.registry.getByName? module.simpleName = none) :
      Change system context (context.withNumberUsed.withModule module found)
  | bound (module : Module) (types : List TypeDefinition) (unbound : context.system = none)
      (found : WellKnownType.all.mapM module.wellKnownType = .ok types) :
      Change system context (context.withSystem module types)
  | remembered (type : TypeDefinition) : Change system context (context.withArrayClass type)

def Changes (system : FileSystem) : Context → Context → Prop :=
  Relation.ReflTransGen (Change system)

theorem Changes.refl (system : FileSystem) (context : Context) : Changes system context context :=
  Relation.ReflTransGen.refl

theorem Changes.trans {system : FileSystem} {first second third : Context}
    (before : Changes system first second) (after : Changes system second third) :
    Changes system first third :=
  Relation.ReflTransGen.trans before after

theorem Change.changes {system : FileSystem} {before after : Context}
    (change : Change system before after) : Changes system before after :=
  Relation.ReflTransGen.single change

end Context

namespace Action

open Context

/-- Whatever comes of the action, it changes the context in the known ways only. -/
def Changing (action : Action α) : Prop :=
  ∀ system context, Changes system context (action system context).2

theorem Changing.changes {action : Action α} (changing : Changing action) {system : FileSystem}
    {context after : Context} {result : Except Error α}
    (run : action system context = (result, after)) : Changes system context after := by
  simpa only [run] using changing system context

theorem changing_pure (value : α) : Changing (pure value : Action α) :=
  fun system context => Changes.refl system context

theorem changing_fail (error : Error) : Changing (fail error : Action α) :=
  fun system context => Changes.refl system context

theorem changing_ofExcept (result : Except Error α) : Changing (ofExcept result) := by
  intro system context
  rw [ofExcept_apply]
  exact Changes.refl system context

theorem Changing.bind {first : Action α} {next : α → Action β} (changing : Changing first)
    (changingNext : ∀ value, Changing (next value)) : Changing (first >>= next) := by
  intro system context
  have before := changing system context
  rw [bind_apply]
  cases outcome : first system context with
  | mk result middle =>
      rw [outcome] at before
      cases result with
      | error error => exact before
      | ok value => exact before.trans (changingNext value system middle)

/-- An action that only looks at the context first. -/
theorem changing_context {next : Context → Action α}
    (changing : ∀ context, Changing (next context)) : Changing (Action.context >>= next) :=
  Changing.bind (fun system context => Changes.refl system context) changing

theorem changing_fileSystem {next : FileSystem → Action α}
    (changing : ∀ system, Changing (next system)) : Changing (fileSystem >>= next) :=
  Changing.bind (fun system context => Changes.refl system context) changing

theorem changing_mapM {act : α → Action β} (changing : ∀ value, Changing (act value))
    (values : List α) : Changing (values.mapM act) := by
  induction values with
  | nil => exact changing_pure []
  | cons value values induction =>
      rw [List.mapM_cons]
      exact (changing value).bind fun _ => induction.bind fun _ => changing_pure _

/-! ## Loading -/

theorem changing_addModule (path : Path) (expected : Option String) :
    Changing (addModule path expected) := by
  intro system context
  have notedOpened (opened : List Path) : Changes system context (context.withOpened opened) :=
    Change.changes (Change.opened opened)
  rcases addModule_cases path expected system context with
    ⟨_, opened, _, loaded⟩ | ⟨module, opened, made,
      ⟨found, freshName, loaded⟩ | ⟨_, _, _, loaded⟩ | ⟨_, _, _, loaded⟩⟩
  · rw [loaded]
    exact notedOpened opened
  · rw [loaded]
    rcases Module.atPath_eq_ok made with ⟨number, source, _⟩
    have registered : Change system (context.withOpened opened)
        ((context.withOpened opened).withNumberUsed.withModule module found) :=
      Change.registered module found source number freshName
    exact (notedOpened opened).trans registered.changes
  all_goals
    rw [loaded]
    exact (notedOpened opened).trans Change.numbered.changes

theorem changing_tryResolveAssembly (name : String) : Changing (tryResolveAssembly name) := by
  apply changing_context
  intro context
  split
  · exact changing_pure _
  · apply changing_context
    intro context
    split
    · exact changing_pure _
    · exact (changing_addModule _ _).bind fun _ => changing_pure _

theorem changing_resolveAssembly (name : String) : Changing (resolveAssembly name) := by
  apply (changing_tryResolveAssembly name).bind
  intro found
  cases found with
  | none => exact changing_fail _
  | some module => exact changing_pure module

theorem changing_resolveModuleByPath (path : Path) : Changing (resolveModuleByPath path) := by
  apply changing_fileSystem
  intro system
  refine (changing_ofExcept _).bind fun path => changing_context fun context => ?_
  split
  · exact changing_pure _
  · exact changing_addModule path none

theorem changing_preloadInputs : Changing preloadInputs :=
  changing_context fun _ =>
    (changing_mapM (fun _ => changing_resolveAssembly _) _).bind fun _ => changing_pure _

theorem changing_makeModule (image : Image) (expected : Option String) :
    Changing (makeModule image expected) := by
  intro system context
  rw [makeModule_eq]
  split
  · exact Change.numbered.changes
  · exact Changes.refl system context

theorem changing_loadDetached (path : Path) : Changing (loadDetached path) :=
  changing_fileSystem fun _ =>
    (changing_ofExcept _).bind fun _ => (changing_ofExcept _).bind fun _ =>
      changing_makeModule _ none

theorem changing_bindSystemModule (module : Module) : Changing (bindSystemModule module) := by
  intro system context
  rw [bindSystemModule_eq]
  split
  case h_1 => exact Changes.refl system context
  case h_2 unbound =>
    split
    case h_1 => exact Changes.refl system context
    case h_2 types found => exact (Change.bound module types unbound found).changes

/-! ## Resolution -/

theorem changing_resolveAssemblyReference (module : Module) (token : Token) :
    Changing (resolveAssemblyReference module token) := by
  rw [resolveAssemblyReference]
  split
  · exact (changing_ofExcept _).bind fun _ => changing_resolveAssembly _
  · exact changing_fail _

theorem changing_resolveTypeWithin (room : Nat) (module : Module) («namespace» name : String) :
    Changing (resolveTypeWithin room module «namespace» name) := by
  induction room generalizing module with
  | zero => exact changing_fail _
  | succ room induction =>
      apply (changing_ofExcept _).bind
      intro own
      cases own with
      | some type => exact changing_pure type
      | none =>
          apply (changing_ofExcept _).bind
          intro forwarder
          cases forwarder with
          | none => exact changing_fail _
          | some reference =>
              exact (changing_resolveAssemblyReference module reference).bind fun target =>
                induction target

theorem changing_resolveType (module : Module) («namespace» name : String) :
    Changing (resolveType module «namespace» name) :=
  changing_resolveTypeWithin _ module «namespace» name

theorem changing_resolveNested (reference : Token) (enclosing : TypeDefinition) (name : String) :
    Changing (resolveNested reference enclosing name) := by
  apply changing_context
  intro context
  split
  · exact changing_fail _
  · apply (changing_ofExcept _).bind
    intro nested
    cases nested with
    | none => exact changing_fail _
    | some type => exact changing_pure type

theorem changing_resolveTypeRefWithin (room : Nat) (module : Module) (token : Token) :
    Changing (resolveTypeRefWithin room module token) := by
  induction room generalizing token with
  | zero => exact changing_fail _
  | succ room induction =>
      rw [resolveTypeRefWithin]
      split
      · exact changing_fail _
      · refine (changing_ofExcept _).bind fun _ => (changing_ofExcept _).bind fun _ => ?_
        dsimp only
        split
        · exact (changing_resolveAssemblyReference _ _).bind fun _ => changing_resolveType _ _ _
        · exact changing_resolveType _ _ _
        · exact (induction _).bind fun _ => changing_resolveNested _ _ _
        · exact changing_fail _

theorem changing_resolveTypeRef (module : Module) (token : Token) :
    Changing (resolveTypeRef module token) :=
  changing_resolveTypeRefWithin _ module token

theorem changing_resolvePrimitive (type : PrimitiveType) : Changing (resolvePrimitive type) := by
  rw [resolvePrimitive]
  split
  · exact changing_context fun _ => changing_ofExcept _
  · apply changing_context
    intro context
    split
    · exact changing_fail _
    · exact (changing_resolveType _ _ _).bind fun _ => changing_pure _

theorem changing_genericHead (token : Token) (type : TypeDesc) :
    Changing (genericHead token type) := by
  cases type <;> first | exact changing_pure _ | exact changing_fail _

end Action

namespace Bounded

open Context

def Changing (action : Bounded α) : Prop :=
  ∀ system context outcome, action system context = some outcome →
    Changes system context outcome.2

theorem changing_ofAction {action : Action α} (changing : action.Changing) :
    Changing (ofAction action) := by
  rintro system context outcome ⟨rfl⟩
  exact changing system context

theorem changing_pure (value : α) : Changing (pure value : Bounded α) :=
  changing_ofAction (Action.changing_pure value)

theorem changing_giveUp : Changing (giveUp : Bounded α) := by
  rintro system context outcome ⟨⟩

theorem Changing.bind {first : Bounded α} {next : α → Bounded β} (changing : Changing first)
    (changingNext : ∀ value, Changing (next value)) : Changing (first >>= next) := by
  intro system context outcome reached
  rw [bind_apply] at reached
  cases start : first system context with
  | none => simp [start] at reached
  | some middle =>
      rcases middle with ⟨result, middle⟩
      have before := changing system context _ start
      simp only [start] at reached
      cases result with
      | error error =>
          cases reached
          exact before
      | ok value => exact before.trans (changingNext value system middle outcome reached)

theorem Changing.settle {action : Bounded α} (changing : Changing action) (error : Error) :
    (action.settle error).Changing := by
  intro system context
  rw [Bounded.settle]
  cases outcome : action system context with
  | none => exact Changes.refl system context
  | some outcome' => exact changing system context outcome' outcome

theorem changing_directReference (module : Module) (token : Token) :
    (directReference module token).Changing := by
  rw [directReference]
  split
  · exact (Action.changing_ofExcept _).bind fun _ => Action.changing_pure _
  · split
    · exact (Action.changing_resolveTypeRef _ _).bind fun _ => Action.changing_pure _
    · exact Action.changing_fail _

/-- Whether an action changes a context in the known ways is a property of actions. -/
theorem parametric_changing : Parametric fun first _ => Changing first where
  giveUp := fun _ => changing_giveUp
  pure := changing_pure
  bind := Changing.bind
  primitive := fun type => changing_ofAction (Action.changing_resolvePrimitive type)
  head := fun token type => changing_ofAction (Action.changing_genericHead token type)
  decoded := fun result => changing_ofAction (Action.changing_ofExcept result)
  direct := fun module token => changing_ofAction (changing_directReference module token)

theorem changing_resolveSignatureWith {reference : Token → Bounded TypeDesc}
    (changing : ∀ token, Changing (reference token)) (signature : TypeSignature) :
    Changing (resolveSignatureWith reference signature) :=
  @Parametric.resolveSignatureWith _ _ parametric_changing reference reference changing signature

theorem changing_resolveSignaturesWith {reference : Token → Bounded TypeDesc}
    (changing : ∀ token, Changing (reference token)) (signatures : List TypeSignature) :
    Changing (resolveSignaturesWith reference signatures) :=
  @Parametric.resolveSignaturesWith _ _ parametric_changing reference reference changing signatures

theorem changing_resolveReferenceWithin (module : Module) (bound : Nat) (token : Token) :
    Changing (resolveReferenceWithin module bound token) :=
  parametric_changing.resolveReferenceWithin module (Nat.le_refl bound) token

end Bounded

namespace Action

theorem changing_resolveTypeReference (module : Module) (token : Token) :
    Changing (resolveTypeReference module token) :=
  (Bounded.changing_resolveReferenceWithin module _ token).settle _

theorem changing_resolveSignature (module : Module) (signature : TypeSignature) :
    Changing (resolveSignature module signature) :=
  (Bounded.changing_resolveSignatureWith
    (Bounded.changing_resolveReferenceWithin module _) signature).settle _

/-! ## Interfaces -/

theorem changing_metadataInterfaces (type : TypeDesc) : Changing (metadataInterfaces type) := by
  rw [metadataInterfaces]
  split
  · exact changing_pure _
  · apply changing_context
    intro context
    split
    · exact changing_fail _
    · refine changing_mapM (fun row => ?_) _
      exact (changing_resolveTypeReference _ _).bind fun _ => changing_pure _

theorem changing_interfacesBy (algorithm : InterfaceAlgorithm) (type : TypeDesc) :
    Changing (interfacesBy algorithm type) := by
  cases algorithm with
  | configured =>
      apply changing_context
      intro context
      split
      · exact changing_metadataInterfaces type
      · exact changing_ofExcept _
  | metadata => exact changing_metadataInterfaces type
  | arrayOf arrayClass =>
      cases type with
      | vector element => exact changing_metadataInterfaces _
      | _ => exact changing_pure _
  | baseArray =>
      rw [interfacesBy, baseArrayInterfaces]
      split
      · apply changing_context
        intro context
        exact (changing_ofExcept _).bind fun _ => changing_metadataInterfaces _
      · exact changing_pure _

theorem changing_genericArrayClass : Changing genericArrayClass := by
  apply changing_context
  intro context
  split
  · exact changing_pure _
  · apply changing_context
    intro context
    split
    · exact changing_fail _
    · apply (changing_resolveType _ _ _).bind
      intro type
      have remembers : Changing (modify fun context => context.withArrayClass type) :=
        fun system context => (Context.Change.remembered type).changes
      exact remembers.bind fun _ => changing_pure type

theorem changing_interfaceAlgorithm? (type : TypeDesc) : Changing (interfaceAlgorithm? type) := by
  cases type with
  | vector element =>
      rw [interfaceAlgorithm?]
      split
      · exact changing_pure _
      · exact changing_genericArrayClass.bind fun _ => changing_pure _
  | _ => exact changing_pure _

theorem changing_runtimeInterfaces (type : TypeDesc) : Changing (runtimeInterfaces type) := by
  apply (changing_interfaceAlgorithm? type).bind
  intro algorithm
  cases algorithm with
  | none => exact changing_pure _
  | some algorithm => exact changing_interfacesBy algorithm type

end Action

end CilLoader
