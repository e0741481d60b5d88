import CilLoader.Proofs.Context.Invariant

/-!
# Asking again

What has been answered once is answered again in every context that knows more, without any change:
all that the first answer had to load is there. The files may be different ones by then.
-/

namespace CilLoader

open Context

variable [ExecutableParser]

namespace Action

/-- Once the action has succeeded, it succeeds in every later context with the same answer and
without a change. -/
structure Repeatable (action : Action α) : Prop where
  changing : action.Changing
  again : ∀ {system context value after later}, context.Settled →
    action system context = (.ok value, after) → after.Extends later →
      ∀ laterSystem, action laterSystem later = (.ok value, later)

theorem repeatable_pure (value : α) : Repeatable (pure value : Action α) where
  changing := changing_pure value
  again := by
    rintro system context _ _ later _ ⟨rfl, rfl⟩ _ laterSystem
    rfl

theorem repeatable_fail (error : Error) : Repeatable (fail error : Action α) where
  changing := changing_fail error
  again := by
    intro system context value after later _ failed
    simp at failed

theorem repeatable_ofExcept (result : Except Error α) : Repeatable (ofExcept result) := by
  cases result with
  | error error => exact repeatable_fail error
  | ok value => exact repeatable_pure value

theorem Repeatable.bind {first : Action α} {next : α → Action β} (repeatable : Repeatable first)
    (repeatableNext : ∀ value, Repeatable (next value)) : Repeatable (first >>= next) where
  changing := repeatable.changing.bind fun value => (repeatableNext value).changing
  again := by
    intro system context value after later settled succeeded grown laterSystem
    rw [bind_apply] at succeeded ⊢
    cases start : first system context with
    | mk result middle =>
        simp only [start] at succeeded
        cases result with
        | error error => cases succeeded
        | ok startValue =>
            have changes := repeatable.changing.changes start
            have changesNext := (repeatableNext startValue).changing.changes succeeded
            have settledMiddle := settled.changes changes
            have grownMiddle := (settledMiddle.extends changesNext).trans grown
            rw [repeatable.again settled start grownMiddle]
            exact (repeatableNext startValue).again settledMiddle succeeded grown laterSystem

theorem repeatable_context {next : Context → Action α}
    (repeatable : ∀ context, Repeatable (next context))
    (kept : ∀ {context later : Context}, context.Extends later →
      next later = next context ∨ ∃ error, next context = fail error) :
    Repeatable (Action.context >>= next) where
  changing := changing_context fun context => (repeatable context).changing
  again := by
    intro system context value after later settled succeeded grown laterSystem
    have answered : next context system context = (.ok value, after) := succeeded
    show next later laterSystem later = (.ok value, later)
    have changes := (repeatable context).changing.changes answered
    rcases kept ((settled.extends changes).trans grown) with same | ⟨error, failed⟩
    · rw [same]
      exact (repeatable context).again settled answered grown laterSystem
    · simp [failed] at answered

theorem repeatable_mapM {act : α → Action β} (repeatable : ∀ value, Repeatable (act value))
    (values : List α) : Repeatable (values.mapM act) := by
  induction values with
  | nil => exact repeatable_pure []
  | cons value values induction =>
      rw [List.mapM_cons]
      exact (repeatable value).bind fun _ => induction.bind fun _ => repeatable_pure _

/-! ## Loading -/

theorem getByName?_of_addModule {path : Path} {name : String} {system : FileSystem}
    {context after : Context} {module : Module}
    (added : addModule path (some name) system context = (.ok module, after)) :
    after.registry.getByName? name = some module := by
  rcases addModule_cases path (some name) system context with
    ⟨_, _, _, loaded⟩ | ⟨candidate, _, made,
      ⟨_, _, loaded⟩ | ⟨existing, present, _, loaded⟩ | ⟨_, _, _, loaded⟩⟩
  · cases loaded.symm.trans added
  · cases loaded.symm.trans added
    exact Registry.getByName?_insert_of_eq ((Module.atPath_eq_ok made).2.2.2 name rfl).symm
  · cases loaded.symm.trans added
    rw [Registry.getByName?, (Module.atPath_eq_ok made).2.2.2 name rfl]
    exact present
  · cases loaded.symm.trans added

theorem resolveAssembly_of_getByName? {name : String} {system : FileSystem} {context : Context}
    {module : Module}
    (present : context.registry.getByName? (Identity.simpleNameOf name) = some module) :
    resolveAssembly name system context = (.ok module, context) := by
  simp [resolveAssembly, tryResolveAssembly, bind_apply, present]

theorem getByName?_of_resolveAssembly {name : String} {system : FileSystem}
    {context after : Context} {module : Module}
    (resolved : resolveAssembly name system context = (.ok module, after)) :
    after.registry.getByName? (Identity.simpleNameOf name) = some module := by
  cases present : context.registry.getByName? (Identity.simpleNameOf name) with
  | some existing =>
      rw [resolveAssembly_of_getByName? present] at resolved
      cases resolved
      exact present
  | none =>
      simp only [resolveAssembly, tryResolveAssembly, bind_apply, context_apply, present]
        at resolved
      cases source : context.config.source? (Identity.simpleNameOf name) with
      | none => simp [source] at resolved
      | some file =>
          simp only [source, bind_apply] at resolved
          cases added : addModule file.path (some (Identity.simpleNameOf name)) system context with
          | mk result middle =>
              cases result with
              | error error => simp [added] at resolved
              | ok loaded =>
                  simp only [added, pure_apply] at resolved
                  cases resolved
                  exact getByName?_of_addModule added

theorem repeatable_resolveAssembly (name : String) : Repeatable (resolveAssembly name) where
  changing := changing_resolveAssembly name
  again := by
    intro system context module after later _ resolved grown laterSystem
    exact resolveAssembly_of_getByName?
      (grown.byName _ _ (getByName?_of_resolveAssembly resolved))

/-! ## Resolution -/

theorem repeatable_resolveAssemblyReference (module : Module) (token : Token) :
    Repeatable (resolveAssemblyReference module token) := by
  rw [resolveAssemblyReference]
  split
  · exact (repeatable_ofExcept _).bind fun _ => repeatable_resolveAssembly _
  · exact repeatable_fail _

theorem repeatable_resolveTypeWithin (room : Nat) (module : Module) («namespace» name : String) :
    Repeatable (resolveTypeWithin room module «namespace» name) := by
  induction room generalizing module with
  | zero => exact repeatable_fail _
  | succ room induction =>
      apply (repeatable_ofExcept _).bind
      intro own
      cases own with
      | some type => exact repeatable_pure type
      | none =>
          apply (repeatable_ofExcept _).bind
          intro forwarder
          cases forwarder with
          | none => exact repeatable_fail _
          | some reference =>
              exact (repeatable_resolveAssemblyReference module reference).bind fun target =>
                induction target

theorem repeatable_resolveType (module : Module) («namespace» name : String) :
    Repeatable (resolveType module «namespace» name) :=
  repeatable_resolveTypeWithin _ module «namespace» name

theorem repeatable_resolveNested (reference : Token) (enclosing : TypeDefinition)
    (name : String) : Repeatable (resolveNested reference enclosing name) := by
  refine repeatable_context (fun context => ?_) fun {context later} grown => ?_
  · split
    · exact repeatable_fail _
    · apply (repeatable_ofExcept _).bind
      intro nested
      cases nested with
      | none => exact repeatable_fail _
      | some type => exact repeatable_pure type
  · cases present : context.registry.get? enclosing.module with
    | none => exact .inr ⟨_, rfl⟩
    | some owner => exact .inl (by rw [grown.byId _ _ present])

theorem repeatable_resolveTypeRefWithin (room : Nat) (module : Module) (token : Token) :
    Repeatable (resolveTypeRefWithin room module token) := by
  induction room generalizing token with
  | zero => exact repeatable_fail _
  | succ room induction =>
      rw [resolveTypeRefWithin]
      split
      · exact repeatable_fail _
      · refine (repeatable_ofExcept _).bind fun _ => (repeatable_ofExcept _).bind fun _ => ?_
        dsimp only
        split
        · exact (repeatable_resolveAssemblyReference _ _).bind fun _ =>
            repeatable_resolveType _ _ _
        · exact repeatable_resolveType _ _ _
        · exact (induction _).bind fun _ => repeatable_resolveNested _ _ _
        · exact repeatable_fail _

theorem repeatable_resolveTypeRef (module : Module) (token : Token) :
    Repeatable (resolveTypeRef module token) :=
  repeatable_resolveTypeRefWithin _ module token

theorem repeatable_resolvePrimitive (type : PrimitiveType) :
    Repeatable (resolvePrimitive type) := by
  rw [resolvePrimitive]
  split
  · refine repeatable_context (fun context => repeatable_ofExcept _)
      fun {context later} grown => ?_
    cases bound : context.system with
    | none => exact .inr ⟨_, by rw [requireWellKnown, wellKnown?, bound]; rfl⟩
    | some binding =>
        exact .inl (by
          rw [requireWellKnown, requireWellKnown, wellKnown?, wellKnown?, bound,
            grown.system binding bound])
  · refine repeatable_context (fun context => ?_) fun {context later} grown => ?_
    · split
      · exact repeatable_fail _
      · exact (repeatable_resolveType _ _ _).bind fun _ => repeatable_pure _
    · cases bound : context.system with
      | none => exact .inr ⟨_, rfl⟩
      | some binding => exact .inl (by rw [grown.system binding bound])

theorem repeatable_genericHead (token : Token) (type : TypeDesc) :
    Repeatable (genericHead token type) := by
  cases type <;> first | exact repeatable_pure _ | exact repeatable_fail _

end Action

namespace Bounded

structure Repeatable (action : Bounded α) : Prop where
  changing : action.Changing
  again : ∀ {system context value after later}, context.Settled →
    action system context = some (.ok value, after) → after.Extends later →
      ∀ laterSystem, action laterSystem later = some (.ok value, later)

theorem repeatable_ofAction {action : Action α} (repeatable : action.Repeatable) :
    Repeatable (ofAction action) where
  changing := changing_ofAction repeatable.changing
  again := by
    intro system context value after later settled succeeded grown laterSystem
    exact congrArg some (repeatable.again settled (Option.some.inj succeeded) grown laterSystem)

theorem repeatable_pure (value : α) : Repeatable (pure value : Bounded α) :=
  repeatable_ofAction (Action.repeatable_pure value)

theorem repeatable_giveUp : Repeatable (giveUp : Bounded α) where
  changing := changing_giveUp
  again := by
    intro system context value after later _ succeeded
    cases succeeded

theorem Repeatable.bind {first : Bounded α} {next : α → Bounded β}
    (repeatable : Repeatable first) (repeatableNext : ∀ value, Repeatable (next value)) :
    Repeatable (first >>= next) where
  changing := repeatable.changing.bind fun value => (repeatableNext value).changing
  again := by
    intro system context value after later settled succeeded grown laterSystem
    rcases bind_eq_some_ok.mp succeeded with ⟨startValue, middle, start, succeeded⟩
    have settledMiddle := settled.changes (repeatable.changing system context _ start)
    have changesNext := (repeatableNext startValue).changing system middle _ succeeded
    have grownMiddle := (settledMiddle.extends changesNext).trans grown
    rw [bind_of_ok (repeatable.again settled start grownMiddle laterSystem)]
    exact (repeatableNext startValue).again settledMiddle succeeded grown laterSystem

theorem Repeatable.settle {action : Bounded α} (repeatable : Repeatable action) (error : Error) :
    (action.settle error).Repeatable where
  changing := repeatable.changing.settle error
  again := by
    intro system context value after later settled succeeded grown laterSystem
    exact settle_eq_ok.mpr
      (repeatable.again settled (settle_eq_ok.mp succeeded) grown laterSystem)

section Unchanged

variable {system : FileSystem} {context : Context}

/-- A run that changes nothing consists of runs that change nothing. -/
theorem Repeatable.bind_unchanged {first : Bounded α} {next : α → Bounded β}
    (repeatable : Repeatable first) (repeatableNext : ∀ value, Repeatable (next value))
    (settled : context.Settled) {value : β}
    (run : (first >>= next) system context = some (.ok value, context)) :
    ∃ start, first system context = some (.ok start, context) ∧
      next start system context = some (.ok value, context) := by
  rcases bind_eq_some_ok.mp run with ⟨start, middle, started, continued⟩
  have changes := repeatable.changing system context _ started
  have changesNext := (repeatableNext start).changing system middle _ continued
  have again := repeatable.again settled started
    ((settled.changes changes).extends changesNext) system
  have unchanged : middle = context := by
    cases started.symm.trans again
    rfl
  rw [unchanged] at started continued
  exact ⟨start, started, continued⟩

theorem Repeatable.map_unchanged {action : Bounded α} (repeatable : Repeatable action)
    (settled : context.Settled) {make : α → β} {made : β}
    (run : (do return make (← action)) system context = some (.ok made, context)) :
    ∃ value, action system context = some (.ok value, context) ∧ made = make value := by
  rcases repeatable.bind_unchanged (fun _ => repeatable_pure _) settled run with
    ⟨value, answered, ⟨⟩⟩
  exact ⟨value, answered, rfl⟩

end Unchanged

theorem repeatable_directReference (module : Module) (token : Token) :
    (directReference module token).Repeatable := by
  rw [directReference]
  split
  · exact (Action.repeatable_ofExcept _).bind fun _ => Action.repeatable_pure _
  · split
    · exact (Action.repeatable_resolveTypeRef _ _).bind fun _ => Action.repeatable_pure _
    · exact Action.repeatable_fail _

theorem parametric_repeatable : Parametric fun first _ => Repeatable first where
  giveUp := fun _ => repeatable_giveUp
  pure := repeatable_pure
  bind := Repeatable.bind
  primitive := fun type => repeatable_ofAction (Action.repeatable_resolvePrimitive type)
  head := fun token type => repeatable_ofAction (Action.repeatable_genericHead token type)
  decoded := fun result => repeatable_ofAction (Action.repeatable_ofExcept result)
  direct := fun module token => repeatable_ofAction (repeatable_directReference module token)

theorem repeatable_resolveSignatureWith {reference : Token → Bounded TypeDesc}
    (repeatable : ∀ token, Repeatable (reference token)) (signature : TypeSignature) :
    Repeatable (resolveSignatureWith reference signature) :=
  @Parametric.resolveSignatureWith _ _ parametric_repeatable reference reference repeatable
    signature

theorem repeatable_resolveSignaturesWith {reference : Token → Bounded TypeDesc}
    (repeatable : ∀ token, Repeatable (reference token)) (signatures : List TypeSignature) :
    Repeatable (resolveSignaturesWith reference signatures) :=
  @Parametric.resolveSignaturesWith _ _ parametric_repeatable reference reference repeatable
    signatures

theorem repeatable_resolveReferenceWithin (module : Module) (bound : Nat) (token : Token) :
    Repeatable (resolveReferenceWithin module bound token) :=
  parametric_repeatable.resolveReferenceWithin module (Nat.le_refl bound) token

end Bounded

namespace Action

theorem repeatable_resolveTypeReference (module : Module) (token : Token) :
    Repeatable (resolveTypeReference module token) :=
  (Bounded.repeatable_resolveReferenceWithin module _ token).settle _

theorem repeatable_resolveSignature (module : Module) (signature : TypeSignature) :
    Repeatable (resolveSignature module signature) :=
  (Bounded.repeatable_resolveSignatureWith
    (Bounded.repeatable_resolveReferenceWithin module _) signature).settle _

theorem repeatable_metadataInterfaces (type : TypeDesc) :
    Repeatable (metadataInterfaces type) := by
  rw [metadataInterfaces]
  split
  · exact repeatable_pure _
  case _ definition _ =>
    refine repeatable_context (fun context => ?_) fun {context later} grown => ?_
    · split
      · exact repeatable_fail _
      · apply repeatable_mapM
        intro row
        exact (repeatable_resolveTypeReference _ _).bind fun _ => repeatable_pure _
    · cases present : context.registry.get? definition.module with
      | none => exact .inr ⟨_, rfl⟩
      | some module => exact .inl (by rw [grown.byId _ _ present])

end Action

end CilLoader
