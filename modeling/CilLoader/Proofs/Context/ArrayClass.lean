import CilLoader.Proofs.Context.PathLoading
import CilLoader.Proofs.Context.SystemModule

/-!
# The generic array class

The generic array class is remembered once it has been found. The class that is remembered is the
one that would be found, so it makes no difference whether it is remembered, and it stays remembered
for good.
-/

namespace CilLoader

open CilLoader.Action

namespace Context

/-- Contexts that are the same but for symbols, the left one remembering some array class or none.
-/
theorem agreement_remembering (arrayClass : Option TypeDefinition) :
    Agreement fun left right => left.SameButSymbols right ∧ left.arrayClass = arrayClass :=
  agreement_sameButSymbols.restrict (fun same _ => same) (fun same => same) fun same _ _ => same

theorem arrayClass_of_preserves {context : Context} {action : Action α}
    (preserves : action.Preserves fun left right =>
      left.SameButSymbols right ∧ left.arrayClass = context.arrayClass) (system : FileSystem) :
    (action system context).2.arrayClass = context.arrayClass :=
  (preserves system context context ⟨rfl, rfl⟩).2.2

end Context

variable [ExecutableParser]

namespace Action

theorem genericArrayClass_of_remembered {context : Context} {type : TypeDefinition}
    (remembered : context.arrayClass = some type) (system : FileSystem) :
    genericArrayClass system context = (.ok type, context) := by
  rw [genericArrayClass, bind_apply, context_apply]
  simp only [remembered, pure_apply]

theorem genericArrayClass_of_unbound {context : Context} (forgotten : context.arrayClass = none)
    (unbound : context.system = none) (system : FileSystem) :
    (genericArrayClass system context).2 = context := by
  rw [genericArrayClass, bind_apply, context_apply]
  simp only [forgotten, bind_apply, context_apply, unbound, fail_apply]

theorem genericArrayClass_of_bound {context : Context} {binding : SystemBinding}
    (forgotten : context.arrayClass = none) (bound : context.system = some binding)
    (system : FileSystem) :
    genericArrayClass system context =
      match resolveType binding.module WellKnownType.namespace "Array`1" system context with
      | (.ok type, middle) => (.ok type, middle.withArrayClass type)
      | (.error error, middle) => (.error error, middle) := by
  rw [genericArrayClass, bind_apply, context_apply]
  simp only [forgotten, bind_apply, context_apply, bound]
  rcases resolveType binding.module WellKnownType.namespace "Array`1" system context with
    ⟨_ | _, _⟩ <;> rfl

end Action

namespace Context

variable {context later : Context} {system : FileSystem}

/-- A generic array class that is remembered is the one that would be found, without a change. -/
structure RemembersFound (context : Context) : Prop where
  settled : context.Settled
  found : ∀ type, context.arrayClass = some type → ∃ binding, context.system = some binding ∧
    ∀ system, resolveType binding.module WellKnownType.namespace "Array`1" system context =
      (.ok type, context)

theorem RemembersFound.changes (remembers : context.RemembersFound)
    (changes : Changes system context later) (same : later.arrayClass = context.arrayClass) :
    later.RemembersFound where
  settled := remembers.settled.changes changes
  found := by
    intro type remembered
    rcases remembers.found type (same ▸ remembered) with ⟨binding, bound, resolves⟩
    have grown := remembers.settled.extends changes
    exact ⟨binding, grown.system binding bound,
      (repeatable_resolveType _ _ _).again remembers.settled (resolves system) grown⟩

theorem Settled.remembersFound (settled : context.Settled) {binding : SystemBinding}
    (bound : context.system = some binding) {type : TypeDefinition}
    (resolved : resolveType binding.module WellKnownType.namespace "Array`1" system context =
      (.ok type, later)) : (later.withArrayClass type).RemembersFound := by
  have changes := (changing_resolveType _ _ _).changes resolved
  have remembering : Changes system later (later.withArrayClass type) :=
    (Change.remembered type).changes
  have settledLater := settled.changes changes
  refine ⟨settledLater.changes remembering, ?_⟩
  rintro _ ⟨rfl⟩
  exact ⟨binding, (settled.extends changes).system binding bound,
    (repeatable_resolveType _ _ _).again settled resolved (settledLater.extends remembering)⟩

theorem arrayClass_resolveType (module : Module) («namespace» name : String)
    (system : FileSystem) (context : Context) :
    (resolveType module «namespace» name system context).2.arrayClass = context.arrayClass :=
  arrayClass_of_preserves
    (preserves_resolveType (agreement_remembering context.arrayClass) module «namespace» name)
    system

theorem arrayClass_interfacesBy (algorithm : InterfaceAlgorithm) (type : TypeDesc)
    (system : FileSystem) (context : Context) :
    (interfacesBy algorithm type system context).2.arrayClass = context.arrayClass :=
  arrayClass_of_preserves
    (preserves_interfacesBy (agreement_remembering context.arrayClass) algorithm type) system

theorem arrayClass_after {call : Call} (otherCall : ∀ type, call ≠ .runtimeInterfaces type)
    (system : FileSystem) (context : Context) :
    (context.after system call).arrayClass = context.arrayClass := by
  have agreement := agreement_remembering context.arrayClass
  refine arrayClass_of_preserves (call.preserves_perform agreement ?_ ?_) system
  · intro module _
    apply preserves_bindSystemModule agreement
    intro left right alike module types
    exact ⟨alike.1.change (fun context => context.withSystem module types) fun _ => rfl, alike.2⟩
  · intro type isRuntimeInterfaces
    exact absurd isRuntimeInterfaces (otherCall type)

theorem RemembersFound.genericArrayClass (remembers : context.RemembersFound)
    (system : FileSystem) : (genericArrayClass system context).2.RemembersFound := by
  cases remembered : context.arrayClass with
  | some type =>
      rw [genericArrayClass_of_remembered remembered]
      exact remembers
  | none =>
      cases bound : context.system with
      | none =>
          rw [genericArrayClass_of_unbound remembered bound]
          exact remembers
      | some binding =>
          have changes := changing_resolveType binding.module WellKnownType.namespace "Array`1"
            system context
          have same := arrayClass_resolveType binding.module WellKnownType.namespace "Array`1"
            system context
          rw [genericArrayClass_of_bound remembered bound]
          revert changes same
          cases resolved : resolveType binding.module WellKnownType.namespace "Array`1" system
              context with
          | mk result middle =>
              intro changes same
              cases result with
              | error error => exact remembers.changes changes same
              | ok type => exact remembers.settled.remembersFound bound resolved

theorem RemembersFound.interfaceAlgorithm? (remembers : context.RemembersFound)
    (type : TypeDesc) (system : FileSystem) :
    (interfaceAlgorithm? type system context).2.RemembersFound := by
  cases type with
  | vector element =>
      rw [Action.interfaceAlgorithm?]
      split
      · exact remembers
      · have found := remembers.genericArrayClass system
        rw [bind_apply]
        revert found
        rcases Action.genericArrayClass system context with ⟨_ | _, _⟩ <;> exact id
  | _ => exact remembers

theorem RemembersFound.runtimeInterfaces (remembers : context.RemembersFound)
    (type : TypeDesc) (system : FileSystem) :
    (runtimeInterfaces type system context).2.RemembersFound := by
  have found := remembers.interfaceAlgorithm? type system
  rw [Action.runtimeInterfaces, bind_apply]
  revert found
  rcases Action.interfaceAlgorithm? type system context with ⟨_ | _ | algorithm, middle⟩
  · exact id
  · exact id
  · intro found
    exact found.changes (changing_interfacesBy algorithm type system middle)
      (arrayClass_interfacesBy algorithm type system middle)

theorem after_runtimeInterfaces (type : TypeDesc) (system : FileSystem) (context : Context) :
    context.after system (.runtimeInterfaces type) =
      (runtimeInterfaces type system context).2 := by
  rw [Context.after, Call.perform, after_bind fun _ _ _ => rfl]

theorem RemembersFound.after (remembers : context.RemembersFound) (system : FileSystem)
    (call : Call) : (context.after system call).RemembersFound := by
  by_cases asks : ∃ type, call = .runtimeInterfaces type
  · rcases asks with ⟨type, rfl⟩
    rw [after_runtimeInterfaces]
    exact remembers.runtimeInterfaces type system
  · refine remembers.changes (changes_after system context call)
      (arrayClass_after ?_ system context)
    intro type isRuntimeInterfaces
    exact asks ⟨type, isRuntimeInterfaces⟩

theorem interfaceAlgorithm?_of_remembered {arrayClass : TypeDefinition}
    (remembered : context.arrayClass = some arrayClass) (type : TypeDesc) (system : FileSystem) :
    (interfaceAlgorithm? type system context).2 = context := by
  cases type with
  | vector element =>
      rw [Action.interfaceAlgorithm?]
      split
      · rfl
      · rw [bind_apply, genericArrayClass_of_remembered remembered]
        rfl
  | _ => rfl

/-- Once remembered, the class stays remembered. -/
theorem arrayClass_after_of_remembered {arrayClass : TypeDefinition}
    (remembered : context.arrayClass = some arrayClass) (system : FileSystem) (call : Call) :
    (context.after system call).arrayClass = some arrayClass := by
  by_cases asks : ∃ type, call = .runtimeInterfaces type
  · rcases asks with ⟨type, rfl⟩
    have untouched := interfaceAlgorithm?_of_remembered remembered type system
    rw [after_runtimeInterfaces, Action.runtimeInterfaces, bind_apply]
    revert untouched
    rcases Action.interfaceAlgorithm? type system context with ⟨_ | _ | algorithm, middle⟩
    · rintro rfl
      exact remembered
    · rintro rfl
      exact remembered
    · rintro rfl
      exact (arrayClass_interfacesBy algorithm type system _).trans remembered
  · rw [arrayClass_after (fun type is => asks ⟨type, is⟩), remembered]

/-! ## Histories -/

theorem RemembersFound.afterHistory (remembers : context.RemembersFound)
    (history : List (FileSystem × Call)) : (context.afterHistory history).RemembersFound :=
  afterHistory_induction (fun system call remembers => remembers.after system call) remembers
    history

theorem arrayClass_afterHistory_of_remembered {arrayClass : TypeDefinition}
    (remembered : context.arrayClass = some arrayClass) (history : List (FileSystem × Call)) :
    (context.afterHistory history).arrayClass = some arrayClass :=
  @afterHistory_induction _ (fun later => later.arrayClass = some arrayClass) context
    (fun system call remembered => arrayClass_after_of_remembered remembered system call)
    remembered history

theorem remembersFound_of_fresh {config : Configuration}
    (fresh : ofConfiguration config = .ok context) : context.RemembersFound := by
  refine ⟨settled_of_fresh fresh, ?_⟩
  rw [eq_of_fresh fresh]
  rintro type ⟨⟩

theorem Evolved.remembersFound (evolved : context.Evolved) : context.RemembersFound := by
  rcases evolved with ⟨config, start, history, fresh, rfl⟩
  exact (remembersFound_of_fresh fresh).afterHistory history

/-- Whether the class is remembered makes no difference. -/
theorem RemembersFound.genericArrayClass_eq (remembers : context.RemembersFound)
    {binding : SystemBinding} (bound : context.system = some binding)
    {arrayClass : TypeDefinition} {resolved : Context}
    (found : resolveType binding.module WellKnownType.namespace "Array`1" system context =
      (.ok arrayClass, resolved)) :
    Action.genericArrayClass system context =
      (.ok arrayClass, resolved.withArrayClass arrayClass) := by
  cases remembered : context.arrayClass with
  | none => rw [genericArrayClass_of_bound remembered bound, found]
  | some type =>
      rcases remembers.found type remembered with ⟨other, otherBound, resolves⟩
      cases bound.symm.trans otherBound
      cases found.symm.trans (resolves system)
      have same : context.withArrayClass arrayClass = context := by
        rw [withArrayClass, ← remembered]
      rw [genericArrayClass_of_remembered remembered, same]

end Context

end CilLoader
