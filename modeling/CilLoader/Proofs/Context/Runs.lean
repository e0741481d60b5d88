import CilLoader.Executable.Container
import CilLoader.Proofs.Context.Invariant

/-!
# Runs of a context

A history is any sequence of calls on a fresh context, each with the files that there are at its
time. Calls that fail are part of it. A context that a history leads to has evolved, and what it
keeps is said of every such context. A run is a history in which the files stay as they are, and
after it the modules still are what their files hold. The input files are preloaded in the order in
which the configuration lists them, which can be any order.
-/

namespace CilLoader

namespace Action

/-- What only makes an answer of a result leaves the context as it is. -/
theorem after_bind {first : Action α} {next : α → Action β}
    (kept : ∀ value system context, (next value system context).2 = context)
    (system : FileSystem) (context : Context) :
    ((first >>= next) system context).2 = (first system context).2 := by
  rw [bind_apply]
  split
  · rename_i value after run
    rw [kept, run]
  · rename_i error after run
    rw [run]

end Action

inductive Call where
  | resolveAssembly (name : String)
  | tryResolveAssembly (name : String)
  | addModule (path : Path) (expected : Option String)
  | resolveModuleByPath (path : Path)
  | loadDetached (path : Path)
  | preloadInputs
  | bindSystemModule (module : Module)
  | resolveAssemblyReference (module : Module) (token : Token)
  | resolveType (module : Module) («namespace» name : String)
  | resolveTypeReference (module : Module) (token : Token)
  | resolveSignature (module : Module) (signature : TypeSignature)
  | runtimeInterfaces (type : TypeDesc)

inductive Answer where
  | done
  | noModule
  | module (module : Module)
  | modules (modules : List Module)
  | definition (type : TypeDefinition)
  | type (type : TypeDesc)
  | types (types : List TypeDesc)

section

variable [ExecutableParser]

namespace Call

def perform : Call → Action Answer
  | resolveAssembly name => do return .module (← Action.resolveAssembly name)
  | tryResolveAssembly name => do
    match ← Action.tryResolveAssembly name with
    | some module => return .module module
    | none => return .noModule
  | addModule path expected => do return .module (← Action.addModule path expected)
  | resolveModuleByPath path => do return .module (← Action.resolveModuleByPath path)
  | loadDetached path => do return .module (← Action.loadDetached path)
  | preloadInputs => do return .modules (← Action.preloadInputs)
  | bindSystemModule module => do
    Action.bindSystemModule module
    return .done
  | resolveAssemblyReference module token => do
    return .module (← Action.resolveAssemblyReference module token)
  | resolveType module «namespace» name => do
    return .definition (← Action.resolveType module «namespace» name)
  | resolveTypeReference module token => do
    return .type (← Action.resolveTypeReference module token)
  | resolveSignature module signature => do
    return .type (← Action.resolveSignature module signature)
  | runtimeInterfaces type => do return .types (← Action.runtimeInterfaces type)

open CilLoader.Action in
theorem changing_perform (call : Call) : call.perform.Changing := by
  cases call with
  | resolveAssembly name => exact (changing_resolveAssembly name).bind fun _ => changing_pure _
  | tryResolveAssembly name =>
      apply (changing_tryResolveAssembly name).bind
      intro found
      cases found <;> exact changing_pure _
  | addModule path expected =>
      exact (changing_addModule path expected).bind fun _ => changing_pure _
  | resolveModuleByPath path =>
      exact (changing_resolveModuleByPath path).bind fun _ => changing_pure _
  | loadDetached path => exact (changing_loadDetached path).bind fun _ => changing_pure _
  | preloadInputs => exact changing_preloadInputs.bind fun _ => changing_pure _
  | bindSystemModule module =>
      exact (changing_bindSystemModule module).bind fun _ => changing_pure _
  | resolveAssemblyReference module token =>
      exact (changing_resolveAssemblyReference module token).bind fun _ => changing_pure _
  | resolveType module «namespace» name =>
      exact (changing_resolveType module «namespace» name).bind fun _ => changing_pure _
  | resolveTypeReference module token =>
      exact (changing_resolveTypeReference module token).bind fun _ => changing_pure _
  | resolveSignature module signature =>
      exact (changing_resolveSignature module signature).bind fun _ => changing_pure _
  | runtimeInterfaces type => exact (changing_runtimeInterfaces type).bind fun _ => changing_pure _

end Call

namespace Context

/-- The context after a call, whatever the call has answered. -/
def after (system : FileSystem) (context : Context) (call : Call) : Context :=
  (call.perform system context).2

def afterAll (system : FileSystem) (context : Context) (calls : List Call) : Context :=
  calls.foldl (after system) context

theorem changes_after (system : FileSystem) (context : Context) (call : Call) :
    Changes system context (context.after system call) :=
  call.changing_perform system context

theorem changes_afterAll (system : FileSystem) (context : Context) (calls : List Call) :
    Changes system context (context.afterAll system calls) := by
  induction calls generalizing context with
  | nil => exact Changes.refl system context
  | cons call calls induction =>
      exact (changes_after system context call).trans (induction (context.after system call))

/-! ## Files that change between calls -/

/-- The context after some calls, each with the files that there were at its time. -/
def afterHistory (context : Context) (history : List (FileSystem × Call)) : Context :=
  history.foldl (fun context entry => context.after entry.1 entry.2) context

theorem afterHistory_cons (context : Context) (entry : FileSystem × Call)
    (history : List (FileSystem × Call)) :
    context.afterHistory (entry :: history) =
      (context.after entry.1 entry.2).afterHistory history := rfl

theorem afterHistory_nil (context : Context) : context.afterHistory [] = context := rfl

/-- What every call keeps, every history keeps. -/
theorem afterHistory_induction {kept : Context → Prop} {context : Context}
    (step : ∀ {context} system call, kept context → kept (context.after system call))
    (start : kept context) (history : List (FileSystem × Call)) :
    kept (context.afterHistory history) := by
  induction history generalizing context with
  | nil => exact start
  | cons entry history induction => exact induction (step entry.1 entry.2 start)

/-- A context that calls on a fresh one lead to, while the files may change between the calls. -/
def Evolved (context : Context) : Prop :=
  ∃ config start history,
    ofConfiguration config = .ok start ∧ start.afterHistory history = context

theorem Settled.afterHistory {context : Context} (settled : context.Settled)
    (history : List (FileSystem × Call)) : (context.afterHistory history).Settled :=
  afterHistory_induction
    (fun system call settled => settled.changes (changes_after system _ call)) settled history

theorem Evolved.settled {context : Context} (evolved : context.Evolved) : context.Settled := by
  rcases evolved with ⟨config, start, history, fresh, rfl⟩
  exact (settled_of_fresh fresh).afterHistory history

theorem Settled.extends_afterHistory {context : Context} (settled : context.Settled)
    (history : List (FileSystem × Call)) : context.Extends (context.afterHistory history) := by
  have kept : (context.afterHistory history).Settled ∧
      context.Extends (context.afterHistory history) := by
    apply @afterHistory_induction _ fun later => later.Settled ∧ context.Extends later
    · intro later system call kept
      have changes := changes_after system later call
      exact ⟨kept.1.changes changes, kept.2.trans (kept.1.extends changes)⟩
    · exact ⟨settled, .refl context⟩
  exact kept.2

/-! ## Files that stay as they are -/

/-- A context that calls on a fresh one lead to, while the files stay as they are. -/
def Reachable (system : FileSystem) (context : Context) : Prop :=
  ∃ config start calls,
    ofConfiguration config = .ok start ∧ start.afterAll system calls = context

theorem Reachable.evolved {system : FileSystem} {context : Context}
    (reachable : Reachable system context) : context.Evolved := by
  rcases reachable with ⟨config, start, calls, fresh, rfl⟩
  refine ⟨config, start, calls.map (system, ·), fresh, ?_⟩
  rw [afterHistory, List.foldl_map, afterAll]

theorem Reachable.sound {system : FileSystem} {context : Context}
    (reachable : Reachable system context) : context.Sound system := by
  rcases reachable with ⟨config, start, calls, fresh, rfl⟩
  exact (sound_of_fresh system fresh).changes (changes_afterAll system start calls)

/-- After any calls on a fresh context, and after any one call more. -/
theorem afterAll_keeps_registry {system : FileSystem} {config : Configuration} {start : Context}
    (fresh : ofConfiguration config = .ok start) (calls : List Call) :
    let context := start.afterAll system calls
    let registry := context.registry
    (∀ module, module ∈ registry.byId ↔ ∃ key, (key, module) ∈ registry.byName) ∧
    (∀ module ∈ registry.byId, registry.get? module.id = some module ∧
      ∃ identity, module.metadata.identity? = .ok (some identity) ∧
        ∀ key, (key, module) ∈ registry.byName ↔ key = foldName identity.name) ∧
    (∀ left ∈ registry.byId, ∀ right ∈ registry.byId,
      foldName left.simpleName = foldName right.simpleName → left = right) ∧
    (∀ left ∈ registry.byId, ∀ right ∈ registry.byId,
      left.path.same right.path = true → left = right) ∧
    (∀ call, ∀ module ∈ registry.byId,
      let later := (context.after system call).registry
      later.get? module.id = some module ∧ later.getByName? module.simpleName = some module) ∧
    (∀ module ∈ registry.byId, context.hasLookedForSymbols module.id) := by
  intro context registry
  have sound : context.Sound system :=
    (sound_of_fresh system fresh).changes (changes_afterAll system start calls)
  have wellFormed : registry.WellFormed := sound.wellFormed
  have atOwnId : ∀ module ∈ registry.byId, registry.get? module.id = some module :=
    fun module member => wellFormed.get?_eq_some.mpr ⟨member, rfl⟩
  refine ⟨?_, ?_, ?_, ?_, ?_, sound.searched⟩
  · intro module
    constructor
    · intro member
      exact ⟨foldName module.simpleName, wellFormed.mem_byName.mpr ⟨member, rfl⟩⟩
    · rintro ⟨key, member⟩
      exact (wellFormed.mem_byName.mp member).1
  · intro module member
    refine ⟨atOwnId module member, module.identity, (sound.loaded module member).identity, ?_⟩
    intro key
    rw [wellFormed.mem_byName, and_iff_right member]
    rfl
  · intro left leftMember right rightMember
    exact wellFormed.eq_of_sameName leftMember rightMember
  · intro left leftMember right rightMember
    exact sound.eq_of_samePath leftMember rightMember
  · intro call module member later
    have grown := sound.extends (changes_after system context call)
    exact ⟨grown.byId _ _ (atOwnId module member),
      grown.byName _ _ (wellFormed.getByName?_simpleName.mpr member)⟩

end Context

end

namespace Context

open scoped Container

/-- An assembly with the name `A`. Its only type specification stands for itself. -/
def selfSpecified : Bytes := #[
  -- the root
  0x42, 0x53, 0x4A, 0x42, 1, 0, 1, 0, 0, 0, 0, 0, 0, 0, 0, 0, 0, 0, 3, 0,
  -- the headers of the streams
  0x44, 0, 0, 0, 0x38, 0, 0, 0, 0x23, 0x7E, 0, 0,
  0x7C, 0, 0, 0, 3, 0, 0, 0, 0x23, 0x53, 0x74, 0x72, 0x69, 0x6E, 0x67, 0x73, 0, 0, 0, 0,
  0x7F, 0, 0, 0, 4, 0, 0, 0, 0x23, 0x42, 0x6C, 0x6F, 0x62, 0, 0, 0,
  -- one type specification and one assembly
  0, 0, 0, 0, 2, 0, 0, 1, 0, 0, 0, 8, 1, 0, 0, 0, 0, 0, 0, 0, 0, 0, 0, 0, 1, 0, 0, 0, 1, 0, 0, 0,
  1, 0,
  4, 0x80, 0, 0, 1, 0, 0, 0, 0, 0, 0, 0, 0, 0, 0, 0, 0, 0, 1, 0, 0, 0,
  -- the strings and the blobs
  0, 0x41, 0,
  0, 2, 0x12, 6]

def twins : FileSystem where
  files := [([['A']], selfSpecified), ([['B']], selfSpecified)]
  directories := []

def layoutOfNothing (_ : TypeDesc) : Except Error FieldLayout :=
  .ok ⟨0, 1, []⟩

/-- The first of the two files can be asked for by name. -/
def twinConfiguration : Configuration where
  inputs := [("A", ⟨"A", ⟨"/A"⟩⟩)]
  references := []
  withSymbols := false
  symbolSource := .portablePdb
  layout := some layoutOfNothing
  interfaceSource := .metadata

def twinStart : Context where
  config := twinConfiguration
  layout := layoutOfNothing
  registry := .empty
  nextId := 1
  symbols := []
  system := none
  opened := []

theorem afterAll_keeps_registry_twins :
    ofConfiguration twinConfiguration = .ok twinStart ∧
      let context := twinStart.afterAll twins [.resolveAssembly "a", .addModule ⟨"/B"⟩ none]
      context.registry.size = 1 ∧
        ∀ module ∈ context.registry.byId, context.hasLookedForSymbols module.id ∧
          (context.after twins (.resolveModuleByPath ⟨"/./B"⟩)).registry.getByName?
            module.simpleName = some module := by
  have fresh : ofConfiguration twinConfiguration = .ok twinStart := rfl
  rcases @afterAll_keeps_registry _ twins _ _ fresh
    [.resolveAssembly "a", .addModule ⟨"/B"⟩ none] with
      ⟨_, _, _, _, kept, searched⟩
  refine ⟨fresh, by decide +kernel, ?_⟩
  intro module member
  exact ⟨searched module member, (kept (.resolveModuleByPath ⟨"/./B"⟩) module member).2⟩

end Context

end CilLoader
