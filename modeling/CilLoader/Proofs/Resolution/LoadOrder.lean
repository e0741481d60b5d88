import CilLoader.Executable.Container
import CilLoader.Proofs.Context.Runs
import CilLoader.Proofs.Context.Tables
import CilLoader.Proofs.Resolution.Forwarding

/-!
# The order of loading

Two contexts over the same tables may have loaded different modules, in different orders and under
different numbers. They still answer alike: what is asked by name has the same outcome in both, up
to the numbers of modules, and leaves contexts that go on answering alike.
-/

namespace CilLoader

open CilLoader.Context CilLoader.Action

namespace Module

variable {left right : Module}

theorem SameSource.forwarder? (same : left.SameSource right) («namespace» name : String) :
    Action.forwarder? left «namespace» name = Action.forwarder? right «namespace» name := by
  simp only [Action.forwarder?, same.metadata]

end Module

namespace LoadOrder

/-- Both succeed, with values that stand in a relation, or both fail with the same error. -/
inductive SameOutcome (related : α → β → Prop) : Except Error α → Except Error β → Prop
  | ok {left : α} {right : β} (values : related left right) :
      SameOutcome related (.ok left) (.ok right)
  | error (error : Error) : SameOutcome related (.error error) (.error error)

theorem SameOutcome.imp {related weaker : α → β → Prop} {first : Except Error α}
    {second : Except Error β} (same : SameOutcome related first second)
    (implies : ∀ value other, related value other → weaker value other) :
    SameOutcome weaker first second := by
  cases same with
  | ok values => exact .ok (implies _ _ values)
  | error error => exact .error error

/-- Registered modules that are made from the same image. -/
structure SameModule (left right : Registry) (module other : Module) : Prop where
  leftMember : module ∈ left.byId
  rightMember : other ∈ right.byId
  source : module.SameSource other

/-- Types with the same token in modules that are made from the same image. The modules are among
the given ones. -/
structure SameType (lefts rights : List Module) (left right : TypeDefinition) : Prop where
  owners : ∃ owner ∈ lefts, ∃ other ∈ rights, owner.SameSource other ∧
    left.module = owner.id ∧ right.module = other.id
  token : left.token = right.token

theorem SameType.mono {lefts rights moreLefts moreRights : List Module}
    {type other : TypeDefinition} (same : SameType lefts rights type other)
    (more : ∀ module ∈ lefts, module ∈ moreLefts)
    (otherMore : ∀ module ∈ rights, module ∈ moreRights) :
    SameType moreLefts moreRights type other := by
  rcases same with ⟨⟨owner, member, otherOwner, otherMember, source, owns, otherOwns⟩, token⟩
  exact ⟨⟨owner, more owner member, otherOwner, otherMore otherOwner otherMember, source, owns,
    otherOwns⟩, token⟩

section

variable [ExecutableParser]

/-- The contexts may differ in what has been loaded, but not in what can be. -/
structure Alike (system : FileSystem) (left right : Context) : Prop where
  leftTabular : left.Tabular system
  rightTabular : right.Tabular system
  sources : ∀ name, left.config.source? name = right.config.source? name

/-- The outcomes are the same, and so are those of whatever comes after. -/
structure InStep (system : FileSystem) (related : Registry → Registry → α → β → Prop)
    (left : Except Error α × Context) (right : Except Error β × Context) : Prop where
  outcome : SameOutcome (related left.2.registry right.2.registry) left.1 right.1
  alike : Alike system left.2 right.2

variable {system : FileSystem} {left right after otherAfter : Context}
  {related : Registry → Registry → α → β → Prop}

theorem Alike.changed (alike : Alike system left right) (changes : Changes system left after)
    (otherChanges : Changes system right otherAfter) (tabular : after.Tabular system)
    (otherTabular : otherAfter.Tabular system) : Alike system after otherAfter := by
  have sameConfig := (alike.leftTabular.sound.extends changes).config
  have otherSameConfig := (alike.rightTabular.sound.extends otherChanges).config
  refine ⟨tabular, otherTabular, ?_⟩
  rw [sameConfig, otherSameConfig]
  exact alike.sources

/-- A failure of both that has changed nothing. -/
theorem Alike.error (alike : Alike system left right) (error : Error) :
    InStep system related (.error error, left) (.error error, right) :=
  ⟨.error error, alike⟩

theorem Alike.ok (alike : Alike system left right) {value : α} {otherValue : β}
    (values : related left.registry right.registry value otherValue) :
    InStep system related (.ok value, left) (.ok otherValue, right) :=
  ⟨.ok values, alike⟩

theorem InStep.bind {relatedNext : Registry → Registry → γ → δ → Prop} {first : Action α}
    {other : Action β} {next : α → Action γ} {otherNext : β → Action δ}
    (inStep : InStep system related (first system left) (other system right))
    (inStepNext : ∀ value otherValue after otherAfter, first system left = (.ok value, after) →
      other system right = (.ok otherValue, otherAfter) → Alike system after otherAfter →
      related after.registry otherAfter.registry value otherValue →
      InStep system relatedNext (next value system after)
        (otherNext otherValue system otherAfter)) :
    InStep system relatedNext ((first >>= next) system left)
      ((other >>= otherNext) system right) := by
  rw [bind_apply, bind_apply]
  cases leftRun : first system left with
  | mk result after =>
      cases rightRun : other system right with
      | mk otherResult otherAfter =>
          rw [leftRun, rightRun] at inStep
          rcases inStep with ⟨outcome, alike⟩
          cases outcome with
          | ok values => exact inStepNext _ _ _ _ leftRun rightRun alike values
          | error error => exact alike.error error

/-! ## Modules -/

/-- The tables lead to the same image, whatever number its module gets. -/
theorem sameOutcome_moduleFor (config : Configuration) (system : FileSystem)
    (id other : ModuleId) (name : String) :
    SameOutcome (Option.Rel Module.SameSource) (config.moduleFor system id name)
      (config.moduleFor system other name) := by
  rw [Configuration.moduleFor, Configuration.moduleFor]
  cases config.source? name with
  | none => exact .ok .none
  | some file =>
      dsimp only
      rw [Module.atPath_withId system id other]
      cases Module.atPath system other file.path (some name) with
      | error error => exact .error error
      | ok module => exact .ok (.some ⟨rfl, rfl⟩)

theorem Alike.moduleFor (alike : Alike system left right) :
    left.config.moduleFor system = right.config.moduleFor system := by
  funext id name
  rw [Configuration.moduleFor, Configuration.moduleFor, alike.sources name]

theorem Alike.tryResolveAssembly (alike : Alike system left right) (name : String) :
    InStep system (fun left right => Option.Rel (SameModule left right))
      (Action.tryResolveAssembly name system left)
      (Action.tryResolveAssembly name system right) := by
  rcases alike.leftTabular.tryResolveAssembly name with ⟨⟨id, answer⟩, tabular, registered⟩
  rcases alike.rightTabular.tryResolveAssembly name with
    ⟨⟨other, otherAnswer⟩, otherTabular, otherRegistered⟩
  have alikeAfter := alike.changed (changing_tryResolveAssembly name system left)
    (changing_tryResolveAssembly name system right) tabular otherTabular
  have same := sameOutcome_moduleFor right.config system id other (Identity.simpleNameOf name)
  rw [← otherAnswer, ← alike.moduleFor, ← answer] at same
  refine ⟨?_, alikeAfter⟩
  revert registered otherRegistered same
  generalize Action.tryResolveAssembly name system left = outcome
  generalize Action.tryResolveAssembly name system right = otherOutcome
  rcases outcome with ⟨result, after⟩
  rcases otherOutcome with ⟨otherResult, otherAfter⟩
  intro registered otherRegistered same
  cases same with
  | error error => exact .error error
  | ok found =>
      cases found with
      | none => exact .ok .none
      | some source => exact .ok (.some ⟨registered _ rfl, otherRegistered _ rfl, source⟩)

theorem Alike.resolveAssembly (alike : Alike system left right) (name : String) :
    InStep system SameModule (Action.resolveAssembly name system left)
      (Action.resolveAssembly name system right) := by
  apply (alike.tryResolveAssembly name).bind
  intro found otherFound after otherAfter _ _ alikeAfter same
  cases same with
  | none => exact alikeAfter.error _
  | some same => exact alikeAfter.ok same

theorem Alike.resolveAssemblyReference (alike : Alike system left right) {module other : Module}
    (source : module.SameSource other) (token : Token) :
    InStep system SameModule (Action.resolveAssemblyReference module token system left)
      (Action.resolveAssemblyReference other token system right) := by
  rw [Action.resolveAssemblyReference, Action.resolveAssemblyReference, source.metadata]
  split
  · simp only [bind_apply, ofExcept_apply]
    cases other.metadata.referencedIdentity token.row with
    | error error => exact alike.error error
    | ok identity => exact alike.resolveAssembly identity.name
  · exact alike.error _

/-! ## Types -/

/-- A module that is registered stays registered, so that it need not be told apart any more. -/
theorem mem_of_mem_cons {action : Action α} (changing : action.Changing) {context : Context}
    (sound : context.Sound system) {module : Module}
    (registered : module ∈ context.registry.byId) :
    ∀ owner ∈ module :: (action system context).2.registry.byId,
      owner ∈ (action system context).2.registry.byId := by
  have changes := changing system context
  have found := sound.wellFormed.get?_eq_some.mpr ⟨registered, rfl⟩
  have kept := (sound.extends changes).byId module.id module found
  intro owner member
  rcases List.mem_cons.mp member with rfl | member
  · exact ((sound.changes changes).wellFormed.get?_eq_some.mp kept).1
  · exact member

/-- The type is found in the module itself, or in one that has been loaded. -/
theorem Alike.resolveTypeWithin (alike : Alike system left right) {module other : Module}
    (source : module.SameSource other) (room : Nat) («namespace» name : String) :
    InStep system (fun left right => SameType (module :: left.byId) (other :: right.byId))
      (Action.resolveTypeWithin room module «namespace» name system left)
      (Action.resolveTypeWithin room other «namespace» name system right) := by
  induction room generalizing left right module other with
  | zero => exact alike.error _
  | succ room induction =>
      rw [Action.resolveTypeWithin, Action.resolveTypeWithin, source.getType?, source.forwarder?,
        source.simpleName]
      simp only [bind_apply, ofExcept_apply]
      cases answer : other.getType? «namespace» name with
      | error error => exact alike.error error
      | ok own =>
          cases own with
          | some type =>
              have otherOwns := Module.module_of_getType? answer
              exact alike.ok ⟨⟨module, List.mem_cons_self, other, List.mem_cons_self, source, rfl,
                otherOwns⟩, rfl⟩
          | none =>
              simp only [Except.map, Option.map_none, bind_apply, ofExcept_apply]
              cases Action.forwarder? other «namespace» name with
              | error error => exact alike.error error
              | ok forwarder =>
                  cases forwarder with
                  | none => exact alike.error _
                  | some reference =>
                      apply (alike.resolveAssemblyReference source reference).bind
                      intro target otherTarget after otherAfter _ _ alikeAfter same
                      -- The target is registered by now. It counts as one of the loaded modules.
                      have rest := induction alikeAfter same.source
                      have changing := fun target : Module =>
                        changing_resolveTypeWithin room target «namespace» name
                      have loaded := mem_of_mem_cons (changing target)
                        alikeAfter.leftTabular.sound same.leftMember
                      have otherLoaded := mem_of_mem_cons (changing otherTarget)
                        alikeAfter.rightTabular.sound same.rightMember
                      refine ⟨rest.outcome.imp fun type other sameType => ?_, rest.alike⟩
                      exact sameType.mono
                        (fun owner member => List.mem_cons_of_mem _ (loaded owner member))
                        (fun owner member => List.mem_cons_of_mem _ (otherLoaded owner member))

/-! ## Queries -/

/-- Calls that ask for a module or a type by name. -/
def isQuery : Call → Bool
  | .resolveAssembly _ => true
  | .tryResolveAssembly _ => true
  | .resolveAssemblyReference _ _ => true
  | .resolveType _ _ _ => true
  | _ => false

/-- The same query, asked of two contexts. A module that it is about is registered in both, under
the same path. -/
inductive SameQuery (left right : Registry) : Call → Call → Prop
  | resolveAssembly (name : String) :
      SameQuery left right (.resolveAssembly name) (.resolveAssembly name)
  | tryResolveAssembly (name : String) :
      SameQuery left right (.tryResolveAssembly name) (.tryResolveAssembly name)
  | resolveAssemblyReference {module other : Module} (token : Token)
      (member : module ∈ left.byId) (otherMember : other ∈ right.byId)
      (samePath : module.path = other.path) :
      SameQuery left right (.resolveAssemblyReference module token)
        (.resolveAssemblyReference other token)
  | resolveType {module other : Module} («namespace» name : String)
      (member : module ∈ left.byId) (otherMember : other ∈ right.byId)
      (samePath : module.path = other.path) :
      SameQuery left right (.resolveType module «namespace» name)
        (.resolveType other «namespace» name)

/-- No module, a module with the same path, or a type with the same token in a module with the same
path. -/
inductive SameAnswer (left right : Registry) : Answer → Answer → Prop
  | noModule : SameAnswer left right .noModule .noModule
  | module {module other : Module} (member : module ∈ left.byId)
      (otherMember : other ∈ right.byId) (samePath : module.path = other.path) :
      SameAnswer left right (.module module) (.module other)
  | definition {type other : TypeDefinition} {owner otherOwner : Module}
      (member : owner ∈ left.byId) (otherMember : otherOwner ∈ right.byId)
      (samePath : owner.path = otherOwner.path) (owns : type.module = owner.id)
      (otherOwns : other.module = otherOwner.id) (sameToken : type.token = other.token) :
      SameAnswer left right (.definition type) (.definition other)

theorem Alike.sameSource (alike : Alike system left right) {module other : Module}
    (member : module ∈ left.registry.byId) (otherMember : other ∈ right.registry.byId)
    (samePath : module.path = other.path) : module.SameSource other :=
  .of_loadedFrom (alike.leftTabular.sound.loaded module member)
    (alike.rightTabular.sound.loaded other otherMember) samePath

theorem Alike.perform (alike : Alike system left right) {query otherQuery : Call}
    (same : SameQuery left.registry right.registry query otherQuery) :
    InStep system SameAnswer (query.perform system left) (otherQuery.perform system right) := by
  cases same with
  | resolveAssembly name =>
      apply (alike.resolveAssembly name).bind
      intro module other after otherAfter _ _ alikeAfter same
      exact alikeAfter.ok (.module same.leftMember same.rightMember same.source.path)
  | tryResolveAssembly name =>
      apply (alike.tryResolveAssembly name).bind
      intro found otherFound after otherAfter _ _ alikeAfter same
      cases same with
      | none => exact alikeAfter.ok .noModule
      | some same =>
          exact alikeAfter.ok (.module same.leftMember same.rightMember same.source.path)
  | resolveAssemblyReference token member otherMember samePath =>
      apply (alike.resolveAssemblyReference (alike.sameSource member otherMember samePath)
        token).bind
      intro module other after otherAfter _ _ alikeAfter same
      exact alikeAfter.ok (.module same.leftMember same.rightMember same.source.path)
  | @resolveType module other «namespace» name member otherMember samePath =>
      apply (alike.resolveTypeWithin (alike.sameSource member otherMember samePath) (hopLimit + 1)
        «namespace» name).bind
      intro type otherType after otherAfter run otherRun alikeAfter same
      have loaded := mem_of_mem_cons
        (changing_resolveTypeWithin (hopLimit + 1) module «namespace» name)
        alike.leftTabular.sound member
      have otherLoaded := mem_of_mem_cons
        (changing_resolveTypeWithin (hopLimit + 1) other «namespace» name)
        alike.rightTabular.sound otherMember
      rw [run] at loaded
      rw [otherRun] at otherLoaded
      rcases same.mono loaded otherLoaded with
        ⟨⟨owner, ownerMember, otherOwner, otherOwnerMember, source, owns, otherOwns⟩, token⟩
      exact alikeAfter.ok
        (.definition ownerMember otherOwnerMember source.path owns otherOwns token)

/-! ## Runs -/

theorem alike_refl (tabular : left.Tabular system) : Alike system left left :=
  ⟨tabular, tabular, fun _ => rfl⟩

/-- Whatever modules a query is about, it registers only what is in the tables. -/
theorem tabular_after (tabular : left.Tabular system) {query : Call}
    (asks : isQuery query = true) : (left.after system query).Tabular system := by
  -- A context goes in step with itself, and so stays tabular.
  have alike := alike_refl tabular
  cases query with
  | resolveAssembly name =>
      rw [Context.after, Call.perform, after_bind fun _ _ _ => rfl]
      exact (alike.resolveAssembly name).alike.leftTabular
  | tryResolveAssembly name =>
      rw [Context.after, Call.perform, after_bind fun found _ _ => by cases found <;> rfl]
      exact (alike.tryResolveAssembly name).alike.leftTabular
  | resolveAssemblyReference module token =>
      rw [Context.after, Call.perform, after_bind fun _ _ _ => rfl]
      exact (alike.resolveAssemblyReference (.refl module) token).alike.leftTabular
  | resolveType module «namespace» name =>
      rw [Context.after, Call.perform, after_bind fun _ _ _ => rfl]
      exact (alike.resolveTypeWithin (.refl module) (hopLimit + 1) «namespace»
        name).alike.leftTabular
  | _ => cases asks

theorem tabular_afterAll (tabular : left.Tabular system) {queries : List Call}
    (ask : ∀ query ∈ queries, isQuery query = true) :
    (left.afterAll system queries).Tabular system := by
  induction queries generalizing left with
  | nil => exact tabular
  | cons query queries induction =>
      exact induction (tabular_after tabular (ask query List.mem_cons_self)) fun later member =>
        ask later (List.mem_cons_of_mem query member)

/-- A query has the same outcome in two contexts over the same tables, whatever queries have been
made of each of them before. -/
theorem sameOutcome_of_sameTables {config otherConfig : Configuration}
    {start otherStart : Context} {queries otherQueries : List Call}
    (fresh : ofConfiguration config = .ok start)
    (otherFresh : ofConfiguration otherConfig = .ok otherStart)
    (sources : ∀ name, config.source? name = otherConfig.source? name)
    (ask : ∀ query ∈ queries, isQuery query = true)
    (otherAsk : ∀ query ∈ otherQueries, isQuery query = true) :
    let context := start.afterAll system queries
    let other := otherStart.afterAll system otherQueries
    ∀ query otherQuery, SameQuery context.registry other.registry query otherQuery →
      SameOutcome (SameAnswer (context.after system query).registry
        (other.after system otherQuery).registry)
          (query.perform system context).1 (otherQuery.perform system other).1 := by
  intro context other query otherQuery same
  have alikeStart : Alike system start otherStart :=
    ⟨tabular_of_fresh system fresh, tabular_of_fresh system otherFresh,
      by rwa [config_of_fresh fresh, config_of_fresh otherFresh]⟩
  have alike : Alike system context other :=
    alikeStart.changed (changes_afterAll system start queries)
      (changes_afterAll system otherStart otherQueries)
      (tabular_afterAll alikeStart.leftTabular ask)
      (tabular_afterAll alikeStart.rightTabular otherAsk)
  exact (alike.perform same).outcome

end

open Forwarding
open scoped Container

def backingFirst : Context :=
  facadeStart.afterAll facadeFiles [.resolveAssembly "B", .resolveAssembly "A"]

theorem exists_renumbered :
    ∃ module ∈ facadeLoaded.registry.byId, (backingFirst.registry.byId.any fun other =>
      module.path = other.path && module.id ≠ other.id) = true :=
  List.any_eq_true.mp (by decide +kernel)

theorem sameOutcome_of_sameTables_facade :
    ∃ module ∈ facadeLoaded.registry.byId, ∃ other ∈ backingFirst.registry.byId,
      module.path = other.path ∧ module.id ≠ other.id ∧
        SameOutcome (SameAnswer
          (facadeLoaded.after facadeFiles (.resolveType module "" "T")).registry
          (backingFirst.after facadeFiles (.resolveType other "" "T")).registry)
            ((Call.resolveType module "" "T").perform facadeFiles facadeLoaded).1
            ((Call.resolveType other "" "T").perform facadeFiles backingFirst).1 := by
  rcases exists_renumbered with ⟨module, member, found⟩
  rcases List.any_eq_true.mp found with ⟨other, otherMember, renumbered⟩
  simp only [Bool.and_eq_true, decide_eq_true_eq] at renumbered
  rcases renumbered with ⟨samePath, renumbered⟩
  have fresh : ofConfiguration facadeStart.config = .ok facadeStart := rfl
  have outcome : ∀ query otherQuery,
      SameQuery facadeLoaded.registry backingFirst.registry query otherQuery → _ :=
    @sameOutcome_of_sameTables _ facadeFiles _ _ _ _ [.resolveAssembly "A"]
      [.resolveAssembly "B", .resolveAssembly "A"] fresh fresh (fun _ => rfl) (by decide)
      (by decide)
  exact ⟨module, member, other, otherMember, samePath, renumbered,
    outcome _ _ (.resolveType "" "T" member otherMember samePath)⟩

end LoadOrder

end CilLoader
