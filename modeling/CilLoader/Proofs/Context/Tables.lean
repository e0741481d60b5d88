import CilLoader.Proofs.Context.Repetition

/-!
# What the tables say

The tables of a configuration say which file a name leads to. In a context that has only been asked
for names, every module that is registered is the one that the tables lead to. So whether it is
there already makes no difference for the answer.
-/

namespace CilLoader

open CilLoader.Context CilLoader.Action

namespace Module

/-- The number of a module has no part in what is read. -/
theorem ofImage_withId (id other : ModuleId) (image : Image) (expected : Option String) :
    ofImage id image expected =
      (ofImage other image expected).map fun module => { module with id } := by
  rw [ofImage, ofImage, Error.map_bind]
  apply congrArg
  funext declared
  cases declared with
  | none => rfl
  | some identity =>
      cases expected with
      | none => rfl
      | some name =>
          dsimp only
          split <;> rfl

end Module

theorem Configuration.source?_congr (config : Configuration) {left right : String}
    (sameName : foldName left = foldName right) : config.source? left = config.source? right := by
  rw [source?, input?, reference?, sameName, source?, input?, reference?]

variable [ExecutableParser]

namespace Module

theorem atPath_withId (system : FileSystem) (id other : ModuleId) (path : Path)
    (expected : Option String) :
    atPath system id path expected =
      (atPath system other path expected).map fun module => { module with id } := by
  rw [atPath, atPath, Error.map_bind]
  apply congrArg
  funext canonical
  rw [Error.map_bind]
  apply congrArg
  funext image
  exact ofImage_withId id other image expected

theorem atPath_of_loadedFrom {system : FileSystem} {module : Module} {path : Path} {name : String}
    (loaded : module.LoadedFrom system) (canonical : system.canonicalize path = .ok module.path)
    (sameName : foldName name = foldName module.simpleName) :
    atPath system module.id path (some name) = .ok module := by
  rw [atPath, canonical, Error.ok_bind, loaded.image, Error.ok_bind, ofImage]
  have identity : module.image.metadata.identity? = .ok (some module.identity) := loaded.identity
  rw [identity, Error.ok_bind]
  dsimp only
  rw [simpleName] at sameName
  rw [if_pos sameName]

end Module

/-- The module that the tables lead to by a simple name, with a number of its own. -/
def Configuration.moduleFor (config : Configuration) (system : FileSystem) (id : ModuleId)
    (name : String) : Except Error (Option Module) :=
  match config.source? name with
  | none => .ok none
  | some file => (Module.atPath system id file.path (some name)).map some

namespace Context

/-- Every registered module is in the tables, under its own name. -/
structure Tabular (system : FileSystem) (context : Context) : Prop where
  sound : context.Sound system
  listed : ∀ module ∈ context.registry.byId, ∃ file,
    context.config.source? module.simpleName = some file ∧
      system.canonicalize file.path = .ok module.path

variable {system : FileSystem} {context : Context}

theorem tabular_of_fresh {config : Configuration} (system : FileSystem)
    (fresh : ofConfiguration config = .ok context) : context.Tabular system := by
  refine ⟨sound_of_fresh system fresh, ?_⟩
  rw [registry_of_fresh fresh]
  exact fun module member => absurd member List.not_mem_nil

/-- A module that is registered is the one that the tables lead to. -/
theorem Tabular.moduleFor_eq (tabular : context.Tabular system) {name : String} {module : Module}
    (present : context.registry.getByName? name = some module) :
    context.config.moduleFor system module.id name = .ok (some module) := by
  rcases tabular.sound.wellFormed.getByName?_eq_some.mp present with ⟨member, sameName⟩
  rcases tabular.listed module member with ⟨file, source, canonical⟩
  rw [Configuration.moduleFor, context.config.source?_congr sameName.symm, source]
  dsimp only
  rw [Module.atPath_of_loadedFrom (tabular.sound.loaded module member) canonical sameName.symm]
  rfl

/-- Loading a module of the tables. Its name is not taken, so it is registered. -/
theorem Tabular.addModule (tabular : context.Tabular system) {name : String} {file : AssemblyFile}
    (absent : context.registry.getByName? name = none)
    (source : context.config.source? name = some file) :
    let outcome := Action.addModule file.path (some name) system context
    outcome.1 = Module.atPath system context.nextId file.path (some name) ∧
      outcome.2.Tabular system ∧ ∀ module, outcome.1 = .ok module →
        module ∈ outcome.2.registry.byId := by
  have sound := tabular.sound.changes (changing_addModule file.path (some name) system context)
  -- The declared name folds to the name that was asked for, and that is not taken.
  have freshName {module : Module} (made : Module.atPath system context.nextId file.path
      (some name) = .ok module) : context.registry.getByName? module.simpleName = none := by
    rw [Registry.getByName?, ← (Module.atPath_eq_ok made).2.2.2 name rfl]
    exact absent
  rcases addModule_cases file.path (some name) system context with
    ⟨error, _, made, loaded⟩ | ⟨module, _, made,
      ⟨_, _, loaded⟩ | ⟨existing, present, _, _⟩ | ⟨existing, present, _, _⟩⟩
  · rw [loaded] at sound ⊢
    exact ⟨made.symm, ⟨sound, tabular.listed⟩, by rintro module ⟨⟩⟩
  · rcases Module.atPath_eq_ok made with ⟨_, _, canonical, expected⟩
    rw [loaded] at sound ⊢
    refine ⟨made.symm, ⟨sound, ?_⟩, ?_⟩
    · intro other member
      rcases Registry.mem_insertById.mp member with rfl | member
      · have sameName := context.config.source?_congr (expected name rfl)
        exact ⟨file, sameName.symm.trans source, canonical⟩
      · exact tabular.listed other member
    · rintro _ ⟨⟩
      exact Registry.mem_insertById.mpr (.inl rfl)
  all_goals cases (freshName made).symm.trans present

/-- What is asked for by name is answered from the tables, whatever has been loaded. -/
theorem Tabular.tryResolveAssembly (tabular : context.Tabular system) (name : String) :
    let outcome := Action.tryResolveAssembly name system context
    (∃ id, outcome.1 = context.config.moduleFor system id (Identity.simpleNameOf name)) ∧
      outcome.2.Tabular system ∧ ∀ module, outcome.1 = .ok (some module) →
        module ∈ outcome.2.registry.byId := by
  intro outcome
  cases present : context.registry.getByName? (Identity.simpleNameOf name) with
  | some module =>
      have found : outcome = (.ok (some module), context) := by
        simp [outcome, Action.tryResolveAssembly, bind_apply, present]
      rw [found]
      refine ⟨⟨module.id, (tabular.moduleFor_eq present).symm⟩, tabular, ?_⟩
      rintro _ ⟨⟩
      exact (tabular.sound.wellFormed.getByName?_eq_some.mp present).1
  | none =>
      cases source : context.config.source? (Identity.simpleNameOf name) with
      | none =>
          have found : outcome = (.ok none, context) := by
            simp [outcome, Action.tryResolveAssembly, bind_apply, present, source]
          rw [found]
          exact ⟨⟨0, by rw [Configuration.moduleFor, source]⟩, tabular, by rintro module ⟨⟩⟩
      | some file =>
          rcases tabular.addModule present source with ⟨made, tabularAfter, registered⟩
          have answer :
              context.config.moduleFor system context.nextId (Identity.simpleNameOf name) =
                (Module.atPath system context.nextId file.path
                  (some (Identity.simpleNameOf name))).map some := by
            rw [Configuration.moduleFor, source]
          cases added : Action.addModule file.path (some (Identity.simpleNameOf name)) system
              context with
          | mk result after =>
              simp only [added] at made tabularAfter registered
              have found : outcome = (result.map some, after) := by
                simp only [outcome, Action.tryResolveAssembly, bind_apply, context_apply, present,
                  source, added]
                cases result <;> rfl
              rw [found]
              refine ⟨⟨context.nextId, by rw [answer, ← made]⟩, tabularAfter, ?_⟩
              intro module answered
              cases result with
              | error error => cases answered
              | ok added =>
                  cases answered
                  exact registered module rfl

end Context

end CilLoader
