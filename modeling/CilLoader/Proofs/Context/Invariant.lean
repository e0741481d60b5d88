import CilLoader.Context.Debugging
import CilLoader.Proofs.Context.Changes
import CilLoader.Proofs.FileSystem.CanonicalPaths

/-!
# What every context keeps

A settled context has a well-formed registry of modules that have used up their numbers and stand at
canonical paths, of whatever files there were when they were loaded. In a sound context the files
are still those, and the symbols of all modules have been looked for. Changes keep a context settled
and sound, and from a sound context they only ever add to what it knows.
-/

namespace CilLoader

namespace Context

structure Settled (context : Context) : Prop where
  wellFormed : context.registry.WellFormed
  numbered : ∀ module ∈ context.registry.byId, module.id < context.nextId
  canonical : ∀ module ∈ context.registry.byId, ∃ system path,
    FileSystem.canonicalize system path = .ok module.path

structure Extends (before after : Context) : Prop where
  config : after.config = before.config
  byId : ∀ id module, before.registry.get? id = some module → after.registry.get? id = some module
  byName : ∀ name module, before.registry.getByName? name = some module →
    after.registry.getByName? name = some module
  system : ∀ binding, before.system = some binding → after.system = some binding

theorem Extends.trans {first second third : Context} (before : first.Extends second)
    (after : second.Extends third) : first.Extends third where
  config := after.config.trans before.config
  byId := fun id module found => after.byId id module (before.byId id module found)
  byName := fun name module found => after.byName name module (before.byName name module found)
  system := fun binding bound => after.system binding (before.system binding bound)

theorem Extends.of_sameModules {before after : Context} (config : after.config = before.config)
    (registry : after.registry = before.registry)
    (system : ∀ binding, before.system = some binding → after.system = some binding) :
    before.Extends after where
  config := config
  byId := fun _ _ found => registry ▸ found
  byName := fun _ _ found => registry ▸ found
  system := system

theorem Extends.refl (context : Context) : context.Extends context :=
  of_sameModules rfl rfl fun _ bound => bound

theorem eq_of_fresh {config : Configuration} {context : Context}
    (fresh : ofConfiguration config = .ok context) :
    context = {
      config
      layout := context.layout
      registry := .empty
      nextId := 1
      symbols := []
      system := none
      opened := [] } := by
  rw [ofConfiguration] at fresh
  split at fresh
  · cases fresh
  · cases fresh
    rfl

theorem config_of_fresh {config : Configuration} {context : Context}
    (fresh : ofConfiguration config = .ok context) : context.config = config := by
  rw [eq_of_fresh fresh]

theorem registry_of_fresh {config : Configuration} {context : Context}
    (fresh : ofConfiguration config = .ok context) : context.registry = .empty := by
  rw [eq_of_fresh fresh]

theorem opened_of_fresh {config : Configuration} {context : Context}
    (fresh : ofConfiguration config = .ok context) : context.opened = [] := by
  rw [eq_of_fresh fresh]

theorem settled_of_fresh {config : Configuration} {context : Context}
    (fresh : ofConfiguration config = .ok context) : context.Settled := by
  have noModule : context.registry.byId = [] := by
    rw [registry_of_fresh fresh]
    rfl
  refine ⟨registry_of_fresh fresh ▸ Registry.wellFormed_empty, ?_, ?_⟩ <;> simp [noModule]

variable {system : FileSystem} {context : Context}

theorem Settled.freshId (settled : context.Settled) {module : Module}
    (number : module.id = context.nextId) :
    ∀ other ∈ context.registry.byId, other.id ≠ module.id := by
  intro other member sameId
  have used := settled.numbered other member
  rw [sameId, number] at used
  exact Nat.lt_irrefl context.nextId used

theorem hasLookedForSymbols_withModule (context : Context) (module : Module)
    (found : Option Symbols) (id : ModuleId) :
    (context.withModule module found).hasLookedForSymbols id =
      (context.hasLookedForSymbols id || id == module.id) := by
  simp only [hasLookedForSymbols, withModule, List.lookup_append]
  cases context.symbols.lookup id with
  | some _ => rfl
  | none => cases equal : id == module.id <;> simp [List.lookup_cons, equal]

variable [ExecutableParser]

structure Sound (system : FileSystem) (context : Context) : Prop where
  wellFormed : context.registry.WellFormed
  numbered : ∀ module ∈ context.registry.byId, module.id < context.nextId
  loaded : ∀ module ∈ context.registry.byId, module.LoadedFrom system
  searched : ∀ module ∈ context.registry.byId, context.hasLookedForSymbols module.id

theorem sound_of_fresh {config : Configuration} {context : Context} (system : FileSystem)
    (fresh : ofConfiguration config = .ok context) : context.Sound system := by
  have settled := settled_of_fresh fresh
  have noModule : context.registry.byId = [] := by
    rw [registry_of_fresh fresh]
    rfl
  refine ⟨settled.wellFormed, settled.numbered, ?_, ?_⟩ <;> simp [noModule]

theorem Sound.settled (sound : context.Sound system) : context.Settled where
  wellFormed := sound.wellFormed
  numbered := sound.numbered
  canonical := fun module member => ⟨system, (sound.loaded module member).canonicalPath⟩

theorem Settled.change {after : Context} (settled : context.Settled)
    (change : Change system context after) : after.Settled := by
  cases change with
  | opened paths => exact ⟨settled.wellFormed, settled.numbered, settled.canonical⟩
  | numbered =>
      refine ⟨settled.wellFormed, ?_, settled.canonical⟩
      intro module member
      exact Nat.lt_succ_of_lt (settled.numbered module member)
  | registered module found source number freshName =>
      refine ⟨settled.wellFormed.insert freshName (settled.freshId number), ?_, ?_⟩
      · intro other member
        rcases Registry.mem_insertById.mp member with rfl | member
        · exact number ▸ Nat.lt_succ_self context.nextId
        · exact Nat.lt_succ_of_lt (settled.numbered other member)
      · intro other member
        rcases Registry.mem_insertById.mp member with rfl | member
        · exact ⟨system, source.canonicalPath⟩
        · exact settled.canonical other member
  | bound module types unbound found =>
      exact ⟨settled.wellFormed, settled.numbered, settled.canonical⟩
  | remembered type => exact ⟨settled.wellFormed, settled.numbered, settled.canonical⟩

theorem Settled.changes {after : Context} (settled : context.Settled)
    (changes : Changes system context after) : after.Settled := by
  induction changes with
  | refl => exact settled
  | tail _ change induction => exact induction.change change

theorem Sound.change {after : Context} (sound : context.Sound system)
    (change : Change system context after) : after.Sound system := by
  have settled := sound.settled.change change
  refine ⟨settled.wellFormed, settled.numbered, ?_, ?_⟩
  · cases change with
    | registered module found source number freshName =>
        intro other member
        rcases Registry.mem_insertById.mp member with rfl | member
        · exact source
        · exact sound.loaded other member
    | _ => exact sound.loaded
  · cases change with
    | registered module found source number freshName =>
        intro other member
        rw [hasLookedForSymbols_withModule, Bool.or_eq_true]
        rcases Registry.mem_insertById.mp member with rfl | member
        · exact .inr (beq_self_eq_true other.id)
        · exact .inl (sound.searched other member)
    | _ => exact sound.searched

theorem Settled.extends_of_change {after : Context} (settled : context.Settled)
    (change : Change system context after) : context.Extends after := by
  cases change with
  | opened paths => exact Extends.of_sameModules rfl rfl fun _ bound => bound
  | numbered => exact Extends.of_sameModules rfl rfl fun _ bound => bound
  | registered module found source number freshName =>
      have wellFormed := settled.wellFormed.insert freshName (settled.freshId number)
      refine ⟨rfl, ?_, ?_, fun _ bound => bound⟩
      · intro id other present
        rcases settled.wellFormed.get?_eq_some.mp present with ⟨member, sameId⟩
        exact wellFormed.get?_eq_some.mpr ⟨Registry.mem_insertById.mpr (.inr member), sameId⟩
      · intro name other present
        rcases settled.wellFormed.getByName?_eq_some.mp present with ⟨member, sameName⟩
        exact wellFormed.getByName?_eq_some.mpr
          ⟨Registry.mem_insertById.mpr (.inr member), sameName⟩
  | bound module types unbound found =>
      refine Extends.of_sameModules rfl rfl ?_
      intro other bound
      exact absurd (unbound.symm.trans bound) (by simp)
  | remembered type => exact Extends.of_sameModules rfl rfl fun _ bound => bound

theorem Settled.extends {after : Context} (settled : context.Settled)
    (changes : Changes system context after) : context.Extends after := by
  induction changes with
  | refl => exact Extends.refl context
  | tail before change induction =>
      exact induction.trans ((settled.changes before).extends_of_change change)

theorem Sound.changes {after : Context} (sound : context.Sound system)
    (changes : Changes system context after) : after.Sound system := by
  induction changes with
  | refl => exact sound
  | tail _ change induction => exact induction.change change

theorem Sound.extends {after : Context} (sound : context.Sound system)
    (changes : Changes system context after) : context.Extends after :=
  sound.settled.extends changes

/-! ## Modules and their paths -/

/-- The files say what the module at a path declares, so a path belongs to one module. -/
theorem Sound.eq_of_samePath (sound : context.Sound system) {left right : Module}
    (leftMember : left ∈ context.registry.byId) (rightMember : right ∈ context.registry.byId)
    (samePath : left.path.same right.path = true) : left = right := by
  have leftLoaded := sound.loaded left leftMember
  have rightLoaded := sound.loaded right rightMember
  rcases leftLoaded.canonicalPath with ⟨leftSource, canonicalLeft⟩
  rcases rightLoaded.canonicalPath with ⟨rightSource, canonicalRight⟩
  have equalPath := FileSystem.eq_of_same_canonical canonicalLeft canonicalRight samePath
  have same := Module.SameSource.of_loadedFrom leftLoaded rightLoaded equalPath
  have equalName : foldName left.simpleName = foldName right.simpleName := by
    rw [same.simpleName]
  exact sound.wellFormed.eq_of_sameName leftMember rightMember equalName

end Context

end CilLoader
