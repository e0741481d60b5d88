import Mathlib.Data.List.Induction
import CilLoader.Proofs.Registry.Indexes

/-!
# A registry is a map in which the first one wins

Committing modules one after another does to the names what inserting them into a map does if a key
that is taken stays as it is. The registry answers every question as that map would.
-/

namespace CilLoader

namespace Registry

/-- The registry after some commits, whatever became of each. -/
def commitAll (modules : List Module) : Registry :=
  modules.foldl (fun registry module => (registry.commit module).2) empty

/-- The map in which the first one wins: a name belongs to the first module committed under it. -/
def firstNamed (modules : List Module) (name : String) : Option Module :=
  modules.find? fun module => foldName module.simpleName == foldName name

/-- The modules that got their names. -/
def winners (modules : List Module) : List Module :=
  modules.filter fun module => firstNamed modules module.simpleName == some module

/-- What becomes of a module that is committed after some others. -/
def verdict (earlier : List Module) (module : Module) : Except Error Commit :=
  match firstNamed earlier module.simpleName with
  | none => .ok (.inserted module)
  | some existing =>
    if existing.path.same module.path then .ok (.existing existing)
    else .error (.duplicateSimpleName module.simpleName existing.path module.path)

theorem commitAll_concat (modules : List Module) (module : Module) :
    commitAll (modules ++ [module]) = ((commitAll modules).commit module).2 := by
  simp [commitAll]

theorem firstNamed_concat (modules : List Module) (module : Module) (name : String) :
    firstNamed (modules ++ [module]) name =
      (firstNamed modules name).or
        (if foldName module.simpleName == foldName name then some module else none) := by
  rw [firstNamed, List.find?_append]
  cases same : foldName module.simpleName == foldName name <;> simp [firstNamed, same]

theorem firstNamed_eq_none {modules : List Module} {name : String} :
    firstNamed modules name = none ↔
      ∀ module ∈ modules, foldName module.simpleName ≠ foldName name := by
  simp [firstNamed]

theorem mem_winners {modules : List Module} {module : Module} :
    module ∈ winners modules ↔ firstNamed modules module.simpleName = some module := by
  rw [winners, List.mem_filter, beq_iff_eq]
  exact ⟨And.right, fun found => ⟨List.mem_of_find?_eq_some found, found⟩⟩

theorem verdict_eq_inserted {earlier : List Module} {module : Module} :
    verdict earlier module = .ok (.inserted module) ↔
      firstNamed earlier module.simpleName = none := by
  rw [verdict]
  cases firstNamed earlier module.simpleName with
  | none => simp
  | some existing =>
      cases samePath : existing.path.same module.path <;> simp [samePath]

theorem verdict_eq_existing {earlier : List Module} {module existing : Module} :
    verdict earlier module = .ok (.existing existing) ↔
      firstNamed earlier module.simpleName = some existing ∧
        existing.path.same module.path = true := by
  rw [verdict]
  cases firstNamed earlier module.simpleName with
  | none => simp
  | some found =>
      cases samePath : found.path.same module.path with
      | false =>
          have unequal : ¬(found = existing ∧ existing.path.same module.path = true) := by
            rintro ⟨rfl, same⟩
            exact absurd (samePath.symm.trans same) (by decide)
          simp [samePath, unequal]
      | true =>
          have equal : found = existing ↔
              found = existing ∧ existing.path.same module.path = true :=
            ⟨fun equal => ⟨equal, equal ▸ samePath⟩, And.left⟩
          simpa [samePath] using equal

theorem verdict_of_otherPath {earlier : List Module} {module existing : Module}
    (found : firstNamed earlier module.simpleName = some existing)
    (otherPath : existing.path.same module.path = false) :
    verdict earlier module =
      .error (.duplicateSimpleName module.simpleName existing.path module.path) := by
  simp [verdict, found, otherPath]

/-- The registry stands for the map: it is well-formed and its names belong to the same modules. -/
structure Represents (registry : Registry) (modules : List Module) : Prop where
  wellFormed : registry.WellFormed
  getByName? : ∀ name, registry.getByName? name = firstNamed modules name

namespace Represents

variable {registry : Registry} {modules : List Module}

theorem empty : Registry.empty.Represents [] where
  wellFormed := wellFormed_empty
  getByName? := fun _ => rfl

theorem mem_byId (represents : registry.Represents modules) {module : Module} :
    module ∈ registry.byId ↔ module ∈ winners modules := by
  rw [mem_winners, ← represents.getByName?, represents.wellFormed.getByName?_simpleName]

theorem commit_fst (represents : registry.Represents modules) (module : Module) :
    (registry.commit module).1 = verdict modules module := by
  rw [verdict, ← represents.getByName?]
  rcases registry.commit_cases module with
    ⟨found, outcome⟩ | ⟨existing, found, samePath, outcome⟩ | ⟨existing, found, samePath, outcome⟩
  · simp only [outcome, found]
  · simp only [outcome, found, samePath, if_true]
  · simp only [outcome, found, samePath, if_false, Bool.false_eq_true]

theorem commit (represents : registry.Represents modules) {module : Module}
    (freshId : ∀ other ∈ modules, other.id ≠ module.id) :
    (registry.commit module).2.Represents (modules ++ [module]) where
  wellFormed := represents.wellFormed.commit fun other member =>
    freshId other (List.mem_of_mem_filter (represents.mem_byId.mp member))
  getByName? := by
    intro name
    rw [firstNamed_concat, ← represents.getByName?]
    rcases registry.commit_cases module with
      ⟨freshName, outcome⟩ | ⟨existing, found, _, outcome⟩ | ⟨existing, found, _, outcome⟩
    · rw [outcome]
      by_cases same : foldName module.simpleName = foldName name
      · have absent : registry.getByName? name = none := by
          rw [Registry.getByName?, ← same]
          exact freshName
        rw [absent, getByName?_insert_of_eq same]
        simp [same]
      · rw [getByName?_insert_of_ne same]
        simp [same]
    all_goals
      rw [outcome]
      by_cases same : foldName module.simpleName = foldName name
      · have taken : registry.getByName? name = some existing := by
          rw [Registry.getByName?, ← same]
          exact found
        simp [taken]
      · simp [same]

end Represents

theorem represents_commitAll {modules : List Module} (distinct : (modules.map Module.id).Nodup) :
    (commitAll modules).Represents modules := by
  induction modules using List.reverseRecOn with
  | nil => exact Represents.empty
  | append_singleton modules module induction =>
      rw [List.map_append, List.nodup_append] at distinct
      rw [commitAll_concat]
      refine (induction distinct.1).commit ?_
      intro other member
      exact distinct.2.2 other.id (List.mem_map_of_mem member) module.id (by simp)

theorem Represents.modules_perm {registry : Registry} {modules : List Module}
    (represents : registry.Represents modules) (distinct : (modules.map Module.id).Nodup) :
    registry.modules.Perm (winners modules) := by
  have byIdNodup : registry.byId.Nodup :=
    represents.wellFormed.ascending.imp fun less equal =>
      Nat.ne_of_lt less (congrArg Module.id equal)
  have winnersNodup : (winners modules).Nodup := (List.Nodup.of_map _ distinct).filter _
  exact (List.perm_ext_iff_of_nodup byIdNodup winnersNodup).mpr fun _ => represents.mem_byId

/-- A registry refines the map in which the first one wins: every commit, after any commits of
modules with numbers of their own, comes out as the map says, and so does every lookup. -/
theorem commitAll_refines_firstNamed (modules : List Module)
    (distinct : (modules.map Module.id).Nodup) :
    (∀ earlier module later, modules = earlier ++ module :: later →
      let registry := commitAll earlier
      let outcome := registry.commit module
      (outcome.1 = .ok (.inserted module) ↔
        ∀ other ∈ earlier, foldName other.simpleName ≠ foldName module.simpleName) ∧
      (∀ existing, outcome.1 = .ok (.existing existing) ↔
        firstNamed earlier module.simpleName = some existing ∧
          existing.path.same module.path = true) ∧
      (∀ existing, firstNamed earlier module.simpleName = some existing →
        existing.path.same module.path = false →
        outcome.1 =
          .error (.duplicateSimpleName module.simpleName existing.path module.path)) ∧
      (outcome.1 ≠ .ok (.inserted module) → outcome.2 = registry)) ∧
    (∀ name, (commitAll modules).getByName? name = firstNamed modules name) ∧
    (∀ id module, (commitAll modules).get? id = some module ↔
      module ∈ winners modules ∧ module.id = id) ∧
    ((commitAll modules).modules.Perm (winners modules) ∧
      (commitAll modules).modules.Pairwise (·.id < ·.id)) ∧
    (commitAll modules).size = (winners modules).length ∧
    (∀ path module, (commitAll modules).findByPath? path = some module ↔
      (module ∈ winners modules ∧ module.path.same path = true) ∧
        ∀ other ∈ winners modules, other.path.same path = true → module.id ≤ other.id) := by
  have represents := represents_commitAll distinct
  have perm := represents.modules_perm distinct
  refine ⟨?_, represents.getByName?, ?_, ⟨perm, represents.wellFormed.ascending⟩,
    perm.length_eq, ?_⟩
  · rintro earlier module later rfl
    have earlierDistinct : (earlier.map Module.id).Nodup := by
      rw [List.map_append] at distinct
      exact (List.nodup_append.mp distinct).1
    have outcome := (represents_commitAll earlierDistinct).commit_fst module
    refine ⟨?_, ?_, ?_, (commitAll earlier).commit_snd_of_not_inserted module⟩
    · rw [outcome, verdict_eq_inserted, firstNamed_eq_none]
    · intro existing
      rw [outcome, verdict_eq_existing]
    · intro existing found otherPath
      rw [outcome, verdict_of_otherPath found otherPath]
  · intro id module
    rw [represents.wellFormed.get?_eq_some, represents.mem_byId]
  · intro path module
    simp only [represents.wellFormed.findByPath?_eq_some, represents.mem_byId]

/-- A module of which only the number, the name and the path matter. -/
def moduleNamed (id : ModuleId) (name path : String) : Module where
  id := id
  identity := ⟨name, .zero, none, none⟩
  image := {
    path := ⟨path⟩
    file := ⟨#[], .metadata, 0, 0, Nat.le_refl 0⟩
    metadata :=
      ⟨⟨0, 0, "", 0, []⟩, ⟨#[]⟩, ⟨#[]⟩, ⟨#[]⟩, ⟨#[], 0, 0, 0, 0, ⟨0, .none⟩, 0⟩, none⟩ }

/-- Three claims to one name, from two paths, and a later module from the first of these. -/
def rivals : List Module := [
  moduleNamed 2 "Foo" "/a/Foo.dll", moduleNamed 5 "FOO" "/a/./Foo.dll",
  moduleNamed 3 "foo" "/b/Foo.dll", moduleNamed 1 "Bar" "/a/Foo.dll"]

theorem commitAll_refines_firstNamed_rivals :
    (rivals.map Module.id).Nodup ∧
      (commitAll rivals).getByName? "fOO" = some (moduleNamed 2 "Foo" "/a/Foo.dll") ∧
      (commitAll rivals).size = 2 ∧
      (commitAll rivals).findByPath? ⟨"/a/Foo.dll"⟩ = some (moduleNamed 1 "Bar" "/a/Foo.dll") := by
  have distinct : (rivals.map Module.id).Nodup := by decide
  rcases commitAll_refines_firstNamed rivals distinct with ⟨_, byName, _, _, size, byPath⟩
  refine ⟨distinct, ?_, ?_, ?_⟩
  · rw [byName]
    decide
  · rw [size]
    decide
  · rw [byPath]
    decide

end Registry

end CilLoader
