import Mathlib.Data.List.Basic
import Mathlib.Data.List.Nodup
import Mathlib.Order.Basic
import CilLoader.Module.Registry

/-!
# The two indexes of a registry

A registry keeps its modules twice, by number and by folded name. In a well-formed registry both
indexes hold the same modules, and each module stands under its own keys. Registering a module with
a new number and a new name keeps a registry well-formed.
-/

namespace CilLoader

namespace Registry

/-! ## Insertion by number -/

theorem insertById_perm (module : Module) (modules : List Module) :
    (insertById module modules).Perm (module :: modules) := by
  induction modules with
  | nil => exact List.Perm.refl _
  | cons other others induction =>
      rw [insertById]
      split
      · exact List.Perm.refl _
      · exact (induction.cons other).trans (List.Perm.swap module other others)

@[simp]
theorem mem_insertById {module other : Module} {modules : List Module} :
    other ∈ insertById module modules ↔ other = module ∨ other ∈ modules := by
  rw [(insertById_perm module modules).mem_iff, List.mem_cons]

theorem ascending_insertById {module : Module} {modules : List Module}
    (ascending : modules.Pairwise (·.id < ·.id)) (fresh : ∀ other ∈ modules, other.id ≠ module.id) :
    (insertById module modules).Pairwise (·.id < ·.id) := by
  induction modules with
  | nil => exact List.pairwise_singleton _ _
  | cons other others induction =>
      have parts := List.pairwise_cons.mp ascending
      have freshHead : other.id ≠ module.id := fresh other (List.mem_cons_self)
      rw [insertById]
      split
      · rename_i before
        refine List.pairwise_cons.mpr ⟨?_, ascending⟩
        intro later member
        rcases List.mem_cons.mp member with rfl | member
        · exact before
        · exact Nat.lt_trans before (parts.1 later member)
      · rename_i notBefore
        have rest := induction parts.2 fun later member =>
          fresh later (List.mem_cons_of_mem other member)
        refine List.pairwise_cons.mpr ⟨?_, rest⟩
        intro later member
        rcases mem_insertById.mp member with rfl | member
        · exact Nat.lt_of_le_of_ne (Nat.le_of_not_lt notBefore) freshHead
        · exact parts.1 later member

/-! ## Lookup after an insertion -/

theorem getByName?_insert_of_eq {registry : Registry} {module : Module} {name : String}
    (same : foldName module.simpleName = foldName name) :
    (registry.insert module).getByName? name = some module := by
  simp [getByName?, insert, same]

theorem getByName?_insert_of_ne {registry : Registry} {module : Module} {name : String}
    (different : foldName module.simpleName ≠ foldName name) :
    (registry.insert module).getByName? name = registry.getByName? name := by
  have test : (foldName name == foldName module.simpleName) = false :=
    beq_eq_false_iff_ne.mpr different.symm
  simp only [getByName?, insert, List.lookup_cons, test]

/-! ## Well-formed registries -/

/-- Both indexes hold the same modules, each under its own number and its own folded name. -/
structure WellFormed (registry : Registry) : Prop where
  ascending : registry.byId.Pairwise (·.id < ·.id)
  namesDistinct : (registry.byName.map Prod.fst).Nodup
  keyed : ∀ entry ∈ registry.byName, entry.1 = foldName entry.2.simpleName
  sameModules : ∀ module, module ∈ registry.byId ↔ module ∈ registry.byName.map Prod.snd

theorem wellFormed_empty : empty.WellFormed where
  ascending := List.Pairwise.nil
  namesDistinct := List.nodup_nil
  keyed := fun _ member => absurd member List.not_mem_nil
  sameModules := fun _ => Iff.rfl

theorem lookup_eq_some_iff {κ υ : Type} [BEq κ] [LawfulBEq κ] {entries : List (κ × υ)}
    (distinct : (entries.map Prod.fst).Nodup) {key : κ} {value : υ} :
    entries.lookup key = some value ↔ (key, value) ∈ entries := by
  induction entries with
  | nil => simp
  | cons entry entries induction =>
      rcases entry with ⟨entryKey, entryValue⟩
      have parts := List.nodup_cons.mp distinct
      by_cases equal : key = entryKey
      · subst equal
        have absent : (key, value) ∉ entries := fun member =>
          parts.1 (List.mem_map.mpr ⟨(key, value), member, rfl⟩)
        simp [absent, eq_comm]
      · have test : (key == entryKey) = false := beq_eq_false_iff_ne.mpr equal
        simp [List.lookup_cons, test, induction parts.2, equal]

/-- In a list in ascending order, the first module that passes a test is the one with the smallest
number among those that do. -/
theorem find?_eq_some_iff_least {modules : List Module} (ascending : modules.Pairwise (·.id < ·.id))
    {fits : Module → Bool} {module : Module} :
    modules.find? fits = some module ↔
      (module ∈ modules ∧ fits module) ∧ ∀ other ∈ modules, fits other → module.id ≤ other.id := by
  induction modules with
  | nil => simp
  | cons head rest induction =>
      have parts := List.pairwise_cons.mp ascending
      by_cases fitsHead : fits head = true
      · rw [List.find?_cons_of_pos fitsHead]
        constructor
        · rintro ⟨rfl⟩
          refine ⟨⟨List.mem_cons_self, fitsHead⟩, ?_⟩
          intro other member _
          rcases List.mem_cons.mp member with rfl | member
          · exact Nat.le_refl _
          · exact Nat.le_of_lt (parts.1 other member)
        · rintro ⟨⟨member, _⟩, least⟩
          rcases List.mem_cons.mp member with rfl | member
          · rfl
          · have behind : head.id < module.id := parts.1 module member
            have ahead := least head List.mem_cons_self fitsHead
            exact absurd behind (Nat.not_lt.mpr ahead)
      · rw [List.find?_cons_of_neg fitsHead, induction parts.2]
        constructor
        · rintro ⟨⟨member, fitsModule⟩, least⟩
          refine ⟨⟨List.mem_cons_of_mem head member, fitsModule⟩, ?_⟩
          intro other otherMember fitsOther
          rcases List.mem_cons.mp otherMember with rfl | otherMember
          · exact absurd fitsOther fitsHead
          · exact least other otherMember fitsOther
        · rintro ⟨⟨member, fitsModule⟩, least⟩
          rcases List.mem_cons.mp member with rfl | member
          · exact absurd fitsModule fitsHead
          · exact ⟨⟨member, fitsModule⟩, fun other otherMember =>
              least other (List.mem_cons_of_mem head otherMember)⟩

namespace WellFormed

variable {registry : Registry}

theorem mem_byName (wellFormed : registry.WellFormed) {key : String} {module : Module} :
    (key, module) ∈ registry.byName ↔
      module ∈ registry.byId ∧ key = foldName module.simpleName := by
  constructor
  · intro member
    exact ⟨(wellFormed.sameModules module).mpr (List.mem_map_of_mem member),
      wellFormed.keyed _ member⟩
  · rintro ⟨member, rfl⟩
    rcases List.mem_map.mp ((wellFormed.sameModules module).mp member) with ⟨entry, found, rfl⟩
    rw [← wellFormed.keyed entry found]
    exact found

theorem getByName?_eq_some (wellFormed : registry.WellFormed) {name : String} {module : Module} :
    registry.getByName? name = some module ↔
      module ∈ registry.byId ∧ foldName module.simpleName = foldName name := by
  rw [getByName?, lookup_eq_some_iff wellFormed.namesDistinct, wellFormed.mem_byName, eq_comm]

theorem getByName?_eq_none (wellFormed : registry.WellFormed) {name : String} :
    registry.getByName? name = none ↔
      ∀ module ∈ registry.byId, foldName module.simpleName ≠ foldName name := by
  rw [Option.eq_none_iff_forall_ne_some]
  refine forall_congr' fun module => ?_
  rw [Ne, wellFormed.getByName?_eq_some, not_and]

/-- The module that has a name is the only one whose name agrees with it but for case. -/
theorem sameName_iff_eq (wellFormed : registry.WellFormed) {name : String} {module other : Module}
    (present : registry.getByName? name = some module) (member : other ∈ registry.byId) :
    foldName other.simpleName = foldName name ↔ other = module := by
  constructor
  · intro sameName
    have found := wellFormed.getByName?_eq_some.mpr ⟨member, sameName⟩
    exact Option.some.inj (found.symm.trans present)
  · rintro rfl
    exact (wellFormed.getByName?_eq_some.mp present).2

theorem getByName?_simpleName (wellFormed : registry.WellFormed) {module : Module} :
    registry.getByName? module.simpleName = some module ↔ module ∈ registry.byId := by
  simp [wellFormed.getByName?_eq_some]

theorem get?_eq_some (wellFormed : registry.WellFormed) {id : ModuleId} {module : Module} :
    registry.get? id = some module ↔ module ∈ registry.byId ∧ module.id = id := by
  rw [get?, find?_eq_some_iff_least wellFormed.ascending]
  constructor
  · rintro ⟨⟨member, sameId⟩, _⟩
    exact ⟨member, by simpa using sameId⟩
  · rintro ⟨member, rfl⟩
    refine ⟨⟨member, by simp⟩, ?_⟩
    intro other _ sameId
    have equal : other.id = module.id := by simpa using sameId
    exact Nat.le_of_eq equal.symm

theorem findByPath?_eq_some (wellFormed : registry.WellFormed) {path : Path} {module : Module} :
    registry.findByPath? path = some module ↔
      (module ∈ registry.byId ∧ module.path.same path) ∧
        ∀ other ∈ registry.byId, other.path.same path → module.id ≤ other.id :=
  find?_eq_some_iff_least wellFormed.ascending

theorem eq_of_sameName (wellFormed : registry.WellFormed) {left right : Module}
    (leftMember : left ∈ registry.byId) (rightMember : right ∈ registry.byId)
    (sameName : foldName left.simpleName = foldName right.simpleName) : left = right := by
  have foundLeft := wellFormed.getByName?_eq_some.mpr ⟨leftMember, sameName⟩
  have foundRight := wellFormed.getByName?_simpleName.mpr rightMember
  exact Option.some.inj (foundLeft.symm.trans foundRight)

theorem insert (wellFormed : registry.WellFormed) {module : Module}
    (freshName : registry.getByName? module.simpleName = none)
    (freshId : ∀ other ∈ registry.byId, other.id ≠ module.id) :
    (registry.insert module).WellFormed where
  ascending := ascending_insertById wellFormed.ascending freshId
  namesDistinct := by
    refine List.nodup_cons.mpr ⟨?_, wellFormed.namesDistinct⟩
    intro taken
    rcases List.mem_map.mp taken with ⟨entry, member, sameKey⟩
    have found := (lookup_eq_some_iff wellFormed.namesDistinct).mpr member
    rw [sameKey] at found
    exact absurd (freshName.symm.trans found) (by simp)
  keyed := by
    intro entry member
    rcases List.mem_cons.mp member with rfl | member
    · rfl
    · exact wellFormed.keyed entry member
  sameModules := by
    intro other
    simp only [Registry.insert, mem_insertById, List.map_cons, List.mem_cons,
      wellFormed.sameModules other]

end WellFormed

/-! ## Committing -/

/-- All that a commit can come to. -/
theorem commit_cases (registry : Registry) (module : Module) :
    (registry.getByName? module.simpleName = none ∧
      registry.commit module = (.ok (.inserted module), registry.insert module)) ∨
    (∃ existing, registry.getByName? module.simpleName = some existing ∧
      existing.path.same module.path = true ∧
      registry.commit module = (.ok (.existing existing), registry)) ∨
    (∃ existing, registry.getByName? module.simpleName = some existing ∧
      existing.path.same module.path = false ∧
      registry.commit module =
        (.error (.duplicateSimpleName module.simpleName existing.path module.path), registry)) := by
  cases found : registry.getByName? module.simpleName with
  | none => exact .inl ⟨rfl, by simp only [commit, found]⟩
  | some existing =>
      cases samePath : existing.path.same module.path with
      | true => exact .inr (.inl ⟨existing, rfl, samePath, by simp [commit, found, samePath]⟩)
      | false => exact .inr (.inr ⟨existing, rfl, samePath, by simp [commit, found, samePath]⟩)

theorem commit_snd_of_not_inserted (registry : Registry) (module : Module)
    (notInserted : (registry.commit module).1 ≠ .ok (.inserted module)) :
    (registry.commit module).2 = registry := by
  rcases registry.commit_cases module with
    ⟨_, outcome⟩ | ⟨_, _, _, outcome⟩ | ⟨_, _, _, outcome⟩
  · exact absurd (congrArg Prod.fst outcome) notInserted
  · exact congrArg Prod.snd outcome
  · exact congrArg Prod.snd outcome

theorem WellFormed.commit {registry : Registry} (wellFormed : registry.WellFormed)
    {module : Module} (freshId : ∀ other ∈ registry.byId, other.id ≠ module.id) :
    (registry.commit module).2.WellFormed := by
  rcases registry.commit_cases module with
    ⟨freshName, outcome⟩ | ⟨_, _, _, outcome⟩ | ⟨_, _, _, outcome⟩
  · rw [outcome]
    exact wellFormed.insert freshName freshId
  · rw [outcome]
    exact wellFormed
  · rw [outcome]
    exact wellFormed

end Registry

end CilLoader
