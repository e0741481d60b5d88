import Mathlib.Data.List.Flatten
import Mathlib.Data.List.TakeWhile
import CilLoader.Executable.Container
import CilLoader.Proofs.Context.Repetition
import CilLoader.Proofs.Context.Runs
import CilLoader.Proofs.Identity.DisplayParts
import CilLoader.Proofs.Module.Names

/-!
# Modules under their own names

A name that is asked for is taken as a display name: what stands behind its first comma and the
white space around the rest do not count. So a module whose own name has neither is found by it. A
module with another name can be loaded, but not by its name, since what is left of that name belongs
to another module or to none.
-/

namespace CilLoader

/-! ## Upper case -/

namespace UpperCase

theorem ofChar_ne_nil (character : Char) : ofChar character ≠ [] := by
  have expanded : ∀ entry ∈ expansions, entry.2 ≠ [] := by decide
  rw [ofChar]
  split
  · split <;> exact List.cons_ne_nil _ _
  · split
    · exact List.cons_ne_nil _ _
    · split
      · rename_i capitals found
        rcases List.lookup_eq_some_iff.mp found with ⟨before, after, split, _⟩
        have member : (character.toNat, capitals) ∈ expansions := by simp [split]
        simpa using expanded _ member
      · exact List.cons_ne_nil _ _

/-- No character vanishes in upper case, so leaving some out always shows. -/
theorem eq_of_sublist {part whole : List Char} (sublist : part.Sublist whole)
    (same : part.flatMap ofChar = whole.flatMap ofChar) : part = whole := by
  induction sublist with
  | slnil => rfl
  | @cons part whole character rest _ =>
      have shorter := (rest.flatMap ofChar).length_le
      have nonempty := List.length_pos_of_ne_nil (ofChar_ne_nil character)
      have sameLength := congrArg List.length same
      rw [List.flatMap_cons, List.length_append] at sameLength
      omega
  | cons_cons character _ induction =>
      rw [List.flatMap_cons, List.flatMap_cons] at same
      rw [induction (List.append_cancel_left same)]

end UpperCase

/-! ## Bare names -/

namespace Identity

theorem foldName_simpleNameOf_iff {name : String} :
    foldName (simpleNameOf name) = foldName name ↔ Bare name := by
  rw [← simpleNameOf_eq_self_iff]
  constructor
  · intro same
    rw [foldName, foldName, UpperCase.ofText, UpperCase.ofText, String.ofList_inj] at same
    exact String.toList_inj.mp (UpperCase.eq_of_sublist (simpleNameOf_sublist name) same)
  · intro same
    rw [same]

end Identity

/-! ## Asking for a module that is loaded -/

namespace Context

open CilLoader.Action

section

variable [ExecutableParser] {system : FileSystem} {context : Context} {module : Module}

theorem resolveAssembly_eq_ok_iff {name : String} :
    (resolveAssembly name system context).1 = .ok module ↔
      (tryResolveAssembly name system context).1 = .ok (some module) := by
  rw [resolveAssembly, bind_apply]
  rcases tryResolveAssembly name system context with ⟨_ | found, after⟩
  · simp
  · cases found <;> simp

/-- The module is the only one with its name, so it is found if its name is what is looked for. If
it is found, then by that name, since no module is ever found by another name than its own. -/
theorem Settled.resolveAssembly_simpleName_iff (settled : context.Settled)
    (member : module ∈ context.registry.byId) :
    (resolveAssembly module.simpleName system context).1 = .ok module ↔
      Identity.Bare module.simpleName := by
  constructor
  · intro found
    have outcome : resolveAssembly module.simpleName system context =
        (.ok module, (resolveAssembly module.simpleName system context).2) :=
      Prod.ext found rfl
    have settledAfter :=
      settled.changes (changing_resolveAssembly module.simpleName system context)
    have present := getByName?_of_resolveAssembly outcome
    have sameName := (settledAfter.wellFormed.getByName?_eq_some.mp present).2
    exact Identity.foldName_simpleNameOf_iff.mp sameName.symm
  · intro bare
    have present := settled.wellFormed.getByName?_simpleName.mpr member
    rw [← Identity.simpleNameOf_eq_self_iff.mpr bare] at present
    rw [resolveAssembly_of_getByName? present]

theorem Settled.tryResolveAssembly_simpleName_iff (settled : context.Settled)
    (member : module ∈ context.registry.byId) :
    (tryResolveAssembly module.simpleName system context).1 = .ok (some module) ↔
      Identity.Bare module.simpleName := by
  rw [← resolveAssembly_eq_ok_iff, settled.resolveAssembly_simpleName_iff member]

/-- The culture and the key of a reference have no part in the resolution, but they are read. -/
theorem resolveAssemblyReference_eq {owner : Module} {token : Token} {row : AssemblyRefRow}
    {name : String} (table : token.table = TableId.assemblyRef.number)
    (present : owner.metadata.row? AssemblyRefRow token.row = some row)
    (named : owner.metadata.string row.name = .ok name) :
    (∃ error, resolveAssemblyReference owner token system context = (.error error, context)) ∧
        ¬(owner.metadata.Readable row.culture ∧
          ∃ key, owner.metadata.blob row.publicKeyOrToken = .ok key) ∨
      resolveAssemblyReference owner token system context = resolveAssembly name system context ∧
        owner.metadata.Readable row.culture ∧
          ∃ key, owner.metadata.blob row.publicKeyOrToken = .ok key := by
  rw [resolveAssemblyReference, if_pos table, bind_apply, ofExcept_apply,
    Metadata.referencedIdentity, Metadata.requireRow, present, Error.ok_bind, named,
    Error.ok_bind, Metadata.Readable]
  cases owner.metadata.string row.culture with
  | error error => exact .inl ⟨⟨error, rfl⟩, by simp⟩
  | ok culture =>
      cases owner.metadata.blob row.publicKeyOrToken with
      | error error => exact .inl ⟨⟨error, rfl⟩, by simp⟩
      | ok key => exact .inr ⟨rfl, ⟨culture, rfl⟩, key, rfl⟩

/-- Which loaded modules are found under their own names, by those who ask and by references. -/
theorem found_under_own_name (evolved : context.Evolved)
    (member : module ∈ context.registry.byId) :
    ((tryResolveAssembly module.simpleName system context).1 = .ok (some module) ↔
      Identity.Bare module.simpleName) ∧
    ∀ owner token row, token.table = TableId.assemblyRef.number →
      owner.metadata.row? AssemblyRefRow token.row = some row →
      owner.metadata.string row.name = .ok module.simpleName →
      ((resolveAssemblyReference owner token system context).1 = .ok module ↔
        Identity.Bare module.simpleName ∧ owner.metadata.Readable row.culture ∧
          ∃ key, owner.metadata.blob row.publicKeyOrToken = .ok key) := by
  have settled := evolved.settled
  refine ⟨settled.tryResolveAssembly_simpleName_iff member, ?_⟩
  intro owner token row table present named
  rcases resolveAssemblyReference_eq table present named with
    ⟨⟨error, failed⟩, unreadable⟩ | ⟨resolved, readable⟩
  · rw [failed]
    constructor
    · rintro ⟨⟩
    · rintro ⟨_, readable⟩
      exact absurd readable unreadable
  · rw [resolved, settled.resolveAssembly_simpleName_iff member, and_iff_left readable]

end

open scoped Container

/-- An assembly with the name `A,B`. -/
def dividedImage : Bytes := #[
  -- the root
  0x42, 0x53, 0x4A, 0x42, 1, 0, 1, 0, 0, 0, 0, 0, 0, 0, 0, 0, 0, 0, 2, 0,
  -- the headers of the streams
  0x34, 0, 0, 0, 0x32, 0, 0, 0, 0x23, 0x7E, 0, 0,
  0x66, 0, 0, 0, 5, 0, 0, 0, 0x23, 0x53, 0x74, 0x72, 0x69, 0x6E, 0x67, 0x73, 0, 0, 0, 0,
  -- one assembly
  0, 0, 0, 0, 2, 0, 0, 1, 0, 0, 0, 0, 1, 0, 0, 0, 0, 0, 0, 0, 0, 0, 0, 0, 1, 0, 0, 0,
  4, 0x80, 0, 0, 1, 0, 0, 0, 0, 0, 0, 0, 0, 0, 0, 0, 0, 0, 1, 0, 0, 0,
  -- the strings
  0, 0x41, 0x2C, 0x42, 0]

/-- An assembly with the name `C`. It refers to `A,B` and to itself, the latter with a culture whose
name stands outside the strings. -/
def referringImage : Bytes := #[
  -- the root
  0x42, 0x53, 0x4A, 0x42, 1, 0, 1, 0, 0, 0, 0, 0, 0, 0, 0, 0, 0, 0, 2, 0,
  -- the headers of the streams
  0x34, 0, 0, 0, 0x5E, 0, 0, 0, 0x23, 0x7E, 0, 0,
  0x92, 0, 0, 0, 7, 0, 0, 0, 0x23, 0x53, 0x74, 0x72, 0x69, 0x6E, 0x67, 0x73, 0, 0, 0, 0,
  -- one assembly and two references
  0, 0, 0, 0, 2, 0, 0, 1, 0, 0, 0, 0, 9, 0, 0, 0, 0, 0, 0, 0, 0, 0, 0, 0,
  1, 0, 0, 0, 2, 0, 0, 0,
  4, 0x80, 0, 0, 1, 0, 0, 0, 0, 0, 0, 0, 0, 0, 0, 0, 0, 0, 1, 0, 0, 0,
  1, 0, 0, 0, 0, 0, 0, 0, 0, 0, 0, 0, 0, 0, 3, 0, 0, 0, 0, 0,
  1, 0, 0, 0, 0, 0, 0, 0, 0, 0, 0, 0, 0, 0, 1, 0, 9, 0, 0, 0,
  -- the strings
  0, 0x43, 0, 0x41, 0x2C, 0x42, 0]

def dividedFiles : FileSystem where
  files := [([['X']], dividedImage), ([['Y']], referringImage)]
  directories := []

def dividedStart : Context :=
  { twinStart with config := { twinConfiguration with inputs := [] } }

def dividedLoaded : Context :=
  dividedStart.afterAll dividedFiles [.addModule ⟨"/X"⟩ none, .addModule ⟨"/Y"⟩ none]

/-- The reference with a number is to a name, and it cannot be resolved. -/
def refersInVain (owner : Module) (rid : Nat) (name : String) : Bool :=
  ((owner.metadata.row? AssemblyRefRow rid).bind fun row =>
    (owner.metadata.string row.name).toOption) == some name &&
  (resolveAssemblyReference owner (Token.ofParts TableId.assemblyRef.number rid) dividedFiles
    dividedLoaded).1.toOption.isNone

theorem exists_row_of_refersInVain {owner : Module} {rid : Nat} {name : String}
    (vain : refersInVain owner rid name = true) :
    ∃ row, owner.metadata.row? AssemblyRefRow rid = some row ∧
      owner.metadata.string row.name = .ok name ∧
      ∀ module, (resolveAssemblyReference owner (Token.ofParts TableId.assemblyRef.number rid)
        dividedFiles dividedLoaded).1 ≠ .ok module := by
  rw [refersInVain, Bool.and_eq_true, beq_iff_eq, Option.bind_eq_some_iff] at vain
  rcases vain with ⟨⟨row, present, named⟩, failed⟩
  refine ⟨row, present, ?_, ?_⟩
  · cases read : owner.metadata.string row.name with
    | error error => simp [read, Except.toOption] at named
    | ok text =>
        rw [read] at named
        exact congrArg Except.ok (Option.some.inj named)
  · intro module resolved
    simp [resolved, Except.toOption] at failed

theorem names_dividedLoaded :
    dividedLoaded.registry.byId.map (·.simpleName) = ["A,B", "C"] := by
  decide +kernel

theorem exists_named_dividedLoaded {name : String} (listed : name ∈ ["A,B", "C"]) :
    ∃ module ∈ dividedLoaded.registry.byId, module.simpleName = name := by
  rw [← names_dividedLoaded] at listed
  exact List.mem_map.mp listed

theorem reachable_dividedLoaded : Reachable dividedFiles dividedLoaded :=
  ⟨dividedStart.config, dividedStart, _, rfl, rfl⟩

/-- The module is found even when there are no files any more. -/
theorem found_under_own_name_bare :
    dividedLoaded.Evolved ∧ ∃ module ∈ dividedLoaded.registry.byId,
      module.simpleName = "C" ∧
        (tryResolveAssembly "C" .empty dividedLoaded).1 = .ok (some module) := by
  rcases exists_named_dividedLoaded (by decide : "C" ∈ ["A,B", "C"]) with ⟨module, member, named⟩
  have evolved := reachable_dividedLoaded.evolved
  have found := (@found_under_own_name _ .empty _ _ evolved member).1.mpr
  rw [named] at found
  have bare : Identity.Bare "C" := Identity.simpleNameOf_eq_self_iff.mp (by decide +kernel)
  exact ⟨evolved, module, member, named, found bare⟩

/-- Neither a name with a comma is found, nor a reference whose culture cannot be read. -/
theorem not_found_under_own_name :
    Reachable dividedFiles dividedLoaded ∧
    (∃ module ∈ dividedLoaded.registry.byId,
      (tryResolveAssembly module.simpleName dividedFiles dividedLoaded).1 ≠ .ok (some module)) ∧
    ∃ owner ∈ dividedLoaded.registry.byId, ∀ reference ∈ [(1, "A,B"), (2, "C")], ∃ row,
      owner.metadata.row? AssemblyRefRow reference.1 = some row ∧
      owner.metadata.string row.name = .ok reference.2 ∧
      ∃ module ∈ dividedLoaded.registry.byId, module.simpleName = reference.2 ∧
        (resolveAssemblyReference owner (Token.ofParts TableId.assemblyRef.number reference.1)
          dividedFiles dividedLoaded).1 ≠ .ok module := by
  have evaluated : (tryResolveAssembly "A,B" dividedFiles dividedLoaded).1.toOption = some none ∧
      ∃ owner ∈ dividedLoaded.registry.byId, ∀ reference ∈ [(1, "A,B"), (2, "C")],
        refersInVain owner reference.1 reference.2 = true := by
    decide +kernel
  rcases evaluated with ⟨unfound, owner, ownerMember, vain⟩
  refine ⟨reachable_dividedLoaded, ?_, owner, ownerMember, ?_⟩
  · rcases exists_named_dividedLoaded (by decide : "A,B" ∈ ["A,B", "C"]) with
      ⟨module, member, named⟩
    refine ⟨module, member, ?_⟩
    intro found
    rw [named] at found
    simp [found, Except.toOption] at unfound
  · intro reference referenceMember
    rcases exists_row_of_refersInVain (vain reference referenceMember) with
      ⟨row, present, named, failed⟩
    have listed : reference.2 ∈ ["A,B", "C"] := by
      rcases List.mem_pair.mp referenceMember with rfl | rfl <;> decide
    rcases exists_named_dividedLoaded listed with ⟨module, member, sameName⟩
    exact ⟨row, present, named, module, member, sameName, failed module⟩

end Context

end CilLoader
