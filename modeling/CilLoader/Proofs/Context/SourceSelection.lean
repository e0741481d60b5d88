import CilLoader.Executable.Container
import CilLoader.Proofs.Context.Offers
import CilLoader.Proofs.Context.Openings
import CilLoader.Proofs.Context.Tables
import CilLoader.Proofs.FileSystem.CanonicalNames
import CilLoader.Proofs.Module.Faults
import CilLoader.Proofs.Resolution.OwnNames

/-!
# Which file a name is loaded from

A name is looked for by its simple name, up to case. An input file with that name counts more than
any reference file, and of these the first one that was offered counts. The file must then declare
the name itself: what its file name says is not enough.
-/

namespace CilLoader

open CilLoader.Configuration

namespace Context

variable {built system : FileSystem} {config : Configuration} {context : Context}

theorem getByName?_of_fresh (fresh : ofConfiguration config = .ok context) (name : String) :
    context.registry.getByName? name = none := by
  rw [registry_of_fresh fresh]
  rfl

section

variable [ExecutableParser]

/-- The answer comes from one file, which was at the path when the configuration was built. No other
file is opened but the one that may hold its symbols. Links that have been put on its way since then
are followed. -/
structure LoadsFrom (built system : FileSystem) (context : Context) (path : Path)
    (simpleName : String) (outcome : Except Error Module × Context) (canonical : Path) : Prop where
  canonicalPath : built.canonicalize path = .ok canonical
  answer : outcome.1 = Module.atPath system context.nextId canonical (some simpleName)
  opened : ∀ opened ∈ outcome.2.opened, ∃ current, system.canonicalize canonical = .ok current ∧
    (opened = current ∨ opened = PortablePdb.pathFor current)
  registered : ∀ module ∈ outcome.2.registry.byId,
    system.canonicalize canonical = .ok module.path
  unmoved : built.NoNewLinks system → ∀ current, system.canonicalize canonical = .ok current →
    current = canonical

/-- Loading a module registers at most the one at the path, and that is the answer. -/
theorem mem_byId_of_addModule {path : Path} {expected : Option String} {module : Module}
    (member : module ∈ (Action.addModule path expected system context).2.registry.byId) :
    module ∈ context.registry.byId ∨
      (Action.addModule path expected system context).1 = .ok module ∧
        system.canonicalize path = .ok module.path := by
  rcases Action.addModule_cases path expected system context with
    ⟨_, _, _, loaded⟩ | ⟨candidate, _, made,
      ⟨_, _, loaded⟩ | ⟨_, _, _, loaded⟩ | ⟨_, _, _, loaded⟩⟩
  · rw [loaded] at member
    exact .inl member
  · rw [loaded] at member ⊢
    rcases Registry.mem_insertById.mp member with rfl | member
    · exact .inr ⟨rfl, (Module.atPath_eq_ok made).2.2.1⟩
    · exact .inl member
  all_goals
    rw [loaded] at member
    exact .inl member

/-- A name that is not taken yet is looked for in the tables. -/
theorem resolveAssembly_of_absent {name : String}
    (absent : context.registry.getByName? (Identity.simpleNameOf name) = none) :
    Action.resolveAssembly name system context =
      match context.config.source? (Identity.simpleNameOf name) with
      | none => (.error (.assemblyNotFound (Identity.simpleNameOf name)), context)
      | some file =>
        Action.addModule file.path (some (Identity.simpleNameOf name)) system context := by
  simp only [Action.resolveAssembly, Action.tryResolveAssembly, Action.bind_apply,
    Action.context_apply, absent]
  cases context.config.source? (Identity.simpleNameOf name) with
  | none => rfl
  | some file =>
      dsimp only
      rw [Action.bind_apply]
      rcases Action.addModule file.path (some (Identity.simpleNameOf name)) system context with
        ⟨_ | module, after⟩ <;> rfl

theorem loadsFrom_of_source (fresh : ofConfiguration config = .ok context) {name : String}
    {path : Path} {file : AssemblyFile} (found : assemblyFile built path = .ok file)
    (source : config.source? (Identity.simpleNameOf name) = some file) :
    LoadsFrom built system context path (Identity.simpleNameOf name)
      (Action.resolveAssembly name system context) file.path := by
  have canonical := (assemblyFile_eq_ok.mp found).2.2
  have tabular := tabular_of_fresh system fresh
  have absent := getByName?_of_fresh fresh (Identity.simpleNameOf name)
  rw [← config_of_fresh fresh] at source
  rw [resolveAssembly_of_absent absent, source]
  refine ⟨canonical, (tabular.addModule absent source).1, ?_, ?_, ?_⟩
  · intro opened member
    rcases Action.opening_addModule file.path _ context opened member with before | allowed
    · rw [opened_of_fresh fresh] at before
      cases before
    · exact allowed
  · intro module member
    rcases mem_byId_of_addModule member with before | ⟨_, canonicalNow⟩
    · rw [registry_of_fresh fresh] at before
      cases before
    · exact canonicalNow
  · intro noNewLinks current canonicalNow
    exact FileSystem.eq_of_canonicalize_canonical noNewLinks canonical canonicalNow

theorem LoadsFrom.ne_assemblyNotFound {path canonical : Path} {simpleName : String}
    {outcome : Except Error Module × Context}
    (loads : LoadsFrom built system context path simpleName outcome canonical) (missing : String) :
    outcome.1 ≠ .error (.assemblyNotFound missing) := by
  intro notFound
  rw [loads.answer] at notFound
  exact Module.blaming_atPath system context.nextId canonical (some simpleName) _ notFound

/-- A module that is answered declares the name, and it is answered again for every name like it,
whatever has become of the files. -/
theorem Sound.answered_again (sound : context.Sound system) {name : String} {module : Module}
    {after : Context}
    (resolved : Action.resolveAssembly name system context = (.ok module, after)) :
    (∃ identity, module.metadata.identity? = .ok (some identity) ∧
      foldName identity.name = foldName (Identity.simpleNameOf name)) ∧
    ∀ again, foldName (Identity.simpleNameOf again) = foldName (Identity.simpleNameOf name) →
      ∀ later, Action.resolveAssembly again later after = (.ok module, after) := by
  have present := Action.getByName?_of_resolveAssembly resolved
  have soundAfter : after.Sound system := by
    simpa only [resolved] using
      sound.changes (Action.changing_resolveAssembly name system context)
  rcases soundAfter.wellFormed.getByName?_eq_some.mp present with ⟨member, sameName⟩
  refine ⟨⟨module.identity, (soundAfter.loaded module member).identity, sameName⟩, ?_⟩
  intro again sameKey later
  apply Action.resolveAssembly_of_getByName?
  rw [Registry.getByName?, sameKey]
  exact present

/-- What a name leads to, by the files that were offered to the configuration. There is always an
answer to what these are, and whichever it is, the name leads there. -/
theorem resolveAssembly_selects {base : Configuration} {calls : List Configuration.Call}
    (noInputs : base.inputs = []) (noReferences : base.references = [])
    (configured : base.performAll built calls = .ok config)
    (fresh : ofConfiguration config = .ok context) (system : FileSystem) (name : String) :
    let simpleName := Identity.simpleNameOf name
    let key := foldName simpleName
    let outcome := Action.resolveAssembly name system context
    (∃ inputs references, OffersAll built calls inputs references) ∧
    ∀ inputs references, OffersAll built calls inputs references →
      (∀ path ∈ inputs, Suits key path →
        ∃ canonical, LoadsFrom built system context path simpleName outcome canonical) ∧
      (∀ before path behind, references = before ++ path :: behind → Suits key path →
        (∀ other ∈ inputs ++ before, ¬Suits key other) →
          ∃ canonical, LoadsFrom built system context path simpleName outcome canonical) ∧
      ((∀ path ∈ inputs ++ references, ¬Suits key path) → outcome.2 = context) ∧
      (∀ missing, outcome.1 = .error (.assemblyNotFound missing) ↔
        missing = simpleName ∧ ∀ path ∈ inputs ++ references, ¬Suits key path) ∧
      (∀ module, outcome.1 = .ok module →
        (∃ identity, module.metadata.identity? = .ok (some identity) ∧
          foldName identity.name = key) ∧
        ∀ again, foldName (Identity.simpleNameOf again) = key → ∀ later,
          Action.resolveAssembly again later outcome.2 = (.ok module, outcome.2)) := by
  intro simpleName key outcome
  refine ⟨exists_offersAll configured, fun inputs references offered => ?_⟩
  have holds : config.Holds built inputs references := by
    simpa using (holds_nothing noInputs noReferences).performAll offered configured
  have ofInput : ∀ path ∈ inputs, Suits key path →
      ∃ canonical, LoadsFrom built system context path simpleName outcome canonical := by
    intro path member suits
    rcases holds.source?_of_input member suits with ⟨file, found, source⟩
    exact ⟨file.path, loadsFrom_of_source fresh found source⟩
  have ofReference : ∀ before path behind, references = before ++ path :: behind →
      Suits key path → (∀ other ∈ inputs ++ before, ¬Suits key other) →
        ∃ canonical, LoadsFrom built system context path simpleName outcome canonical := by
    rintro before path behind rfl suits unsuited
    rcases holds.source?_of_reference unsuited suits with ⟨file, found, source⟩
    exact ⟨file.path, loadsFrom_of_source fresh found source⟩
  have ofNone : (∀ path ∈ inputs ++ references, ¬Suits key path) →
      outcome = (.error (.assemblyNotFound simpleName), context) := by
    intro unsuited
    have noSource : config.source? simpleName = none := holds.source?_eq_none_iff.mpr unsuited
    show Action.resolveAssembly name system context = _
    rw [resolveAssembly_of_absent (getByName?_of_fresh fresh _), config_of_fresh fresh, noSource]
  refine ⟨ofInput, ofReference, fun unsuited => congrArg Prod.snd (ofNone unsuited), ?_, ?_⟩
  · intro missing
    constructor
    · intro notFound
      cases source : config.source? simpleName with
      | none =>
          have unsuited := holds.source?_eq_none_iff.mp source
          rw [ofNone unsuited] at notFound
          cases notFound
          exact ⟨rfl, unsuited⟩
      | some file =>
          -- Whatever goes wrong with a file, the answer is about that file.
          rcases holds.of_source? source with ⟨path, _, found, _⟩
          exact absurd notFound
            ((loadsFrom_of_source fresh found source).ne_assemblyNotFound missing)
    · rintro ⟨rfl, unsuited⟩
      rw [ofNone unsuited]
  · intro module answered
    have resolved : Action.resolveAssembly name system context = (.ok module, outcome.2) :=
      Prod.ext answered rfl
    exact (sound_of_fresh system fresh).answered_again resolved

end

open scoped Container

/-- An input file, and a directory with two files of one name and a file that is no assembly. -/
def shelves : FileSystem where
  files := [
    (["in".toList, "A.dll".toList], selfSpecified),
    (["lib".toList, "C.exe".toList], referringImage),
    (["lib".toList, "c.dll".toList], dividedImage),
    (["lib".toList, "notes.txt".toList], #[])]
  directories := [["in".toList], ["lib".toList]]

def shelfCalls : List Configuration.Call :=
  [.referenceDirectory ⟨"/lib"⟩, .input ⟨"/in/A.dll"⟩]

theorem find_shelves : shelves.find ⟨"/lib"⟩ = .ok ["lib".toList] := by
  decide +kernel

theorem namesIn_shelves :
    shelves.namesIn ["lib".toList] = ["C.exe", "c.dll", "notes.txt"] := by
  have names : shelves.places.filterMap (FileSystem.nameIn? ["lib".toList]) =
      ["C.exe", "c.dll", "notes.txt"] := by
    decide +kernel
  rw [FileSystem.namesIn, names, List.mergeSort_of_pairwise (by decide)]

theorem lists_shelves : Lists shelves ⟨"/lib"⟩ ["C.exe", "c.dll"] := by
  have listed := lists_of_find find_shelves
  rw [namesIn_shelves] at listed
  exact listed

theorem offersAll_shelves :
    OffersAll shelves shelfCalls [⟨"/in/A.dll"⟩] [⟨"/lib/C.exe"⟩, ⟨"/lib/c.dll"⟩] :=
  .cons (.referenceDirectory lists_shelves) (.cons (.input ⟨"/in/A.dll"⟩) .nil)

/-- Of the two files with one name the first one is loaded, and what has been loaded is found
again. -/
theorem resolveAssembly_selects_shelves :
    ∃ config context module, dividedStart.config.performAll shelves shelfCalls = .ok config ∧
      ofConfiguration config = .ok context ∧
      (∃ canonical, LoadsFrom shelves shelves context ⟨"/lib/C.exe"⟩ "c"
        (Action.resolveAssembly "c, Version=1.0.0.0" shelves context) canonical) ∧
      (Action.resolveAssembly "D" shelves context).1 = .error (.assemblyNotFound "D") ∧
      let outcome := Action.resolveAssembly "a" shelves context
      outcome.1 = .ok module ∧
        Action.resolveAssembly "A, Culture=neutral" twins outcome.2 = (.ok module, outcome.2) := by
  have evaluated : ((dividedStart.config.performAll shelves shelfCalls >>= ofConfiguration).map
      fun context => (Action.resolveAssembly "a" shelves context).1.isOk) = .ok true := by
    rw [performAll, shelfCalls, List.foldlM_cons, Configuration.Call.perform,
      addReferenceDirectory, FileSystem.list, find_shelves, Error.ok_bind, namesIn_shelves]
    decide +kernel
  cases built : dividedStart.config.performAll shelves shelfCalls >>= ofConfiguration with
  | error error => simp [built, Except.map] at evaluated
  | ok context =>
      rcases Error.bind_eq_ok.mp built with ⟨config, configured, fresh⟩
      have selects := fun name =>
        (resolveAssembly_selects rfl rfl configured fresh shelves name).2 _ _ offersAll_shelves
      have unsuited : ∀ path ∈ [⟨"/in/A.dll"⟩], ¬Suits (foldName "c") path := by decide +kernel
      have suits : Suits (foldName "c") ⟨"/lib/C.exe"⟩ := by decide +kernel
      have noFile : ∀ path ∈ [⟨"/in/A.dll"⟩, ⟨"/lib/C.exe"⟩, ⟨"/lib/c.dll"⟩],
          ¬Suits (foldName "D") path := by
        decide +kernel
      have loaded : (Action.resolveAssembly "a" shelves context).1.isOk = true := by
        rw [built] at evaluated
        exact Except.ok.inj evaluated
      cases answered : (Action.resolveAssembly "a" shelves context).1 with
      | error error => simp [answered, Except.isOk, Except.toBool] at loaded
      | ok module =>
          refine ⟨config, context, module, configured, fresh, ?_, ?_, answered, ?_⟩
          · exact (selects "c, Version=1.0.0.0").2.1 [] _ [⟨"/lib/c.dll"⟩] rfl suits unsuited
          · exact ((selects "D").2.2.2.1 "D").mpr ⟨by decide +kernel, noFile⟩
          · exact ((selects "a").2.2.2.2 module answered).2 _ (by decide +kernel) twins

end Context

end CilLoader
