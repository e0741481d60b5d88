import CilLoader.Executable.Container
import CilLoader.Proofs.FileSystem.CanonicalNames
import CilLoader.Proofs.Resolution.OwnNames

/-!
# Loading by path

The files may change between calls, so that a module need not be what the file at its path holds
now. Even then a module that a path leads to stands at the canonical form of the path, under its own
number and name, and a call that fails registers nothing. Whether adding a module is rejected
depends on the name that the file declares now, and on where the module with this name was loaded
from. Resolving a path asks first whether a module was loaded from there, whatever the file holds by
now.
-/

namespace CilLoader

/-- The name of the assembly that the file at a path declares now. -/
def FileSystem.declaredName? [ExecutableParser] (system : FileSystem) (path : Path) :
    Except Error (Option String) := do
  let image ← system.read path >>= Image.ofBytes path
  return (← image.metadata.identity?).map (·.name)

namespace Context

/-- The paths of registered modules and a canonical path are the same only if they are equal. -/
theorem Settled.path_eq_iff {context : Context} (settled : context.Settled) {system : FileSystem}
    {path canonical : Path} (found : system.canonicalize path = .ok canonical) {module : Module}
    (member : module ∈ context.registry.byId) :
    module.path.same canonical = true ↔ module.path = canonical := by
  rcases settled.canonical module member with ⟨other, source, canonicalModule⟩
  constructor
  · exact FileSystem.eq_of_same_canonical canonicalModule found
  · rintro rfl
    exact Path.same_self _

end Context

/-! ## Outcomes -/

/-- What a call on a path answers is registered, at exactly this path and under its own number and
name. The name is the expected one but for case, if one is expected. A call that fails registers
nothing. -/
structure Context.LoadsExactly (before : Context) (outcome : Except Error Module × Context)
    (path : Path) (expected : Option String) : Prop where
  found : ∀ module, outcome.1 = .ok module →
    module.path = path ∧ outcome.2.registry.get? module.id = some module ∧
      outcome.2.registry.getByName? module.simpleName = some module ∧
      ∀ name ∈ expected, foldName name = foldName module.simpleName
  failed : ∀ error, outcome.1 = .error error → outcome.2.registry = before.registry

/-- What becomes of a readable assembly is decided by the registered modules. Modules of one kind
reject it as a duplicate, and one of another kind is answered in its stead. Without either, the
answer is a new module with the name of the assembly. -/
structure Registry.Decides (registry : Registry) (outcome : Except Error Module) (name : String)
    (path : Path) (rejects answers : Module → Prop) : Prop where
  rejected : ∀ declared taken refused,
    outcome = .error (.duplicateSimpleName declared taken refused) ↔
      declared = name ∧ refused = path ∧
        ∃ module ∈ registry.byId, rejects module ∧ module.path = taken
  answered : ∀ module ∈ registry.byId, outcome = .ok module ↔ answers module
  loaded : (∀ module ∈ registry.byId, ¬rejects module ∧ ¬answers module) →
    ∃ module, outcome = .ok module ∧ module ∉ registry.byId ∧ module.simpleName = name

namespace Registry.Decides

variable {registry : Registry} {outcome : Except Error Module} {name : String} {path : Path}
  {module : Module} {rejects answers : Module → Prop}

theorem of_new (neither : ∀ other ∈ registry.byId, ¬rejects other ∧ ¬answers other)
    (fresh : module ∉ registry.byId) (named : module.simpleName = name) :
    registry.Decides (.ok module) name path rejects answers where
  rejected := by
    intro declared taken refused
    constructor
    · rintro ⟨⟩
    · rintro ⟨_, _, other, registered, rejected, _⟩
      exact absurd rejected (neither other registered).1
  answered := by
    intro other registered
    constructor
    · rintro ⟨⟩
      exact absurd registered fresh
    · intro answered
      exact absurd answered (neither other registered).2
  loaded := fun _ => ⟨module, rfl, fresh, named⟩

theorem of_existing (registered : module ∈ registry.byId)
    (accepted : ∀ other ∈ registry.byId, ¬rejects other)
    (only : ∀ other ∈ registry.byId, answers other ↔ other = module) :
    registry.Decides (.ok module) name path rejects answers where
  rejected := by
    intro declared taken refused
    constructor
    · rintro ⟨⟩
    · rintro ⟨_, _, other, otherRegistered, rejected, _⟩
      exact absurd rejected (accepted other otherRegistered)
  answered := by
    intro other otherRegistered
    rw [only other otherRegistered, Except.ok.injEq, eq_comm]
  loaded := fun neither =>
    absurd ((only module registered).mpr rfl) (neither module registered).2

theorem of_duplicate (registered : module ∈ registry.byId)
    (only : ∀ other ∈ registry.byId, rejects other ↔ other = module)
    (unanswered : ∀ other ∈ registry.byId, ¬answers other) :
    registry.Decides (.error (.duplicateSimpleName name module.path path)) name path
      rejects answers where
  rejected := by
    intro declared taken refused
    constructor
    · rintro ⟨⟩
      exact ⟨rfl, rfl, module, registered, (only module registered).mpr rfl, rfl⟩
    · rintro ⟨rfl, rfl, other, otherRegistered, rejected, rfl⟩
      rw [(only other otherRegistered).mp rejected]
  answered := by
    intro other otherRegistered
    constructor
    · rintro ⟨⟩
    · intro answered
      exact absurd answered (unanswered other otherRegistered)
  loaded := fun neither =>
    absurd ((only module registered).mpr rfl) (neither module registered).1

theorem congr {rejects' answers' : Module → Prop}
    (decides : registry.Decides outcome name path rejects answers)
    (same : ∀ module ∈ registry.byId,
      (rejects module ↔ rejects' module) ∧ (answers module ↔ answers' module)) :
    registry.Decides outcome name path rejects' answers' where
  rejected := by
    intro declared taken refused
    rw [decides.rejected]
    refine and_congr_right' (and_congr_right' (exists_congr fun module => ?_))
    exact and_congr_right fun member => and_congr_left' (same module member).1
  answered := fun module member =>
    (decides.answered module member).trans (same module member).2
  loaded := by
    intro neither
    apply decides.loaded
    intro module member
    rw [(same module member).1, (same module member).2]
    exact neither module member

end Registry.Decides

namespace Context

open CilLoader.Action

variable {system : FileSystem} {context : Context} {path canonical : Path}

theorem Settled.loadsExactly_of_registered {before : Context} (settled : context.Settled)
    {module : Module} {expected : Option String} (registered : module ∈ context.registry.byId)
    (atPath : module.path = path)
    (agrees : ∀ name ∈ expected, foldName name = foldName module.simpleName) :
    before.LoadsExactly (.ok module, context) path expected where
  found := by
    rintro _ ⟨⟩
    exact ⟨atPath, settled.wellFormed.get?_eq_some.mpr ⟨registered, rfl⟩,
      settled.wellFormed.getByName?_simpleName.mpr registered, agrees⟩
  failed := nofun

theorem loadsExactly_of_error {before : Context} {error : Error} {expected : Option String}
    (unchanged : context.registry = before.registry) :
    before.LoadsExactly (.error error, context) path expected where
  found := nofun
  failed := fun _ _ => unchanged

section

variable [ExecutableParser]

theorem Settled.loadsExactly_addModule (settled : context.Settled)
    (canonicalPath : system.canonicalize path = .ok canonical) (expected : Option String) :
    context.LoadsExactly (addModule path expected system context) canonical expected := by
  have settledAfter := settled.changes (changing_addModule path expected system context)
  rcases addModule_cases path expected system context with
    ⟨_, _, _, loaded⟩ | ⟨module, _, made, outcomes⟩
  · rw [loaded]
    exact loadsExactly_of_error rfl
  · rcases Module.atPath_eq_ok made with ⟨_, _, canonicalModule, agrees⟩
    have atPath : module.path = canonical :=
      Except.ok.inj (canonicalModule.symm.trans canonicalPath)
    rcases outcomes with
      ⟨_, _, loaded⟩ | ⟨existing, present, samePath, loaded⟩ | ⟨_, _, _, loaded⟩
    all_goals rw [loaded] at settledAfter ⊢
    · have registered : module ∈ Registry.insertById module context.registry.byId :=
        Registry.mem_insertById.mpr (.inl rfl)
      exact settledAfter.loadsExactly_of_registered registered atPath agrees
    · rcases settled.wellFormed.getByName?_eq_some.mp present with ⟨registered, sameName⟩
      rw [atPath, settled.path_eq_iff canonicalPath registered] at samePath
      exact settledAfter.loadsExactly_of_registered registered samePath fun name wanted =>
        (agrees name wanted).trans sameName.symm
    · exact loadsExactly_of_error rfl

theorem resolveModuleByPath_eq (canonicalPath : system.canonicalize path = .ok canonical) :
    resolveModuleByPath path system context =
      match context.registry.findByPath? canonical with
      | some module => (.ok module, context)
      | none => addModule canonical none system context := by
  simp only [resolveModuleByPath, bind_apply, fileSystem_apply, ofExcept_apply, canonicalPath,
    context_apply]
  cases context.registry.findByPath? canonical <;> rfl

theorem Settled.loadsExactly_resolveModuleByPath (settled : context.Settled)
    (canonicalPath : system.canonicalize path = .ok canonical) :
    context.LoadsExactly (resolveModuleByPath path system context) canonical none := by
  rw [resolveModuleByPath_eq canonicalPath]
  cases present : context.registry.findByPath? canonical with
  | some module =>
      rcases settled.wellFormed.findByPath?_eq_some.mp present with ⟨⟨registered, samePath⟩, _⟩
      rw [settled.path_eq_iff canonicalPath registered] at samePath
      exact settled.loadsExactly_of_registered registered samePath nofun
  | none =>
      exact settled.loadsExactly_addModule (FileSystem.canonicalize_canonical canonicalPath) none

/-! ## Readable assemblies -/

theorem exists_atPath_of_declaredName? (canonicalPath : system.canonicalize path = .ok canonical)
    {name : String} (declared : system.declaredName? canonical = .ok (some name))
    {expected : Option String} (agrees : ∀ wanted ∈ expected, foldName wanted = foldName name)
    (id : ModuleId) :
    ∃ module, Module.atPath system id path expected = .ok module ∧ module.simpleName = name := by
  rcases Error.bind_eq_ok.mp declared with ⟨image, read, declared⟩
  rcases Error.bind_eq_ok.mp declared with ⟨identity?, identified, named⟩
  cases identity? with
  | none => cases named
  | some identity =>
      cases named
      refine ⟨⟨id, identity, image⟩, ?_, rfl⟩
      rw [Module.atPath, canonicalPath, Error.ok_bind, read, Error.ok_bind, Module.ofImage,
        identified, Error.ok_bind]
      cases expected with
      | none => rfl
      | some wanted => exact if_pos (agrees wanted rfl)

/-- The registered module of the name decides. It is answered if it was loaded from the same path.
-/
theorem Settled.decides_addModule (settled : context.Settled)
    (canonicalPath : system.canonicalize path = .ok canonical) {name : String}
    (declared : system.declaredName? canonical = .ok (some name)) {expected : Option String}
    (agrees : ∀ wanted ∈ expected, foldName wanted = foldName name) :
    context.registry.Decides (addModule path expected system context).1 name canonical
      (fun module => foldName module.simpleName = foldName name ∧ module.path ≠ canonical)
      (fun module => foldName module.simpleName = foldName name ∧ module.path = canonical) := by
  have wellFormed := settled.wellFormed
  rcases exists_atPath_of_declaredName? canonicalPath declared agrees context.nextId with
    ⟨module, made, rfl⟩
  rcases Module.atPath_eq_ok made with ⟨number, _, canonicalModule, _⟩
  have atPath : module.path = canonical := Except.ok.inj (canonicalModule.symm.trans canonicalPath)
  rcases addModule_cases path expected system context with
    ⟨_, _, failed, _⟩ | ⟨_, _, madeAgain, outcomes⟩
  · cases made.symm.trans failed
  · cases made.symm.trans madeAgain
    rcases outcomes with
      ⟨_, absent, loaded⟩ | ⟨existing, present, samePath, loaded⟩ |
        ⟨existing, present, otherPath, loaded⟩
    all_goals rw [loaded]
    · have otherNames := wellFormed.getByName?_eq_none.mp absent
      refine .of_new ?_ (fun registered => settled.freshId number module registered rfl) rfl
      intro other registered
      exact ⟨fun rejected => otherNames other registered rejected.1,
        fun answered => otherNames other registered answered.1⟩
    · have registered := (wellFormed.getByName?_eq_some.mp present).1
      rw [atPath, settled.path_eq_iff canonicalPath registered] at samePath
      refine .of_existing registered (fun other member => ?_) fun other member => ?_
      · rintro ⟨sameName, otherPath⟩
        rw [(wellFormed.sameName_iff_eq present member).mp sameName] at otherPath
        exact otherPath samePath
      · rw [wellFormed.sameName_iff_eq present member, and_iff_left_iff_imp]
        rintro rfl
        exact samePath
    · have registered := (wellFormed.getByName?_eq_some.mp present).1
      have otherPath : existing.path ≠ canonical := by
        rw [Ne, ← settled.path_eq_iff canonicalPath registered, ← atPath, otherPath]
        exact Bool.false_ne_true
      rw [← atPath]
      refine .of_duplicate registered (fun other member => ?_) fun other member => ?_
      · rw [wellFormed.sameName_iff_eq present member, and_iff_left_iff_imp]
        rintro rfl
        rwa [atPath]
      · rintro ⟨sameName, samePath⟩
        rw [(wellFormed.sameName_iff_eq present member).mp sameName, atPath] at samePath
        exact otherPath samePath

/-- The module that was loaded from the path first is answered, whatever the file declares now. -/
theorem Settled.decides_resolveModuleByPath (settled : context.Settled)
    (canonicalPath : system.canonicalize path = .ok canonical) {name : String}
    (declared : system.declaredName? canonical = .ok (some name)) :
    context.registry.Decides (resolveModuleByPath path system context).1 name canonical
      (fun module => (foldName module.simpleName = foldName name ∧ module.path ≠ canonical) ∧
        ∀ other ∈ context.registry.byId, other.path ≠ canonical)
      (fun module => module.path = canonical ∧
        ∀ other ∈ context.registry.byId, other.path = canonical → module.id ≤ other.id) := by
  have atPath_iff {module : Module} (registered : module ∈ context.registry.byId) :=
    settled.path_eq_iff canonicalPath registered
  rw [resolveModuleByPath_eq canonicalPath]
  cases present : context.registry.findByPath? canonical with
  | some module =>
      rcases settled.wellFormed.findByPath?_eq_some.mp present with ⟨⟨registered, same⟩, least⟩
      have samePath := (atPath_iff registered).mp same
      refine .of_existing registered (fun other _ => ?_) fun other otherRegistered => ?_
      · rintro ⟨_, noneThere⟩
        exact noneThere module registered samePath
      · constructor
        · rintro ⟨otherPath, otherLeast⟩
          have found := settled.wellFormed.findByPath?_eq_some.mpr
            ⟨⟨otherRegistered, (atPath_iff otherRegistered).mpr otherPath⟩,
              fun third thirdRegistered thirdPath =>
                otherLeast third thirdRegistered ((atPath_iff thirdRegistered).mp thirdPath)⟩
          exact Option.some.inj (found.symm.trans present)
        · rintro rfl
          exact ⟨samePath, fun third thirdRegistered thirdPath =>
            least third thirdRegistered ((atPath_iff thirdRegistered).mpr thirdPath)⟩
  | none =>
      have noneThere : ∀ other ∈ context.registry.byId, other.path ≠ canonical := by
        intro other registered samePath
        have same := (atPath_iff registered).mpr samePath
        exact List.find?_eq_none.mp present other registered same
      have again := FileSystem.canonicalize_canonical canonicalPath
      have noneExpected : ∀ wanted ∈ (none : Option String), foldName wanted = foldName name := by
        rintro _ ⟨⟩
      have decides := settled.decides_addModule again declared noneExpected
      refine decides.congr fun module registered => ?_
      exact ⟨(and_iff_left noneThere).symm,
        iff_of_false (fun answered => noneThere module registered answered.2)
          fun answered => noneThere module registered answered.1⟩

/-! ## Files that stay as they are -/

theorem declaredName?_of_loadedFrom {module : Module} (source : module.LoadedFrom system) :
    system.declaredName? module.path = .ok (some module.simpleName) := by
  have identity : module.image.metadata.identity? = .ok (some module.identity) := source.identity
  rw [FileSystem.declaredName?, source.image, Error.ok_bind, identity]
  rfl

variable {name : String}

theorem Sound.sameName_of_path (sound : context.Sound system)
    (declared : system.declaredName? canonical = .ok (some name)) {module : Module}
    (registered : module ∈ context.registry.byId) (samePath : module.path = canonical) :
    foldName module.simpleName = foldName name := by
  have current := declaredName?_of_loadedFrom (sound.loaded module registered)
  rw [samePath, declared] at current
  rw [Option.some.inj (Except.ok.inj current)]

/-- What is registered under the declared name and what is registered from the path are one. -/
theorem Sound.eq_of_sameName_of_path (sound : context.Sound system)
    (declared : system.declaredName? canonical = .ok (some name)) {named placed : Module}
    (namedRegistered : named ∈ context.registry.byId)
    (sameName : foldName named.simpleName = foldName name)
    (placedRegistered : placed ∈ context.registry.byId) (samePath : placed.path = canonical) :
    named = placed := by
  have placedName := sound.sameName_of_path declared placedRegistered samePath
  exact sound.wellFormed.eq_of_sameName namedRegistered placedRegistered
    (sameName.trans placedName.symm)

theorem Sound.decides_addModule (sound : context.Sound system)
    (canonicalPath : system.canonicalize path = .ok canonical)
    (declared : system.declaredName? canonical = .ok (some name)) {expected : Option String}
    (agrees : ∀ wanted ∈ expected, foldName wanted = foldName name) :
    context.registry.Decides (addModule path expected system context).1 name canonical
      (fun module => foldName module.simpleName = foldName name ∧ module.path ≠ canonical)
      (fun module => module.path = canonical) := by
  have decides := sound.settled.decides_addModule canonicalPath declared agrees
  refine decides.congr fun module registered => ⟨Iff.rfl, ?_⟩
  exact and_iff_right_of_imp (sound.sameName_of_path declared registered)

theorem Sound.decides_resolveModuleByPath (sound : context.Sound system)
    (canonicalPath : system.canonicalize path = .ok canonical)
    (declared : system.declaredName? canonical = .ok (some name)) :
    context.registry.Decides (resolveModuleByPath path system context).1 name canonical
      (fun module => foldName module.simpleName = foldName name ∧ module.path ≠ canonical)
      (fun module => module.path = canonical) := by
  have decides := sound.settled.decides_resolveModuleByPath canonicalPath declared
  refine decides.congr fun module registered => ⟨?_, ?_⟩
  · apply and_iff_left_of_imp
    intro elsewhere other otherRegistered otherPath
    have same := sound.eq_of_sameName_of_path declared registered elsewhere.1 otherRegistered
      otherPath
    rw [same] at elsewhere
    exact elsewhere.2 otherPath
  · apply and_iff_left_of_imp
    intro samePath other otherRegistered otherPath
    have sameName := sound.sameName_of_path declared registered samePath
    have same := sound.eq_of_sameName_of_path declared registered sameName otherRegistered
      otherPath
    exact Nat.le_of_eq (congrArg Module.id same)

/-- What loading by path comes to, over files that may have changed since the registered modules
were loaded, and over files that have not. -/
theorem loads_by_path (evolved : context.Evolved)
    (canonicalPath : system.canonicalize path = .ok canonical) (expected : Option String) :
    let registry := context.registry
    let added := addModule path expected system context
    let resolved := resolveModuleByPath path system context
    context.LoadsExactly added canonical expected ∧
    context.LoadsExactly resolved canonical none ∧
    ∀ name, system.declaredName? canonical = .ok (some name) →
      let fits := ∀ wanted ∈ expected, foldName wanted = foldName name
      let namedElsewhere := fun module : Module =>
        foldName module.simpleName = foldName name ∧ module.path ≠ canonical
      (fits → registry.Decides added.1 name canonical namedElsewhere
        fun module => foldName module.simpleName = foldName name ∧ module.path = canonical) ∧
      registry.Decides resolved.1 name canonical
        (fun module => namedElsewhere module ∧ ∀ other ∈ registry.byId, other.path ≠ canonical)
        (fun module => module.path = canonical ∧
          ∀ other ∈ registry.byId, other.path = canonical → module.id ≤ other.id) ∧
      (Reachable system context →
        (fits → registry.Decides added.1 name canonical namedElsewhere
          fun module => module.path = canonical) ∧
        registry.Decides resolved.1 name canonical namedElsewhere
          fun module => module.path = canonical) := by
  intro registry added resolved
  have settled := evolved.settled
  refine ⟨settled.loadsExactly_addModule canonicalPath expected,
    settled.loadsExactly_resolveModuleByPath canonicalPath, ?_⟩
  intro name declared fits namedElsewhere
  refine ⟨settled.decides_addModule canonicalPath declared,
    settled.decides_resolveModuleByPath canonicalPath declared, ?_⟩
  intro reachable
  have sound := reachable.sound
  exact ⟨sound.decides_addModule canonicalPath declared,
    sound.decides_resolveModuleByPath canonicalPath declared⟩

end

open scoped Container

def earlierFiles : FileSystem where
  files := [(["A.dll".toList], selfSpecified), (["B.dll".toList], dividedImage)]
  directories := []

/-- Both files now hold the assembly with the name `A,B`. -/
def laterFiles : FileSystem :=
  earlierFiles.write ["A.dll".toList] dividedImage

def bothLoaded : Context :=
  dividedStart.afterAll earlierFiles [.addModule ⟨"/A.dll"⟩ none, .addModule ⟨"/B.dll"⟩ none]

theorem reachable_bothLoaded : Reachable earlierFiles bothLoaded :=
  ⟨dividedStart.config, dividedStart, _, rfl, rfl⟩

theorem exists_module_bothLoaded {name : String} {place : Path}
    (listed : (name, place) ∈ [("A", Path.mk "/A.dll"), ("A,B", ⟨"/B.dll"⟩)]) :
    ∃ module ∈ bothLoaded.registry.byId, module.simpleName = name ∧ module.path = place := by
  have sources : bothLoaded.registry.byId.map (fun module => (module.simpleName, module.path)) =
      [("A", ⟨"/A.dll"⟩), ("A,B", ⟨"/B.dll"⟩)] := by
    decide +kernel
  rw [← sources] at listed
  rcases List.mem_map.mp listed with ⟨module, registered, same⟩
  exact ⟨module, registered, congrArg Prod.fst same, congrArg Prod.snd same⟩

theorem declaredName?_laterFiles :
    laterFiles.declaredName? ⟨"/A.dll"⟩ = .ok (some "A,B") := by
  decide +kernel

/-- While the files stay, adding and resolving both answer the module at the path. Once the file has
been overwritten, adding it is rejected because of the other file, and resolving answers as before.
-/
theorem loads_by_path_overwritten :
    (∃ module ∈ bothLoaded.registry.byId, module.simpleName = "A" ∧
      (addModule ⟨"/./A.dll"⟩ (some "a") earlierFiles bothLoaded).1 = .ok module ∧
      (resolveModuleByPath ⟨"/./A.dll"⟩ earlierFiles bothLoaded).1 = .ok module ∧
      (resolveModuleByPath ⟨"/./A.dll"⟩ laterFiles bothLoaded).1 = .ok module) ∧
    (addModule ⟨"/./A.dll"⟩ (some "a,b") laterFiles bothLoaded).1 =
      .error (.duplicateSimpleName "A,B" ⟨"/B.dll"⟩ ⟨"/A.dll"⟩) := by
  have evolved := reachable_bothLoaded.evolved
  have before : earlierFiles.canonicalize ⟨"/./A.dll"⟩ = .ok ⟨"/A.dll"⟩ := by decide +kernel
  have after : laterFiles.canonicalize ⟨"/./A.dll"⟩ = .ok ⟨"/A.dll"⟩ := by decide +kernel
  have declaredBefore : earlierFiles.declaredName? ⟨"/A.dll"⟩ = .ok (some "A") := by
    decide +kernel
  rcases loads_by_path evolved before (some "a") with ⟨_, _, decidesBefore⟩
  rcases loads_by_path evolved after (some "a,b") with ⟨_, _, decidesAfter⟩
  rcases (decidesBefore "A" declaredBefore).2.2 reachable_bothLoaded with ⟨added, resolved⟩
  rcases decidesAfter "A,B" declaredName?_laterFiles with ⟨addedAfter, resolvedAfter, _⟩
  constructor
  · rcases exists_module_bothLoaded (by decide : ("A", Path.mk "/A.dll") ∈ _) with
      ⟨module, registered, named, atPath⟩
    refine ⟨module, registered, named, ?_, (resolved.answered module registered).mpr atPath, ?_⟩
    · exact ((added (by decide +kernel)).answered module registered).mpr atPath
    · refine (resolvedAfter.answered module registered).mpr ⟨atPath, ?_⟩
      intro other otherRegistered otherPath
      have samePath : module.path.same other.path = true := by
        rw [atPath, otherPath]
        exact Path.same_self _
      have same := reachable_bothLoaded.sound.eq_of_samePath registered otherRegistered samePath
      exact Nat.le_of_eq (congrArg Module.id same)
  · rcases exists_module_bothLoaded (by decide : ("A,B", Path.mk "/B.dll") ∈ _) with
      ⟨module, registered, named, atPath⟩
    refine ((addedAfter (by decide +kernel)).rejected _ _ _).mpr
      ⟨rfl, rfl, module, registered, ⟨congrArg foldName named, ?_⟩, atPath⟩
    rw [atPath]
    decide

/-- Resolving does not reject a file whose assembly is registered from another one by now. -/
theorem not_resolveModuleByPath_rejects :
    bothLoaded.Evolved ∧ laterFiles.canonicalize ⟨"/A.dll"⟩ = .ok ⟨"/A.dll"⟩ ∧
      laterFiles.declaredName? ⟨"/A.dll"⟩ = .ok (some "A,B") ∧
      (∃ module ∈ bothLoaded.registry.byId,
        foldName module.simpleName = foldName "A,B" ∧ module.path ≠ ⟨"/A.dll"⟩) ∧
      ∀ declared taken refused,
        (resolveModuleByPath ⟨"/A.dll"⟩ laterFiles bothLoaded).1 ≠
          .error (.duplicateSimpleName declared taken refused) := by
  have canonicalPath : laterFiles.canonicalize ⟨"/A.dll"⟩ = .ok ⟨"/A.dll"⟩ := by decide +kernel
  refine ⟨reachable_bothLoaded.evolved, canonicalPath, declaredName?_laterFiles, ?_, ?_⟩
  · rcases exists_module_bothLoaded (by decide : ("A,B", Path.mk "/B.dll") ∈ _) with
      ⟨module, registered, named, atPath⟩
    refine ⟨module, registered, congrArg foldName named, ?_⟩
    rw [atPath]
    decide
  · rcases exists_module_bothLoaded (by decide : ("A", Path.mk "/A.dll") ∈ _) with
      ⟨module, registered, _, atPath⟩
    intro declared taken refused
    rw [resolveModuleByPath_eq canonicalPath]
    cases present : bothLoaded.registry.findByPath? ⟨"/A.dll"⟩ with
    | some found => exact nofun
    | none =>
        have unmatched := List.find?_eq_none.mp present module registered
        rw [atPath] at unmatched
        exact absurd (Path.same_self _) unmatched

end Context

end CilLoader
