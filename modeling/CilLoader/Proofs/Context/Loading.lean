import CilLoader.Context.Loading
import CilLoader.Proofs.Registry.Indexes

/-!
# What loading a module comes to

The files alone decide which module a path leads to. Loading it does no more to a context than to
note the paths it opens, to use up a number, and to register the module with its symbols.
-/

namespace CilLoader

theorem Module.ofImage_eq_ok {id : ModuleId} {image : Image} {expected : Option String}
    {module : Module} (made : ofImage id image expected = .ok module) :
    module.id = id ∧ module.image = image ∧
      image.metadata.identity? = .ok (some module.identity) ∧
      ∀ name ∈ expected, foldName name = foldName module.simpleName := by
  rcases Error.bind_eq_ok.mp made with ⟨declared, identity, made⟩
  cases declared with
  | none => cases made
  | some declared =>
      cases expected with
      | none =>
          cases made
          exact ⟨rfl, rfl, identity, by simp⟩
      | some name =>
          simp only at made
          split at made
          · rename_i agrees
            cases made
            refine ⟨rfl, rfl, identity, ?_⟩
            rintro _ ⟨rfl⟩
            exact agrees
          · cases made

def Module.atPath [ExecutableParser] (system : FileSystem) (id : ModuleId) (path : Path)
    (expected : Option String) : Except Error Module := do
  let path ← system.canonicalize path
  let image ← system.read path >>= Image.ofBytes path
  Module.ofImage id image expected

namespace Context

def withOpened (context : Context) (paths : List Path) : Context :=
  { context with opened := paths ++ context.opened }

def withNumberUsed (context : Context) : Context :=
  { context with nextId := context.nextId + 1 }

/-- The context in which a module has been registered and its symbols have been looked for. -/
def withModule (context : Context) (module : Module) (found : Option Symbols) : Context :=
  { context with
    registry := context.registry.insert module
    symbols := context.symbols ++ [(module.id, found)] }

end Context

namespace Action

theorem makeModule_eq (image : Image) (expected : Option String) (system : FileSystem)
    (context : Context) :
    makeModule image expected system context =
      match Module.ofImage context.nextId image expected with
      | .ok module => (.ok module, context.withNumberUsed)
      | .error error => (.error error, context) := by
  simp only [makeModule, bind_apply, context_apply, ofExcept_apply]
  cases Module.ofImage context.nextId image expected <;> rfl

theorem commit_eq (module : Module) (system : FileSystem) (context : Context) :
    commit module system context =
      ((context.registry.commit module).1,
        { context with registry := (context.registry.commit module).2 }) := rfl

variable [ExecutableParser]

theorem openImage_eq (path : Path) (system : FileSystem) (context : Context) :
    openImage path system context =
      (system.read path >>= Image.ofBytes path, context.withOpened [path]) := by
  simp only [openImage, bind_apply, modify_apply, fileSystem_apply, ofExcept_apply]
  cases system.read path <;> rfl

theorem portablePdbFor_eq (image : Path) (system : FileSystem) (context : Context) :
    ∃ found paths,
      portablePdbFor image system context = (.ok found, context.withOpened paths) := by
  simp only [portablePdbFor]
  split
  · exact ⟨none, [], rfl⟩
  · simp only [bind_apply, openImage_eq]
    cases system.read (PortablePdb.pathFor image) >>= Image.ofBytes (PortablePdb.pathFor image) with
    | error _ => exact ⟨none, _, rfl⟩
    | ok opened =>
        simp only [ofExcept_apply]
        cases PortablePdb.ofMetadata opened.metadata with
        | error _ => exact ⟨none, _, rfl⟩
        | ok pdb => exact ⟨some pdb.symbols, _, rfl⟩

theorem symbolsFor_eq (image : Path) (system : FileSystem) (context : Context) :
    ∃ found paths, symbolsFor image system context = (.ok found, context.withOpened paths) := by
  simp only [symbolsFor, bind_apply, context_apply]
  split
  · cases context.config.symbolSource with
    | portablePdb => exact portablePdbFor_eq image system context
    | supplied symbols => exact ⟨symbols image, [], rfl⟩
  · exact ⟨none, [], rfl⟩

theorem attachSymbols_eq (module : Module) (system : FileSystem) (context : Context) :
    ∃ found paths,
      attachSymbols module system context =
        (.ok (), { context.withOpened paths with
          symbols := context.symbols ++ [(module.id, found)] }) := by
  rcases symbolsFor_eq module.path system context with ⟨found, paths, looked⟩
  refine ⟨found, paths, ?_⟩
  simp only [attachSymbols, bind_apply, looked]
  rfl

/-- What is left to do once a module has been made. -/
theorem register_eq (module : Module) (system : FileSystem) (context : Context) :
    ∃ found paths,
      (do
        match ← commit module with
        | .inserted module =>
          attachSymbols module
          return module
        | .existing module => return module : Action Module) system context =
        match (context.registry.commit module).1 with
        | .ok (.inserted module) => (.ok module, (context.withOpened paths).withModule module found)
        | .ok (.existing existing) => (.ok existing, context)
        | .error error => (.error error, context) := by
  rcases context.registry.commit_cases module with
    ⟨_, outcome⟩ | ⟨existing, _, _, outcome⟩ | ⟨existing, _, _, outcome⟩
  · let registered := { context with registry := context.registry.insert module }
    rcases attachSymbols_eq module system registered with ⟨found, paths, attached⟩
    refine ⟨found, paths, ?_⟩
    simp only [bind_apply, commit_eq, outcome]
    rw [attached]
    rfl
  · exact ⟨none, [], by simp only [bind_apply, commit_eq, outcome, pure_apply]⟩
  · exact ⟨none, [], by simp only [bind_apply, commit_eq, outcome]⟩

/-- Loading a module, with everything that it does to the context. -/
theorem addModule_eq (path : Path) (expected : Option String) (system : FileSystem)
    (context : Context) :
    ∃ found opened more,
      addModule path expected system context =
        match Module.atPath system context.nextId path expected with
        | .error error => (.error error, context.withOpened opened)
        | .ok module =>
          let numbered := (context.withOpened opened).withNumberUsed
          match (context.registry.commit module).1 with
          | .ok (.inserted module) =>
            (.ok module, (numbered.withOpened more).withModule module found)
          | .ok (.existing existing) => (.ok existing, numbered)
          | .error error => (.error error, numbered) := by
  simp only [addModule, bind_apply, fileSystem_apply, ofExcept_apply]
  cases canonical : system.canonicalize path with
  | error error =>
      refine ⟨none, [], [], ?_⟩
      rw [Module.atPath, canonical, Error.error_bind]
      rfl
  | ok canonicalPath =>
      simp only [openImage_eq]
      cases loaded : system.read canonicalPath >>= Image.ofBytes canonicalPath with
      | error error =>
          refine ⟨none, [canonicalPath], [], ?_⟩
          rw [Module.atPath, canonical, Error.ok_bind, loaded, Error.error_bind]
      | ok image =>
          rw [Module.atPath, canonical, Error.ok_bind, loaded, Error.ok_bind]
          have made := makeModule_eq image expected system (context.withOpened [canonicalPath])
          have sameId : (context.withOpened [canonicalPath]).nextId = context.nextId := rfl
          rw [sameId] at made
          cases result : Module.ofImage context.nextId image expected with
          | error error =>
              refine ⟨none, [canonicalPath], [], ?_⟩
              rw [result] at made
              simp only [made]
          | ok module =>
              rcases register_eq module system
                (context.withOpened [canonicalPath]).withNumberUsed with
                  ⟨found, more, registered⟩
              refine ⟨found, [canonicalPath], more, ?_⟩
              rw [result] at made
              simp only [made]
              rw [bind_apply] at registered
              exact registered

/-- All that loading a module can come to. -/
theorem addModule_cases (path : Path) (expected : Option String) (system : FileSystem)
    (context : Context) :
    (∃ error opened, Module.atPath system context.nextId path expected = .error error ∧
      addModule path expected system context = (.error error, context.withOpened opened)) ∨
    ∃ module opened, Module.atPath system context.nextId path expected = .ok module ∧
      ((∃ found, context.registry.getByName? module.simpleName = none ∧
        addModule path expected system context =
          (.ok module, (context.withOpened opened).withNumberUsed.withModule module found)) ∨
      (∃ existing, context.registry.getByName? module.simpleName = some existing ∧
        existing.path.same module.path = true ∧
        addModule path expected system context =
          (.ok existing, (context.withOpened opened).withNumberUsed)) ∨
      ∃ existing, context.registry.getByName? module.simpleName = some existing ∧
        existing.path.same module.path = false ∧
        addModule path expected system context =
          (.error (.duplicateSimpleName module.simpleName existing.path module.path),
            (context.withOpened opened).withNumberUsed)) := by
  rcases addModule_eq path expected system context with ⟨found, opened, more, loaded⟩
  cases made : Module.atPath system context.nextId path expected with
  | error error => exact .inl ⟨error, opened, rfl, by rw [loaded, made]⟩
  | ok module =>
      rw [made] at loaded
      dsimp only at loaded
      rcases context.registry.commit_cases module with
        ⟨freshName, outcome⟩ | ⟨existing, present, samePath, outcome⟩ |
          ⟨existing, present, otherPath, outcome⟩
      · rw [outcome] at loaded
        exact .inr ⟨module, more ++ opened, rfl, .inl ⟨found, freshName, by
          rw [loaded]; simp [Context.withOpened, Context.withNumberUsed]⟩⟩
      · rw [outcome] at loaded
        exact .inr ⟨module, opened, rfl, .inr (.inl ⟨existing, present, samePath, loaded⟩)⟩
      · rw [outcome] at loaded
        exact .inr ⟨module, opened, rfl, .inr (.inr ⟨existing, present, otherPath, loaded⟩)⟩

end Action

end CilLoader
