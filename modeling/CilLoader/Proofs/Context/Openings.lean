import CilLoader.Proofs.Context.Changes

/-!
# Which files are opened

A context notes the paths that it opens. Loading a module opens the file at its path, and once the
module has been registered perhaps the one beside it that may hold its symbols. It opens no other.
-/

namespace CilLoader

namespace Image

theorem path_of_ofBytes [ExecutableParser] {path : Path} {data : Bytes} {image : Image}
    (made : ofBytes path data = .ok image) : image.path = path := by
  rcases Error.bind_eq_ok.mp made with ⟨file, _, made⟩
  rcases Error.bind_eq_ok.mp made with ⟨metadata, _, ⟨rfl⟩⟩
  rfl

end Image

namespace Action

variable {system : FileSystem} {allowed : Path → Prop}

/-- Whatever comes of the action, it opens allowed paths only. -/
def Opening (system : FileSystem) (allowed : Path → Prop) (action : Action α) : Prop :=
  ∀ context, ∀ path ∈ (action system context).2.opened, path ∈ context.opened ∨ allowed path

theorem opening_pure (value : α) : Opening system allowed (pure value : Action α) :=
  fun _ _ member => .inl member

theorem opening_fail (error : Error) : Opening system allowed (fail error : Action α) :=
  fun _ _ member => .inl member

theorem opening_ofExcept (result : Except Error α) : Opening system allowed (ofExcept result) := by
  cases result with
  | error error => exact opening_fail error
  | ok value => exact opening_pure value

theorem opening_modify {change : Context → Context}
    (kept : ∀ context, (change context).opened = context.opened) :
    Opening system allowed (modify change) := by
  intro context path member
  rw [modify_apply, kept] at member
  exact .inl member

/-- What the second action opens may depend on what the first one has answered. -/
theorem Opening.bind {first : Action α} {next : α → Action β}
    (opening : Opening system allowed first)
    (openingNext : ∀ value context after, first system context = (.ok value, after) →
      Opening system allowed (next value)) : Opening system allowed (first >>= next) := by
  intro context path member
  rw [bind_apply] at member
  cases outcome : first system context with
  | mk result middle =>
      have before := opening context path
      rw [outcome] at before member
      cases result with
      | error error => exact before member
      | ok value =>
          rcases openingNext value context middle outcome middle path member with
            noted | allowedPath
          · exact before noted
          · exact .inr allowedPath

theorem opening_makeModule (image : Image) (expected : Option String) :
    Opening system allowed (makeModule image expected) := by
  intro context path member
  rw [makeModule_eq] at member
  split at member
  · exact .inl member
  · exact .inl member

theorem opening_commit (module : Module) : Opening system allowed (commit module) :=
  fun _ _ member => .inl member

variable [ExecutableParser]

theorem opening_openImage {path : Path} (isAllowed : allowed path) :
    Opening system allowed (openImage path) := by
  intro context opened member
  rw [openImage_eq] at member
  rcases List.mem_cons.mp member with rfl | member
  · exact .inr isAllowed
  · exact .inl member

theorem opening_portablePdbFor {image : Path} (isAllowed : allowed (PortablePdb.pathFor image)) :
    Opening system allowed (portablePdbFor image) := by
  intro context path member
  simp only [portablePdbFor] at member
  split at member
  · exact .inl member
  · have opening : Opening system allowed
        (openImage (PortablePdb.pathFor image) >>= fun opened =>
          ofExcept (PortablePdb.ofMetadata opened.metadata)) :=
      (opening_openImage isAllowed).bind fun _ _ _ _ => opening_ofExcept _
    split at member
    · rename_i outcome
      exact opening context path (by rw [outcome]; exact member)
    · rename_i outcome
      exact opening context path (by rw [outcome]; exact member)

theorem opening_attachSymbols {module : Module}
    (isAllowed : allowed (PortablePdb.pathFor module.path)) :
    Opening system allowed (attachSymbols module) := by
  have opening : Opening system allowed (symbolsFor module.path) := by
    refine Opening.bind (fun _ _ member => .inl member) fun context _ _ _ => ?_
    dsimp only
    split
    · split
      · exact opening_portablePdbFor isAllowed
      · exact opening_pure _
    · exact opening_pure _
  exact opening.bind fun _ _ _ _ => opening_modify fun _ => rfl

/-- Loading opens the file at the path and at most the one that may hold its symbols. -/
theorem opening_addModule (path : Path) (expected : Option String) :
    Opening system
      (fun opened => ∃ canonical, system.canonicalize path = .ok canonical ∧
        (opened = canonical ∨ opened = PortablePdb.pathFor canonical))
      (addModule path expected) := by
  refine Opening.bind (fun _ _ member => .inl member) ?_
  rintro _ _ _ ⟨rfl⟩
  apply (opening_ofExcept _).bind
  intro canonicalPath _ _ canonical
  rw [ofExcept_apply, Prod.mk.injEq] at canonical
  apply (opening_openImage ⟨canonicalPath, canonical.1, .inl rfl⟩).bind
  intro image _ _ opened
  rw [openImage_eq, Prod.mk.injEq] at opened
  rcases Error.bind_eq_ok.mp opened.1 with ⟨data, _, made⟩
  have imagePath : image.path = canonicalPath := Image.path_of_ofBytes made
  apply (opening_makeModule image expected).bind
  intro module context _ made
  have modulePath : module.path = canonicalPath := by
    rw [makeModule_eq] at made
    cases result : Module.ofImage context.nextId image expected with
    | error error => simp [result] at made
    | ok other =>
        simp only [result, Prod.mk.injEq, Except.ok.injEq] at made
        rw [← made.1, Module.path, (Module.ofImage_eq_ok result).2.1, imagePath]
  apply (opening_commit module).bind
  intro committed context _ outcome
  rw [commit_eq] at outcome
  rcases context.registry.commit_cases module with
    ⟨_, inserted⟩ | ⟨existing, _, _, existed⟩ | ⟨existing, _, _, rejected⟩
  · simp only [inserted, Prod.mk.injEq, Except.ok.injEq] at outcome
    rw [← outcome.1]
    have isAllowed : PortablePdb.pathFor module.path = PortablePdb.pathFor canonicalPath := by
      rw [modulePath]
    exact (opening_attachSymbols ⟨canonicalPath, canonical.1, .inr isAllowed⟩).bind
      fun _ _ _ _ => opening_pure _
  · simp only [existed, Prod.mk.injEq, Except.ok.injEq] at outcome
    rw [← outcome.1]
    exact opening_pure _
  · simp [rejected] at outcome

end Action

end CilLoader
