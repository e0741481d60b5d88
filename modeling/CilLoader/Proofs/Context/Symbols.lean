import CilLoader.Executable.Container
import CilLoader.Proofs.Context.Agreement

/-!
# Symbols have no influence

Whether symbols are looked for, where, and what comes of it shows in the symbols that a context
holds and in the paths it has opened. It shows in no answer and in no module that is registered.
-/

namespace CilLoader

namespace Context

/-- The context without all that has to do with symbols. -/
def forgetSymbols (context : Context) : Context :=
  { context with
    config := { context.config with withSymbols := false, symbolSource := .portablePdb }
    symbols := []
    opened := [] }

def SameButSymbols (left right : Context) : Prop :=
  left.forgetSymbols = right.forgetSymbols

variable {left right : Context}

theorem SameButSymbols.congr (alike : left.SameButSymbols right) (look : Context → α)
    (apart : ∀ context : Context, look context.forgetSymbols = look context) :
    look left = look right := by
  rw [← apart left, ← apart right]
  exact congrArg look alike

/-- A change that has nothing to do with symbols happens to both contexts in the same way. -/
theorem SameButSymbols.change (alike : left.SameButSymbols right) (change : Context → Context)
    (apart : ∀ context : Context,
      (change context.forgetSymbols).forgetSymbols = (change context).forgetSymbols) :
    (change left).SameButSymbols (change right) :=
  alike.congr (fun context => (change context).forgetSymbols) apart

theorem agreement_sameButSymbols : Agreement SameButSymbols where
  registry := fun alike => alike.congr registry fun _ => rfl
  nextId := fun alike => alike.congr nextId fun _ => rfl
  system := fun alike => alike.congr system fun _ => rfl
  inputs := fun alike => alike.congr (·.config.inputs) fun _ => rfl
  references := fun alike => alike.congr (·.config.references) fun _ => rfl
  interfaceSource := fun alike => alike.congr (·.config.interfaceSource) fun _ => rfl
  opened := fun alike _ _ => alike
  numbered := fun alike => alike.change withNumberUsed fun _ => rfl
  registered := fun alike module found _ =>
    alike.change (fun context => context.withModule module found) fun _ => rfl

theorem arrayClassAgreement_sameButSymbols : ArrayClassAgreement SameButSymbols where
  arrayClass := fun alike => alike.congr arrayClass fun _ => rfl
  remembered := fun alike type =>
    alike.change (fun context => context.withArrayClass type) fun _ => rfl

section

variable [ExecutableParser]

theorem preserves_perform_sameButSymbols (call : Call) :
    call.perform.Preserves SameButSymbols := by
  apply call.preserves_perform agreement_sameButSymbols
  · intro module _
    apply Action.preserves_bindSystemModule agreement_sameButSymbols
    intro left right alike module types
    exact alike.change (fun context => context.withSystem module types) fun _ => rfl
  · intro type _
    exact Action.preserves_runtimeInterfaces agreement_sameButSymbols
      arrayClassAgreement_sameButSymbols type

/-! ## Runs -/

/-- What can be seen of a run: every answer, and the modules that are registered after it. -/
def transcript (system : FileSystem) (context : Context) :
    List Call → List (Except Error Answer × List Module)
  | [] => []
  | call :: calls =>
    let after := context.after system call
    ((call.perform system context).1, after.registry.modules) :: after.transcript system calls

theorem SameButSymbols.transcript (alike : left.SameButSymbols right)
    (system : FileSystem) (calls : List Call) :
    left.transcript system calls = right.transcript system calls := by
  induction calls generalizing left right with
  | nil => rfl
  | cons call calls induction =>
      rcases preserves_perform_sameButSymbols call system left right alike with
        ⟨sameAnswer, alikeAfter⟩
      have alikeAfter : (left.after system call).SameButSymbols (right.after system call) :=
        alikeAfter
      rw [Context.transcript, Context.transcript, sameAnswer, induction alikeAfter,
        agreement_sameButSymbols.registry alikeAfter]

theorem transcript_withSymbols {config : Configuration} {looking notLooking : Context}
    (freshLooking : ofConfiguration { config with
      withSymbols := true, symbolSource := .portablePdb } = .ok looking)
    (freshNotLooking : ofConfiguration { config with withSymbols := false } = .ok notLooking)
    (system : FileSystem) (calls : List Call) :
    looking.transcript system calls = notLooking.transcript system calls := by
  have alike : looking.SameButSymbols notLooking := by
    rw [ofConfiguration] at freshLooking freshNotLooking
    cases layout : config.layout with
    | none => simp [layout] at freshLooking
    | some fieldLayout =>
        simp only [layout] at freshLooking freshNotLooking
        cases freshLooking
        cases freshNotLooking
        rfl
  exact alike.transcript system calls

end

open scoped Container

/-- Debug symbols that describe no methods. -/
def emptySymbols : Bytes := #[
  -- the root
  0x42, 0x53, 0x4A, 0x42, 1, 0, 1, 0, 0, 0, 0, 0, 0, 0, 0, 0, 0, 0, 2, 0,
  -- the headers of the streams
  0x30, 0, 0, 0, 0x20, 0, 0, 0, 0x23, 0x50, 0x64, 0x62, 0, 0, 0, 0,
  0x50, 0, 0, 0, 0x18, 0, 0, 0, 0x23, 0x7E, 0, 0] ++ Array.replicate 56 0

/-- An assembly with symbols beside it, and its copy with something else there. -/
def symbolFiles : FileSystem where
  files := [(["A.dll".toList], selfSpecified), (["A.pdb".toList], emptySymbols),
    (["B.dll".toList], selfSpecified), (["B.pdb".toList], selfSpecified)]
  directories := []

def symbolStart (withSymbols : Bool) : Context :=
  { twinStart with config := { twinConfiguration with withSymbols } }

theorem transcript_withSymbols_found :
    ofConfiguration { twinConfiguration with
      withSymbols := true, symbolSource := .portablePdb } = .ok (symbolStart true) ∧
    ofConfiguration { twinConfiguration with withSymbols := false } = .ok (symbolStart false) ∧
    let calls := [.addModule ⟨"/A.dll"⟩ none, .addModule ⟨"/B.dll"⟩ none]
    let found := fun withSymbols path =>
      (((symbolStart withSymbols).after symbolFiles (.addModule path none)).symbolsOf? 1).isSome
    found true ⟨"/A.dll"⟩ = true ∧ found true ⟨"/B.dll"⟩ = false ∧ found false ⟨"/A.dll"⟩ = false ∧
        (symbolStart true).transcript symbolFiles calls =
          (symbolStart false).transcript symbolFiles calls :=
  ⟨rfl, rfl, by decide +kernel, by decide +kernel, by decide +kernel,
    @transcript_withSymbols _ twinConfiguration _ _ rfl rfl symbolFiles _⟩

end Context

end CilLoader
