import CilLoader.Context.Configuration
import CilLoader.Module.Registry
import CilLoader.WellKnownType

/-!
# Contexts

A context holds the modules loaded so far and knows where to find more. What it is asked can make it
load modules, and they stay loaded even if the answer is an error. So an action on a context answers
a result and the context afterwards, in either case.
-/

namespace CilLoader

/-- The system module and its well-known types by rank. -/
structure SystemBinding where
  module : Module
  types : List TypeDefinition
deriving DecidableEq, Repr

/-- Types that have been tagged as well-known, each with its tag. -/
abbrev Tags := List (TypeDefinition × WellKnownType)

structure Context where
  config : Configuration
  layout : TypeDesc → Except Error FieldLayout
  registry : Registry
  nextId : ModuleId
  /-- The modules whose symbols have been looked for, with what was found. -/
  symbols : List (ModuleId × Option Symbols)
  system : Option SystemBinding
  tags : Tags := []
  /-- The generic array class, once it has been looked for and found. -/
  arrayClass : Option TypeDefinition := none
  /-- The paths that have been opened, the last one first. -/
  opened : List Path

namespace Context

/-- A context in which nothing is loaded. A field layout must have been configured. -/
def ofConfiguration (config : Configuration) : Except Error Context :=
  match config.layout with
  | none => .error (.configuration .layoutMissing)
  | some layout =>
    .ok {
      config
      layout
      registry := .empty
      nextId := 1
      symbols := []
      system := none
      tags := []
      arrayClass := none
      opened := [] }

end Context

/-- An action on a context, given the files there are. -/
def Action (α : Type) : Type :=
  FileSystem → Context → Except Error α × Context

namespace Action

def succeed (value : α) : Action α :=
  fun _ context => (.ok value, context)

def fail (error : Error) : Action α :=
  fun _ context => (.error error, context)

/-- Runs an action, then one that depends on its answer. What a failed action has loaded stays. -/
def andThen (first : Action α) (next : α → Action β) : Action β :=
  fun system context =>
    match first system context with
    | (.ok value, context) => next value system context
    | (.error error, context) => (.error error, context)

instance : Monad Action where
  pure := succeed
  bind := andThen

def ofExcept : Except Error α → Action α
  | .ok value => succeed value
  | .error error => fail error

def context : Action Context :=
  fun _ context => (.ok context, context)

def fileSystem : Action FileSystem :=
  fun system context => (.ok system, context)

def modify (change : Context → Context) : Action Unit :=
  fun _ context => (.ok (), change context)

@[simp]
theorem pure_apply (value : α) (system : FileSystem) (context : Context) :
    (pure value : Action α) system context = (.ok value, context) := rfl

@[simp]
theorem succeed_apply (value : α) (system : FileSystem) (context : Context) :
    succeed value system context = (.ok value, context) := rfl

@[simp]
theorem fail_apply (error : Error) (system : FileSystem) (context : Context) :
    (fail error : Action α) system context = (.error error, context) := rfl

@[simp]
theorem ofExcept_apply (result : Except Error α) (system : FileSystem) (context : Context) :
    ofExcept result system context = (result, context) := by
  cases result <;> rfl

@[simp]
theorem context_apply (system : FileSystem) (context : Context) :
    Action.context system context = (.ok context, context) := rfl

@[simp]
theorem fileSystem_apply (system : FileSystem) (context : Context) :
    fileSystem system context = (.ok system, context) := rfl

@[simp]
theorem modify_apply (change : Context → Context) (system : FileSystem) (context : Context) :
    modify change system context = (.ok (), change context) := rfl

theorem bind_apply (first : Action α) (next : α → Action β) (system : FileSystem)
    (context : Context) :
    (first >>= next) system context =
      match first system context with
      | (.ok value, context) => next value system context
      | (.error error, context) => (.error error, context) := rfl

theorem bind_eq_ok {first : Action α} {next : α → Action β} {system : FileSystem}
    {context after : Context} {value : β} :
    (first >>= next) system context = (.ok value, after) ↔
      ∃ start middle, first system context = (.ok start, middle) ∧
        next start system middle = (.ok value, after) := by
  rw [bind_apply]
  rcases first system context with ⟨_ | start, middle⟩ <;> simp [and_assoc]

theorem ofExcept_bind_eq_ok {first : Except Error α} {next : α → Action β} {system : FileSystem}
    {context after : Context} {value : β} :
    (ofExcept first >>= next) system context = (.ok value, after) ↔
      ∃ start, first = .ok start ∧ next start system context = (.ok value, after) := by
  rw [bind_apply, ofExcept_apply]
  cases first <;> simp

theorem map_id_apply (action : Action α) : id <$> action = action := by
  funext system context
  show (action >>= fun value => pure (id value)) system context = action system context
  rw [bind_apply]
  rcases action system context with ⟨_ | _, _⟩ <;> rfl

theorem bind_bind (first : Action α) (second : α → Action β) (third : β → Action γ) :
    first >>= second >>= third = first >>= fun value => second value >>= third := by
  funext system context
  simp only [bind_apply]
  rcases first system context with ⟨_ | _, _⟩ <;> rfl

instance : LawfulMonad Action :=
  LawfulMonad.mk' Action map_id_apply (fun _ _ => rfl) bind_bind

theorem map_apply (change : α → β) (action : Action α) (system : FileSystem) (context : Context) :
    (change <$> action) system context =
      ((action system context).1.map change, (action system context).2) := by
  rw [← bind_pure_comp, bind_apply]
  rcases action system context with ⟨_ | _, _⟩ <;> rfl

end Action

end CilLoader
