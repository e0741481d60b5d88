import CilLoader.Context

/-!
# Actions that can be given up

An action that goes deeper and deeper may never come to an end, so it gets a bound on its depth.
Once the bound is used up the action is given up. It then has no outcome, neither an answer nor an
error.
-/

namespace CilLoader

/-- An action on a context that is given up when it goes too deep. -/
def Bounded (α : Type) : Type :=
  FileSystem → Context → Option (Except Error α × Context)

namespace Bounded

/-- Takes over an action, which always has an outcome. -/
def ofAction (action : Action α) : Bounded α :=
  fun system context => some (action system context)

def giveUp : Bounded α :=
  fun _ _ => none

def andThen (first : Bounded α) (next : α → Bounded β) : Bounded β :=
  fun system context =>
    match first system context with
    | none => none
    | some (.ok value, context) => next value system context
    | some (.error error, context) => some (.error error, context)

instance : Monad Bounded where
  pure value := ofAction (pure value)
  bind := andThen

/-- Takes having been given up for an error. -/
def settle (action : Bounded α) (error : Error) : Action α :=
  fun system context =>
    match action system context with
    | some outcome => outcome
    | none => (.error error, context)

@[simp]
theorem pure_apply (value : α) (system : FileSystem) (context : Context) :
    (pure value : Bounded α) system context = some (.ok value, context) := rfl

@[simp]
theorem ofAction_apply (action : Action α) (system : FileSystem) (context : Context) :
    ofAction action system context = some (action system context) := rfl

@[simp]
theorem giveUp_apply (system : FileSystem) (context : Context) :
    (giveUp : Bounded α) system context = none := rfl

theorem bind_apply (first : Bounded α) (next : α → Bounded β) (system : FileSystem)
    (context : Context) :
    (first >>= next) system context =
      match first system context with
      | none => none
      | some (.ok value, context) => next value system context
      | some (.error error, context) => some (.error error, context) := rfl

theorem bind_of_ok {first : Bounded α} {next : α → Bounded β} {system : FileSystem}
    {context middle : Context} {value : α}
    (start : first system context = some (.ok value, middle)) :
    (first >>= next) system context = next value system middle := by
  rw [bind_apply, start]

theorem bind_eq_none {first : Bounded α} {next : α → Bounded β} {system : FileSystem}
    {context : Context} :
    (first >>= next) system context = none ↔
      first system context = none ∨
        ∃ value middle, first system context = some (.ok value, middle) ∧
          next value system middle = none := by
  rw [bind_apply]
  rcases first system context with _ | ⟨_ | value, middle⟩ <;> simp [and_assoc]

theorem bind_ne_none {first : Bounded α} {next : α → Bounded β} {system : FileSystem}
    {context : Context} :
    (first >>= next) system context ≠ none ↔
      first system context ≠ none ∧
        ∀ value middle, first system context = some (.ok value, middle) →
          next value system middle ≠ none := by
  simp [bind_eq_none]

theorem bind_eq_some_ok {first : Bounded α} {next : α → Bounded β} {system : FileSystem}
    {context after : Context} {value : β} :
    (first >>= next) system context = some (.ok value, after) ↔
      ∃ start middle, first system context = some (.ok start, middle) ∧
        next start system middle = some (.ok value, after) := by
  rw [bind_apply]
  rcases first system context with _ | ⟨_ | start, middle⟩ <;> simp [and_assoc]

theorem settle_eq_ok {action : Bounded α} {error : Error} {system : FileSystem}
    {context after : Context} {value : α} :
    action.settle error system context = (.ok value, after) ↔
      action system context = some (.ok value, after) := by
  rw [settle]
  rcases action system context with _ | outcome <;> simp

theorem map_id_apply (action : Bounded α) : id <$> action = action := by
  funext system context
  show (action >>= fun value => pure (id value)) system context = action system context
  rw [bind_apply]
  rcases action system context with _ | ⟨_ | _, _⟩ <;> rfl

theorem bind_bind (first : Bounded α) (second : α → Bounded β) (third : β → Bounded γ) :
    first >>= second >>= third = first >>= fun value => second value >>= third := by
  funext system context
  simp only [bind_apply]
  rcases first system context with _ | ⟨_ | _, _⟩ <;> rfl

instance : LawfulMonad Bounded :=
  LawfulMonad.mk' Bounded map_id_apply (fun _ _ => rfl) bind_bind

end Bounded

end CilLoader
