import Mathlib.Data.Option.Basic
import CilLoader.Proofs.Resolution.Parametricity

/-!
# Resolution under a bound

An outcome that is reached within a bound is reached within every larger one. A signature has no
outcome exactly if it demands a token that has none.
-/

namespace CilLoader

namespace Bounded

/-! ## More outcomes -/

/-- The second action has all the outcomes that the first one has. -/
def Refines (first second : Bounded α) : Prop :=
  ∀ system context outcome, first system context = some outcome →
    second system context = some outcome

theorem Refines.refl (action : Bounded α) : Refines action action :=
  fun _ _ _ reached => reached

theorem Refines.agree {first second third : Bounded α} (refinesFirst : Refines first third)
    (refinesSecond : Refines second third) {system : FileSystem} {context : Context}
    {outcome : Except Error α × Context} (reached : first system context = some outcome)
    (reachedToo : second system context ≠ none) : second system context = some outcome := by
  rcases Option.ne_none_iff_exists'.mp reachedToo with ⟨outcome', reached'⟩
  have same := (refinesFirst system context outcome reached).symm.trans
    (refinesSecond system context outcome' reached')
  rw [reached', same]

theorem refines_giveUp (action : Bounded α) : Refines giveUp action := by
  intro system context outcome reached
  cases reached

theorem Refines.bind {first first' : Bounded α} {next next' : α → Bounded β}
    (refines : Refines first first') (refinesNext : ∀ value, Refines (next value) (next' value)) :
    Refines (first >>= next) (first' >>= next') := by
  intro system context outcome reached
  rw [bind_apply] at reached ⊢
  cases start : first system context with
  | none => simp [start] at reached
  | some middle =>
      rcases middle with ⟨result, middle⟩
      rw [refines system context _ start]
      simp only [start] at reached
      cases result with
      | error error => exact reached
      | ok value => exact refinesNext value system middle outcome reached

variable [ExecutableParser]

theorem parametric_refines : Parametric Refines where
  giveUp := refines_giveUp
  pure := fun _ => Refines.refl _
  bind := Refines.bind
  primitive := fun _ => Refines.refl _
  head := fun _ _ => Refines.refl _
  decoded := fun _ => Refines.refl _
  direct := fun _ _ => Refines.refl _

theorem refines_resolveSignatureWith {reference reference' : Token → Bounded TypeDesc}
    (refines : ∀ token, Refines (reference token) (reference' token))
    (signature : TypeSignature) :
    Refines (resolveSignatureWith reference signature)
      (resolveSignatureWith reference' signature) :=
  parametric_refines.resolveSignatureWith refines signature

theorem refines_resolveSignaturesWith {reference reference' : Token → Bounded TypeDesc}
    (refines : ∀ token, Refines (reference token) (reference' token))
    (signatures : List TypeSignature) :
    Refines (resolveSignaturesWith reference signatures)
      (resolveSignaturesWith reference' signatures) :=
  parametric_refines.resolveSignaturesWith refines signatures

theorem refines_of_le (module : Module) {bound bound' : Nat} (le : bound ≤ bound')
    (token : Token) :
    Refines (resolveReferenceWithin module bound token)
      (resolveReferenceWithin module bound' token) :=
  parametric_refines.resolveReferenceWithin module le token

end Bounded

end CilLoader
