import Mathlib.Order.SuccPred.Relation
import Mathlib.Data.Finset.Card
import Mathlib.Data.Nat.SuccPred
import Mathlib.Order.Interval.Finset.Nat
import CilLoader.Executable.Container
import CilLoader.Proofs.Context.Runs
import CilLoader.Proofs.Resolution.Demands

/-!
# Which resolutions come to an end

The evaluation of a type specification enters those that its signature demands. It has an outcome
within some bound exactly if no type specification on the way is entered inside itself. A bound
above the number of type specifications is then enough.
-/

namespace CilLoader

open Relation

namespace Bounded

section

variable [ExecutableParser] {system : FileSystem} {grown : Context}

/-! ## Entering type specifications -/

/-- The evaluation of a type specification of a module, in some context, enters another one, in the
context of that moment. -/
def Enters (module : Module) (system : FileSystem) (outer inner : Token × Context) : Prop :=
  outer.1.table = TableId.typeSpec.number ∧ inner.1.table = TableId.typeSpec.number ∧
    ∃ signature bound, module.metadata.typeSpecSignature outer.1.row = .ok signature ∧
      Demands (resolveReferenceWithin module bound) system inner.1 inner.2 signature outer.2

/-- On the way from a token, a type specification is entered inside itself. -/
def EntersItself (module : Module) (system : FileSystem) (token : Token) (context : Context) :
    Prop :=
  ∃ repeated within innermost,
    ReflTransGen (Enters module system) (token, context) (repeated, within) ∧
      TransGen (Enters module system) (repeated, within) (repeated, innermost)

variable {module : Module} {outer inner : Token × Context}

theorem Enters.changes (enters : Enters module system outer inner) :
    Context.Changes system outer.2 inner.2 := by
  rcases enters with ⟨_, _, signature, bound, _, demands⟩
  exact changes_of_demands (changing_resolveReferenceWithin module bound) signature demands

theorem Enters.again (enters : Enters module system outer inner) (settled : outer.2.Settled)
    (extension : inner.2.Extends grown) :
    Enters module system (outer.1, grown) (inner.1, grown) := by
  rcases enters with ⟨outerTable, innerTable, signature, bound, found, demands⟩
  exact ⟨outerTable, innerTable, signature, bound, found,
    demands_again (repeatable_resolveReferenceWithin module bound) signature settled extension
      demands⟩

theorem Enters.exists_lt (enters : Enters module system outer inner) {bound : Nat}
    (reached : resolveReferenceWithin module bound outer.1 system outer.2 ≠ none) :
    ∃ smaller < bound, resolveReferenceWithin module smaller inner.1 system inner.2 ≠ none := by
  rcases enters with ⟨outerTable, _, signature, earlier, found, demands⟩
  cases bound with
  | zero =>
      rw [resolveReferenceWithin_zero outerTable] at reached
      exact absurd rfl reached
  | succ bound =>
      rw [resolveReferenceWithin_succ outerTable, found] at reached
      have reachedSignature := (bind_ne_none.mp reached).2 signature outer.2 rfl
      refine ⟨bound, Nat.lt_succ_self bound, ?_⟩
      exact ne_none_of_demands (refines_of_le module (Nat.le_max_left earlier bound))
        (refines_of_le module (Nat.le_max_right earlier bound)) signature demands reachedSignature

theorem changes_of_enters_enters (enters : ReflTransGen (Enters module system) outer inner) :
    Context.Changes system outer.2 inner.2 := by
  induction enters with
  | refl => exact Context.Changes.refl system outer.2
  | tail _ last induction => exact induction.trans last.changes

theorem enters_enters_again (enters : TransGen (Enters module system) outer inner)
    (settled : outer.2.Settled) (extension : inner.2.Extends grown) :
    TransGen (Enters module system) (outer.1, grown) (inner.1, grown) := by
  induction enters with
  | single last => exact .single (last.again settled extension)
  | tail before last induction =>
      have settledMiddle := settled.changes (changes_of_enters_enters before.to_reflTransGen)
      have extensionMiddle := (settledMiddle.extends last.changes).trans extension
      exact (induction extensionMiddle).tail (last.again settledMiddle extension)

theorem exists_le_of_enters_enters (enters : ReflTransGen (Enters module system) outer inner)
    {bound : Nat} (reached : resolveReferenceWithin module bound outer.1 system outer.2 ≠ none) :
    ∃ smaller ≤ bound, resolveReferenceWithin module smaller inner.1 system inner.2 ≠ none := by
  induction enters with
  | refl => exact ⟨bound, Nat.le_refl bound, reached⟩
  | tail _ last induction =>
      rcases induction with ⟨middle, middleLe, reachedMiddle⟩
      rcases last.exists_lt reachedMiddle with ⟨smaller, smallerLt, reachedSmaller⟩
      exact ⟨smaller, by omega, reachedSmaller⟩

theorem exists_lt_of_enters_enters (enters : TransGen (Enters module system) outer inner)
    {bound : Nat} (reached : resolveReferenceWithin module bound outer.1 system outer.2 ≠ none) :
    ∃ smaller < bound, resolveReferenceWithin module smaller inner.1 system inner.2 ≠ none := by
  rcases TransGen.tail'_iff.mp enters with ⟨middle, before, last⟩
  rcases exists_le_of_enters_enters before reached with ⟨larger, largerLe, reachedMiddle⟩
  rcases last.exists_lt reachedMiddle with ⟨smaller, smallerLt, reachedInner⟩
  exact ⟨smaller, by omega, reachedInner⟩

/-- What enters itself has no outcome, since every bound for it would have a smaller one. -/
theorem eq_none_of_enters_itself {node : Token × Context}
    (enters : TransGen (Enters module system) node node) (bound : Nat) :
    resolveReferenceWithin module bound node.1 system node.2 = none := by
  induction bound using Nat.strong_induction_on with
  | _ bound induction =>
      by_contra reached
      rcases exists_lt_of_enters_enters enters reached with ⟨smaller, smallerLt, reachedSmaller⟩
      exact reachedSmaller (induction smaller smallerLt)

/-! ## Running out of the bound -/

theorem table_of_eq_none {bound : Nat} {token : Token} {context : Context}
    (unreached : resolveReferenceWithin module bound token system context = none) :
    token.table = TableId.typeSpec.number := by
  by_contra otherTable
  rw [resolveReferenceWithin_of_otherTable otherTable] at unreached
  cases unreached

theorem exists_enters_of_eq_none {bound : Nat} {token : Token} {context : Context}
    (unreached : resolveReferenceWithin module (bound + 1) token system context = none) :
    ∃ inner, Enters module system (token, context) inner ∧
      resolveReferenceWithin module bound inner.1 system inner.2 = none := by
  have outerTable := table_of_eq_none unreached
  rw [resolveReferenceWithin_succ outerTable] at unreached
  rcases bind_eq_none.mp unreached with never | ⟨signature, middle, found, unreached⟩
  · cases never
  · rw [ofAction_apply, Action.ofExcept_apply] at found
    rcases Prod.mk.inj (Option.some.inj found) with ⟨decoded, rfl⟩
    rcases exists_demands_of_eq_none signature unreached with
        ⟨inner, later, demands, unreachedInner⟩
    exact ⟨(inner, later),
      ⟨outerTable, table_of_eq_none unreachedInner, signature, bound, decoded, demands⟩,
      unreachedInner⟩

theorem exists_chain_of_eq_none {bound : Nat} {token : Token} {context : Context}
    (unreached : resolveReferenceWithin module bound token system context = none) :
    ∃ chain : Nat → Token × Context, chain 0 = (token, context) ∧
      ∀ step < bound, Enters module system (chain step) (chain (step + 1)) := by
  induction bound generalizing token context with
  | zero => exact ⟨fun _ => (token, context), rfl, fun step below => absurd below (by simp)⟩
  | succ bound induction =>
      rcases exists_enters_of_eq_none unreached with ⟨inner, enters, unreachedInner⟩
      rcases induction unreachedInner with ⟨chain, start, steps⟩
      refine ⟨fun step => Nat.casesOn step (token, context) chain, rfl, ?_⟩
      intro step below
      cases step with
      | zero =>
          show Enters module system (token, context) (chain 0)
          rw [start]
          exact enters
      | succ step => exact steps step (by omega)

theorem Enters.row_mem (enters : Enters module system outer inner) :
    outer.1.row ∈ Finset.Icc 1 (module.metadata.rowCount .typeSpec) := by
  rcases enters with ⟨_, _, signature, _, found, _⟩
  exact Finset.mem_Icc.mpr (Metadata.row_of_typeSpecSignature found)

/-- There are fewer type specifications than the bound, so one of them comes up twice. -/
theorem entersItself_of_eq_none {token : Token} {context : Context}
    (unreached : resolveReferenceWithin module (Action.specificationBound module) token system
      context = none) :
    EntersItself module system token context := by
  rcases exists_chain_of_eq_none unreached with ⟨chain, start, steps⟩
  have path : ∀ first last, first < last → last < Action.specificationBound module →
      TransGen (Enters module system) (chain first) (chain last) := by
    intro first last less below
    have onward : TransGen (fun left right => Enters module system (chain left) (chain right))
        first last := by
      apply transGen_of_succ_of_lt _ ?_ less
      rintro step ⟨_, beforeLast⟩
      exact steps step (by omega)
    exact onward.lift chain fun _ _ enters => enters
  have repetition : ∀ first last, first < last → last < Action.specificationBound module →
      (chain first).1.row = (chain last).1.row →
      EntersItself module system token context := by
    intro first last less below sameRow
    have sameTable : (chain first).1.table = (chain last).1.table :=
      (steps first (by omega)).1.trans (steps last below).1.symm
    have sameToken : (chain first).1 = (chain last).1 := Token.eq_of_parts sameTable sameRow
    have approach : ReflTransGen (Enters module system) (token, context) (chain first) := by
      rw [← start]
      rcases Nat.eq_zero_or_pos first with rfl | positive
      · exact .refl
      · exact (path 0 first positive (by omega)).to_reflTransGen
    have sameNode : chain last = ((chain first).1, (chain last).2) := by rw [sameToken]
    have circle := path first last less below
    rw [sameNode] at circle
    exact ⟨(chain first).1, (chain first).2, (chain last).2, approach, circle⟩
  have rowsFit : Set.MapsTo (fun step => (chain step).1.row)
      (Finset.range (Action.specificationBound module))
      (Finset.Icc 1 (module.metadata.rowCount .typeSpec)) :=
    fun step below => (steps step (Finset.mem_range.mp below)).row_mem
  have fewerRows : (Finset.Icc 1 (module.metadata.rowCount .typeSpec)).card <
      (Finset.range (Action.specificationBound module)).card := by
    simp [Action.specificationBound]
  rcases Finset.exists_ne_map_eq_of_card_lt_of_maps_to fewerRows rowsFit with
      ⟨left, leftBelow, right, rightBelow, different, sameRow⟩
  rcases Nat.lt_or_gt_of_ne different with less | less
  · exact repetition left right less (Finset.mem_range.mp rightBelow) sameRow
  · exact repetition right left less (Finset.mem_range.mp leftBelow) sameRow.symm

theorem EntersItself.eq_none {token : Token} {context : Context}
    (again : EntersItself module system token context) (settled : context.Settled)
    (bound : Nat) : resolveReferenceWithin module bound token system context = none := by
  by_contra reached
  rcases again with ⟨repeated, within, innermost, approach, circle⟩
  have settledWithin : within.Settled := settled.changes (changes_of_enters_enters approach)
  have itself : TransGen (Enters module system) (repeated, innermost) (repeated, innermost) :=
    enters_enters_again circle settledWithin (Context.Extends.refl innermost)
  rcases exists_le_of_enters_enters (approach.trans circle.to_reflTransGen) reached with
      ⟨smaller, _, reachedInnermost⟩
  exact reachedInnermost (eq_none_of_enters_itself itself smaller)

/-- The resolution of a token has an outcome within some bound exactly if no type specification is
entered inside itself on the way. This outcome is then the answer. -/
theorem exists_outcome_iff_not_entersItself {context : Context}
    (evolved : context.Evolved) (module : Module) (token : Token) :
    ((∃ bound outcome, resolveReferenceWithin module bound token system context = some outcome) ↔
      ¬EntersItself module system token context) ∧
    ∀ bound outcome, resolveReferenceWithin module bound token system context = some outcome →
      Action.resolveTypeReference module token system context = outcome := by
  have never : ∀ bound outcome,
      resolveReferenceWithin module bound token system context = some outcome →
      ¬EntersItself module system token context := by
    intro bound outcome reached again
    have unreached := again.eq_none evolved.settled bound
    exact Option.some_ne_none outcome (reached.symm.trans unreached)
  have enough : ¬EntersItself module system token context →
      ∃ outcome, resolveReferenceWithin module (Action.specificationBound module) token system
        context = some outcome := by
    intro notAgain
    apply Option.ne_none_iff_exists'.mp
    intro unreached
    exact notAgain (entersItself_of_eq_none unreached)
  refine ⟨⟨?_, fun notAgain => ⟨_, enough notAgain⟩⟩, ?_⟩
  · rintro ⟨bound, outcome, reached⟩
    exact never bound outcome reached
  · intro bound outcome reached
    rcases enough (never bound outcome reached) with ⟨enoughOutcome, reachedEnough⟩
    have same := (refines_of_le module (Nat.le_max_left bound _) token).agree
      (refines_of_le module (Nat.le_max_right bound _) token) reached
      (Option.ne_none_iff_exists'.mpr ⟨enoughOutcome, reachedEnough⟩)
    rw [Action.resolveTypeReference, settle, same]

/-! ## A type specification that stands for itself -/

/-- The signature of a type specification is a class or value type token, and that token is its
own. -/
def standsForItself (module : Module) (token : Token) : Bool :=
  match module.metadata.typeSpecSignature token.row with
  | .ok (.named _ named) => named = token
  | _ => false

theorem eq_none_of_standsForItself {token : Token}
    (table : token.table = TableId.typeSpec.number)
    (itself : standsForItself module token = true) (bound : Nat) (system : FileSystem)
    (context : Context) :
    resolveReferenceWithin module bound token system context = none := by
  have found : ∃ kind, module.metadata.typeSpecSignature token.row = .ok (.named kind token) := by
    rw [standsForItself] at itself
    split at itself
    · rename_i kind named found
      have sameToken : named = token := by simpa using itself
      exact ⟨kind, sameToken ▸ found⟩
    · cases itself
  rcases found with ⟨kind, found⟩
  induction bound with
  | zero =>
      rw [resolveReferenceWithin_zero table]
      rfl
  | succ bound induction =>
      rw [resolveReferenceWithin_succ table, found]
      exact bind_eq_none.mpr (.inr ⟨_, context, rfl, induction⟩)

end

open scoped Container

def ownSpecification : Token :=
  ⟨0x1B000001⟩

def twinLoaded : Context :=
  Context.twinStart.afterAll Context.twins [.resolveAssembly "a"]

theorem exists_standsForItself_twinLoaded :
    ∃ module ∈ twinLoaded.registry.byId, standsForItself module ownSpecification = true :=
  List.any_eq_true.mp (by decide +kernel)

theorem exists_outcome_iff_not_entersItself_twins :
    twinLoaded.Evolved ∧
      ∃ module ∈ twinLoaded.registry.byId,
        EntersItself module Context.twins ownSpecification twinLoaded := by
  have evolved : twinLoaded.Evolved :=
    ⟨Context.twinConfiguration, Context.twinStart, [(Context.twins, .resolveAssembly "a")],
      rfl, rfl⟩
  rcases exists_standsForItself_twinLoaded with ⟨module, member, itself⟩
  refine ⟨evolved, module, member, ?_⟩
  by_contra notAgain
  rcases (exists_outcome_iff_not_entersItself evolved module ownSpecification).1.mpr notAgain with
      ⟨bound, outcome, reached⟩
  have unreached := eq_none_of_standsForItself (by decide) itself bound Context.twins twinLoaded
  exact Option.some_ne_none outcome (reached.symm.trans unreached)

/-- Not every resolution in a registered module comes to an end. -/
theorem not_exists_outcome_of_ownSpecification :
    ¬∀ module ∈ twinLoaded.registry.byId, ∀ token, ∃ bound outcome,
      resolveReferenceWithin module bound token Context.twins twinLoaded = some outcome := by
  intro ends
  rcases exists_standsForItself_twinLoaded with ⟨module, member, itself⟩
  rcases ends module member ownSpecification with ⟨bound, outcome, reached⟩
  have unreached := eq_none_of_standsForItself (by decide) itself bound Context.twins twinLoaded
  exact Option.some_ne_none outcome (reached.symm.trans unreached)

end Bounded

end CilLoader
