import CilLoader.Executable.Container
import CilLoader.Proofs.Context.Repetition
import CilLoader.Proofs.Context.Runs
import CilLoader.Proofs.Module.Names

/-!
# Following forwarders

A module that does not define a type may hand its name on to another module, which is loaded if need
be. So the name leads through a chain of modules, each in the context of its moment. The chain can
end in a definition, end without one, or never end, and these are the outcomes of resolving the
type.
-/

namespace CilLoader

open CilLoader.Context CilLoader.Action

namespace Metadata

theorem IsFirst.unique {ρ : Type} [Row ρ] {metadata : Metadata} {accepts : ρ → Prop}
    {left right : ρ} (leftFirst : metadata.IsFirst accepts left)
    (rightFirst : metadata.IsFirst accepts right) : left = right := by
  have sameRid : Row.rid left = Row.rid right :=
    Nat.le_antisymm (leftFirst.first _ right rightFirst.present rightFirst.accepted)
      (rightFirst.first _ left leftFirst.present leftFirst.accepted)
  have present := leftFirst.present
  rw [sameRid, rightFirst.present] at present
  exact (Option.some.inj present).symm

end Metadata

namespace Module

variable {module : Module} {«namespace» name : String}

theorem Forwards.unique {left right : Token} (leftForwards : module.Forwards «namespace» name left)
    (rightForwards : module.Forwards «namespace» name right) : left = right := by
  rcases leftForwards with ⟨leftRow, leftExports, _, rfl⟩
  rcases rightForwards with ⟨rightRow, rightExports, _, rfl⟩
  rw [Metadata.IsFirst.unique leftExports rightExports]

/-- The module neither defines the type nor forwards it. -/
structure Lacks (module : Module) («namespace» name : String) : Prop where
  undefined : ∀ row, ¬module.Defines «namespace» name row
  kept : ∀ reference, ¬module.Forwards «namespace» name reference

end Module

namespace Forwarding

/-- A module, and the context in which it is asked for a type. -/
abbrev Stage := Module × Context

section

variable [ExecutableParser]

/-- A module hands a name on if it does not define the type. The assembly that it refers to answers
for the type from then on. -/
structure HandsOn (system : FileSystem) («namespace» name : String) (outer inner : Stage) :
    Prop where
  undefined : ∀ row, ¬outer.1.Defines «namespace» name row
  forwarded : ∃ reference, outer.1.Forwards «namespace» name reference ∧
    resolveAssemblyReference outer.1 reference system outer.2 = (.ok inner.1, inner.2)

/-- Where a name has been handed on to after some hops. -/
inductive Chain (system : FileSystem) («namespace» name : String) : (hops : Nat) → Stage → Stage →
    Prop
  | here (stage : Stage) : Chain system «namespace» name 0 stage stage
  | hop {hops : Nat} {start next last : Stage}
      (handsOn : HandsOn system «namespace» name start next)
      (rest : Chain system «namespace» name hops next last) :
      Chain system «namespace» name (hops + 1) start last

variable {system : FileSystem} {«namespace» name : String} {start next last : Stage}

/-! ## Chains -/

theorem HandsOn.unique {other : Stage} (left : HandsOn system «namespace» name start next)
    (right : HandsOn system «namespace» name start other) : next = other := by
  rcases left.forwarded with ⟨reference, forwards, loaded⟩
  rcases right.forwarded with ⟨otherReference, otherForwards, otherLoaded⟩
  rw [forwards.unique otherForwards, otherLoaded, Prod.mk.injEq, Except.ok.injEq] at loaded
  exact Prod.ext loaded.1.symm loaded.2.symm

theorem HandsOn.changes (handsOn : HandsOn system «namespace» name start next) :
    Changes system start.2 next.2 := by
  rcases handsOn.forwarded with ⟨reference, _, loaded⟩
  have changes := changing_resolveAssemblyReference start.1 reference system start.2
  rwa [loaded] at changes

/-- In a context that knows more, the name is handed on to the same module. -/
theorem HandsOn.again {grown : Context} (handsOn : HandsOn system «namespace» name start next)
    (settled : start.2.Settled) (extension : next.2.Extends grown) :
    HandsOn system «namespace» name (start.1, grown) (next.1, grown) := by
  rcases handsOn.forwarded with ⟨reference, forwards, loaded⟩
  exact ⟨handsOn.undefined, reference, forwards,
    (repeatable_resolveAssemblyReference start.1 reference).again settled loaded extension system⟩

theorem Chain.changes {hops : Nat} (chain : Chain system «namespace» name hops start last) :
    Changes system start.2 last.2 := by
  induction chain with
  | here stage => exact Changes.refl system stage.2
  | hop handsOn _ induction => exact handsOn.changes.trans induction

theorem Chain.again {hops : Nat} {grown : Context}
    (chain : Chain system «namespace» name hops start last) (settled : start.2.Settled)
    (extension : last.2.Extends grown) :
    Chain system «namespace» name hops (start.1, grown) (last.1, grown) := by
  induction chain with
  | here stage => exact .here _
  | hop handsOn rest induction =>
      have settledNext := settled.changes handsOn.changes
      have extensionNext := (settledNext.extends rest.changes).trans extension
      exact .hop (handsOn.again settled extensionNext) (induction settledNext extension)

theorem Chain.trans {before after : Nat} {middle : Stage}
    (first : Chain system «namespace» name before start middle)
    (second : Chain system «namespace» name after middle last) :
    Chain system «namespace» name (before + after) start last := by
  induction first with
  | here stage => rwa [Nat.zero_add]
  | hop handsOn _ induction =>
      rw [Nat.add_right_comm]
      exact .hop handsOn (induction second)

/-- A chain passes through the stages that shorter chains end in. -/
theorem Chain.split {before after : Nat}
    (chain : Chain system «namespace» name (before + after) start last) :
    ∃ middle, Chain system «namespace» name before start middle ∧
      Chain system «namespace» name after middle last := by
  induction before generalizing start with
  | zero =>
      rw [Nat.zero_add] at chain
      exact ⟨start, .here start, chain⟩
  | succ before induction =>
      rw [Nat.add_right_comm] at chain
      cases chain with
      | hop handsOn rest =>
          rcases induction rest with ⟨middle, first, second⟩
          exact ⟨middle, .hop handsOn first, second⟩

theorem Chain.unique {hops : Nat} {other : Stage}
    (left : Chain system «namespace» name hops start last)
    (right : Chain system «namespace» name hops start other) : last = other := by
  induction left with
  | here stage =>
      cases right
      rfl
  | hop handsOn _ induction =>
      cases right with
      | hop otherHandsOn rest =>
          rw [← handsOn.unique otherHandsOn] at rest
          exact induction rest

theorem Chain.repeat {hops : Nat} (chain : Chain system «namespace» name hops start start)
    (count : Nat) : Chain system «namespace» name (count * hops) start start := by
  induction count with
  | zero =>
      rw [Nat.zero_mul]
      exact .here start
  | succ count induction =>
      rw [Nat.succ_mul]
      exact induction.trans chain

/-- A module that is met again closes a cycle, since what was loaded on the way is there by then. -/
theorem Chain.exists_of_cycle {first second : Nat} {repeated : Module} {earlier later : Context}
    (settled : start.2.Settled) (order : first < second)
    (here : Chain system «namespace» name first start (repeated, earlier))
    (again : Chain system «namespace» name second start (repeated, later)) (hops : Nat) :
    ∃ last, Chain system «namespace» name hops start last := by
  have length : second = first + (second - first) := by omega
  rw [length] at again
  rcases again.split with ⟨middle, reached, round⟩
  rw [← here.unique reached] at round
  -- At the second meeting all of the round is loaded, so going round changes nothing any more.
  have closed := round.again (settled.changes here.changes) (Extends.refl later)
  have long := (here.trans round).trans (closed.repeat hops)
  have enough : hops ≤ first + (second - first) + hops * (second - first) := by
    have positive : 1 ≤ second - first := by omega
    have covered := Nat.mul_le_mul_left hops positive
    omega
  rw [← Nat.add_sub_cancel' enough] at long
  rcases long.split with ⟨last, chain, _⟩
  exact ⟨last, chain⟩

/-! ## Following a chain -/

/-- The modules on the way are intact, and the assemblies that they refer to can be loaded. -/
structure Followable (system : FileSystem) («namespace» name : String) (start : Stage) : Prop where
  intact : ∀ hops last, Chain system «namespace» name hops start last → last.1.Intact
  loads : ∀ hops last reference, Chain system «namespace» name hops start last →
    (∀ row, ¬last.1.Defines «namespace» name row) →
    last.1.Forwards «namespace» name reference →
    ∃ target after, resolveAssemblyReference last.1 reference system last.2 = (.ok target, after)

theorem Followable.tail (followable : Followable system «namespace» name start)
    (handsOn : HandsOn system «namespace» name start next) :
    Followable system «namespace» name next where
  intact hops last chain := followable.intact (hops + 1) last (.hop handsOn chain)
  loads hops last reference chain :=
    followable.loads (hops + 1) last reference (.hop handsOn chain)

theorem resolveTypeWithin_of_handsOn (intact : start.1.Intact)
    (handsOn : HandsOn system «namespace» name start next) (room : Nat) :
    resolveTypeWithin (room + 1) start.1 «namespace» name system start.2 =
      resolveTypeWithin room next.1 «namespace» name system next.2 := by
  rcases handsOn.forwarded with ⟨reference, forwards, loaded⟩
  rw [resolveTypeWithin, (Module.getType?_eq_none_iff intact).mpr handsOn.undefined]
  simp only [bind_apply, ofExcept_apply, (Module.forwarder?_eq_some_iff intact).mpr forwards,
    loaded]

theorem resolveTypeWithin_of_chain {hops : Nat}
    (followable : Followable system «namespace» name start)
    (chain : Chain system «namespace» name hops start last) (room : Nat) :
    resolveTypeWithin (room + hops) start.1 «namespace» name system start.2 =
      resolveTypeWithin room last.1 «namespace» name system last.2 := by
  induction chain with
  | here stage => rfl
  | hop handsOn _ induction =>
      rw [← Nat.add_assoc,
        resolveTypeWithin_of_handsOn (followable.intact 0 _ (.here _)) handsOn]
      exact induction (followable.tail handsOn)

theorem resolveTypeWithin_of_defines (intact : start.1.Intact) {row : TypeDefRow}
    (defines : start.1.Defines «namespace» name row) {type : TypeDefinition}
    (made : start.1.typeAt row.rid = .ok type) (room : Nat) :
    resolveTypeWithin (room + 1) start.1 «namespace» name system start.2 =
      (.ok type, start.2) := by
  rw [resolveTypeWithin, (Module.getType?_eq_some_iff intact).mpr ⟨row, defines, made⟩]
  rfl

theorem resolveTypeWithin_of_lacks (intact : start.1.Intact)
    (lacks : start.1.Lacks «namespace» name) (room : Nat) :
    resolveTypeWithin (room + 1) start.1 «namespace» name system start.2 =
      (.error (.typeNotFound start.1.simpleName «namespace» name), start.2) := by
  rw [resolveTypeWithin, (Module.getType?_eq_none_iff intact).mpr lacks.undefined]
  simp only [bind_apply, ofExcept_apply, (Module.forwarder?_eq_none_iff intact).mpr lacks.kept,
    fail_apply]

/-- Within some hops the chain comes to its end, unless it goes on for that long. -/
theorem Followable.exists_end (followable : Followable system «namespace» name start)
    (bound : Nat) :
    (∃ last, Chain system «namespace» name bound start last) ∨
      ∃ hops < bound, ∃ last, Chain system «namespace» name hops start last ∧
        ((∃ row, last.1.Defines «namespace» name row) ∨ last.1.Lacks «namespace» name) := by
  -- The chain is continued at its far end, where it is decided whether it goes on.
  induction bound with
  | zero => exact .inl ⟨start, .here start⟩
  | succ bound induction =>
      rcases induction with ⟨last, chain⟩ | ⟨hops, within, last, chain, ended⟩
      · by_cases defined : ∃ row, last.1.Defines «namespace» name row
        · exact .inr ⟨bound, Nat.lt_succ_self bound, last, chain, .inl defined⟩
        · have undefined := not_exists.mp defined
          by_cases forwarded : ∃ reference, last.1.Forwards «namespace» name reference
          · rcases forwarded with ⟨reference, forwards⟩
            rcases followable.loads bound last reference chain undefined forwards with
              ⟨target, after, loaded⟩
            have handsOn : HandsOn system «namespace» name last (target, after) :=
              ⟨undefined, reference, forwards, loaded⟩
            exact .inl ⟨(target, after), chain.trans (.hop handsOn (.here _))⟩
          · exact .inr ⟨bound, Nat.lt_succ_self bound, last, chain,
              .inr ⟨undefined, not_exists.mp forwarded⟩⟩
      · exact .inr ⟨hops, Nat.lt_succ_of_lt within, last, chain, ended⟩

theorem resolveType_of_defines {hops : Nat}
    (followable : Followable system «namespace» name start)
    (chain : Chain system «namespace» name hops start last) (near : hops ≤ hopLimit)
    {row : TypeDefRow} (defines : last.1.Defines «namespace» name row) {type : TypeDefinition}
    (made : last.1.typeAt row.rid = .ok type) :
    resolveType start.1 «namespace» name system start.2 = (.ok type, last.2) := by
  have room : hopLimit + 1 = hopLimit - hops + 1 + hops := by omega
  rw [resolveType, room, resolveTypeWithin_of_chain followable chain,
    resolveTypeWithin_of_defines (followable.intact hops last chain) defines made]

theorem resolveType_of_lacks {hops : Nat}
    (followable : Followable system «namespace» name start)
    (chain : Chain system «namespace» name hops start last) (near : hops ≤ hopLimit)
    (lacks : last.1.Lacks «namespace» name) :
    resolveType start.1 «namespace» name system start.2 =
      (.error (.typeNotFound last.1.simpleName «namespace» name), last.2) := by
  have room : hopLimit + 1 = hopLimit - hops + 1 + hops := by omega
  rw [resolveType, room, resolveTypeWithin_of_chain followable chain,
    resolveTypeWithin_of_lacks (followable.intact hops last chain) lacks]

theorem resolveType_of_long {hops : Nat}
    (followable : Followable system «namespace» name start) (long : hopLimit < hops)
    (chain : Chain system «namespace» name hops start last) :
    (resolveType start.1 «namespace» name system start.2).1 =
      .error (.recursionLimit hopLimit) := by
  have enough : hops = hopLimit + 1 + (hops - (hopLimit + 1)) := by omega
  rw [enough] at chain
  rcases chain.split with ⟨middle, first, _⟩
  have followed := resolveTypeWithin_of_chain followable first 0
  rw [Nat.zero_add] at followed
  rw [resolveType, followed]
  rfl

/-- One of three things comes of resolving a type. -/
theorem resolveType_outcome (followable : Followable system «namespace» name start) :
    (∃ hops ≤ hopLimit, ∃ last row type, Chain system «namespace» name hops start last ∧
      last.1.Defines «namespace» name row ∧ last.1.typeAt row.rid = .ok type ∧
      (resolveType start.1 «namespace» name system start.2).1 = .ok type) ∨
    (∃ hops ≤ hopLimit, ∃ last, Chain system «namespace» name hops start last ∧
      last.1.Lacks «namespace» name ∧
      (resolveType start.1 «namespace» name system start.2).1 =
        .error (.typeNotFound last.1.simpleName «namespace» name)) ∨
    ∃ hops > hopLimit, ∃ last, Chain system «namespace» name hops start last ∧
      (resolveType start.1 «namespace» name system start.2).1 =
        .error (.recursionLimit hopLimit) := by
  rcases followable.exists_end (hopLimit + 1) with
    ⟨last, chain⟩ | ⟨hops, within, last, chain, ended⟩
  · have long := Nat.lt_succ_self hopLimit
    exact .inr (.inr ⟨_, long, last, chain, resolveType_of_long followable long chain⟩)
  · have near := Nat.le_of_lt_succ within
    rcases ended with ⟨row, defines⟩ | lacks
    · rcases Module.exists_typeAt (followable.intact hops last chain) defines with ⟨type, made, _⟩
      exact .inl ⟨hops, near, last, row, type, chain, defines, made,
        congrArg Prod.fst (resolveType_of_defines followable chain near defines made)⟩
    · exact .inr (.inl ⟨hops, near, last, chain, lacks,
        congrArg Prod.fst (resolveType_of_lacks followable chain near lacks)⟩)

theorem resolveType_eq_ok_iff (followable : Followable system «namespace» name start)
    (type : TypeDefinition) :
    (resolveType start.1 «namespace» name system start.2).1 = .ok type ↔
      ∃ hops ≤ hopLimit, ∃ last row, Chain system «namespace» name hops start last ∧
        last.1.Defines «namespace» name row ∧ last.1.typeAt row.rid = .ok type := by
  constructor
  · intro answer
    rcases resolveType_outcome followable with
      ⟨hops, near, last, row, found, chain, defines, made, other⟩ |
        ⟨_, _, _, _, _, other⟩ | ⟨_, _, _, _, other⟩ <;>
      rw [answer] at other <;> cases other
    exact ⟨hops, near, last, row, chain, defines, made⟩
  · rintro ⟨hops, near, last, row, chain, defines, made⟩
    exact congrArg Prod.fst (resolveType_of_defines followable chain near defines made)

theorem resolveType_eq_typeNotFound_iff (followable : Followable system «namespace» name start)
    (owner : String) :
    (resolveType start.1 «namespace» name system start.2).1 =
        .error (.typeNotFound owner «namespace» name) ↔
      ∃ hops ≤ hopLimit, ∃ last, Chain system «namespace» name hops start last ∧
        last.1.Lacks «namespace» name ∧ last.1.simpleName = owner := by
  constructor
  · intro answer
    rcases resolveType_outcome followable with
      ⟨_, _, _, _, _, _, _, _, other⟩ | ⟨hops, near, last, chain, lacks, other⟩ |
        ⟨_, _, _, _, other⟩ <;>
      rw [answer] at other <;> cases other
    exact ⟨hops, near, last, chain, lacks, rfl⟩
  · rintro ⟨hops, near, last, chain, lacks, rfl⟩
    exact congrArg Prod.fst (resolveType_of_lacks followable chain near lacks)

/-- The chain meets some module twice. -/
def Cyclic (system : FileSystem) («namespace» name : String) (start : Stage) : Prop :=
  ∃ first second repeated earlier later, first < second ∧
    Chain system «namespace» name first start (repeated, earlier) ∧
    Chain system «namespace» name second start (repeated, later)

theorem resolveType_eq_recursionLimit_iff (settled : start.2.Settled)
    (followable : Followable system «namespace» name start) :
    (resolveType start.1 «namespace» name system start.2).1 =
        .error (.recursionLimit hopLimit) ↔
      (∃ hops > hopLimit, ∃ last, Chain system «namespace» name hops start last) ∨
        Cyclic system «namespace» name start := by
  constructor
  · intro answer
    rcases resolveType_outcome followable with
      ⟨_, _, _, _, _, _, _, _, other⟩ | ⟨_, _, _, _, _, other⟩ |
        ⟨hops, long, last, chain, _⟩
    · rw [answer] at other
      cases other
    · rw [answer] at other
      cases other
    · exact .inl ⟨hops, long, last, chain⟩
  · rintro (⟨hops, long, last, chain⟩ | ⟨first, second, repeated, earlier, later, cycle⟩)
    · exact resolveType_of_long followable long chain
    · rcases cycle with ⟨order, here, again⟩
      rcases Chain.exists_of_cycle settled order here again (hopLimit + 1) with ⟨last, chain⟩
      exact resolveType_of_long followable (Nat.lt_succ_self hopLimit) chain

/-- What resolving a type comes to is what its chain comes to. Whatever is forwarded, a module that
defines the type itself is not left, and nothing is loaded. -/
theorem resolveType_follows_forwarders {context : Context} {module : Module}
    (evolved : context.Evolved)
    (followable : Followable system «namespace» name (module, context)) :
    let result := (resolveType module «namespace» name system context).1
    let leadsTo := fun hops last => Chain system «namespace» name hops (module, context) last
    (∀ type, result = .ok type ↔ ∃ hops ≤ hopLimit, ∃ last row, leadsTo hops last ∧
      last.1.Defines «namespace» name row ∧ last.1.typeAt row.rid = .ok type) ∧
    (∀ hops last row, leadsTo hops last → last.1.Defines «namespace» name row →
      ∃ type, last.1.typeAt row.rid = .ok type ∧ type.module = last.1.id ∧
        type.token = Module.typeToken row.rid ∧ type.namespace = «namespace» ∧
        type.name = name ∧ TypeAttributes.isNested type.flags = false) ∧
    (∀ owner, result = .error (.typeNotFound owner «namespace» name) ↔
      ∃ hops ≤ hopLimit, ∃ last, leadsTo hops last ∧ last.1.Lacks «namespace» name ∧
        last.1.simpleName = owner) ∧
    (result = .error (.recursionLimit hopLimit) ↔
      (∃ hops > hopLimit, ∃ last, leadsTo hops last) ∨
        Cyclic system «namespace» name (module, context)) ∧
    ∀ row, module.Defines «namespace» name row → ∃ type, module.typeAt row.rid = .ok type ∧
      resolveType module «namespace» name system context = (.ok type, context) := by
  have found := resolveType_eq_ok_iff followable
  have missed := resolveType_eq_typeNotFound_iff followable
  have limited := resolveType_eq_recursionLimit_iff evolved.settled followable
  dsimp only at found missed limited ⊢
  refine ⟨found, ?_, missed, limited, ?_⟩
  · intro hops last row chain defines
    exact Module.exists_typeAt (followable.intact hops last chain) defines
  · intro row defines
    have here : Chain system «namespace» name 0 (module, context) (module, context) := .here _
    rcases Module.exists_typeAt (followable.intact 0 _ here) defines with ⟨type, made, _⟩
    exact ⟨type, made, resolveType_of_defines followable here (Nat.zero_le hopLimit) defines made⟩

/-! ## A facade -/

/-- A chain of one hop. -/
theorem followable_of_handsOn (intact : start.1.Intact)
    (handsOn : HandsOn system «namespace» name start last) (intactLast : last.1.Intact)
    {row : TypeDefRow} (defines : last.1.Defines «namespace» name row) :
    Followable system «namespace» name start := by
  have stages : ∀ hops stage, Chain system «namespace» name hops start stage →
      stage = start ∨ stage = last := by
    intro hops stage chain
    cases chain with
    | here => exact .inl rfl
    | hop first rest =>
        rw [← handsOn.unique first] at rest
        cases rest with
        | here => exact .inr rfl
        | hop second _ => exact absurd defines (second.undefined row)
  constructor
  · intro hops stage chain
    rcases stages hops stage chain with rfl | rfl
    · exact intact
    · exact intactLast
  · intro hops stage reference chain undefined forwards
    rcases stages hops stage chain with rfl | rfl
    · rcases handsOn.forwarded with ⟨named, forwardsNamed, loaded⟩
      rw [forwards.unique forwardsNamed]
      exact ⟨_, _, loaded⟩
    · exact absurd defines (undefined row)

/-- The module does not define the type, and hands it on to a module that does. -/
def isFacade (system : FileSystem) («namespace» name : String) (stage : Stage) : Bool :=
  match stage.1.getType? «namespace» name, forwarder? stage.1 «namespace» name with
  | .ok none, .ok (some reference) =>
    match (resolveAssemblyReference stage.1 reference system stage.2).1 with
    | .ok target =>
      stage.1.Intact && target.Intact &&
        ((target.getType? «namespace» name).toOption.bind id).isSome
    | .error _ => false
  | _, _ => false

theorem exists_handsOn_of_isFacade (facade : isFacade system «namespace» name start = true) :
    start.1.Intact ∧ ∃ last row, last.1.Intact ∧ last.1.Defines «namespace» name row ∧
      HandsOn system «namespace» name start last := by
  rw [isFacade] at facade
  split at facade
  case h_1 reference undefined forwarder =>
    cases reached : resolveAssemblyReference start.1 reference system start.2 with
    | mk result after =>
        cases result with
        | error error => simp [reached] at facade
        | ok target =>
            simp only [reached, Bool.and_eq_true, decide_eq_true_eq] at facade
            rcases facade with ⟨⟨intact, intactTarget⟩, found⟩
            have defined : ∃ type, target.getType? «namespace» name = .ok (some type) := by
              cases answer : target.getType? «namespace» name with
              | error error => simp [answer, Except.toOption] at found
              | ok type =>
                  cases type with
                  | none => simp [answer, Except.toOption] at found
                  | some type => exact ⟨type, rfl⟩
            rcases defined with ⟨type, defined⟩
            rcases (Module.getType?_eq_some_iff intactTarget).mp defined with ⟨row, defines, _⟩
            exact ⟨intact, (target, after), row, intactTarget, defines,
              (Module.getType?_eq_none_iff intact).mp undefined, reference,
              (Module.forwarder?_eq_some_iff intact).mp forwarder, reached⟩
  case h_2 => cases facade

end

open scoped Container

/-- An assembly with the name `A`. It forwards the type `T` to an assembly with the name `B`. -/
def facadeImage : Bytes := #[
  -- the root
  0x42, 0x53, 0x4A, 0x42, 1, 0, 1, 0, 0, 0, 0, 0, 0, 0, 0, 0, 0, 0, 2, 0,
  -- the headers of the streams
  0x34, 0, 0, 0, 0x5C, 0, 0, 0, 0x23, 0x7E, 0, 0,
  0x90, 0, 0, 0, 7, 0, 0, 0, 0x23, 0x53, 0x74, 0x72, 0x69, 0x6E, 0x67, 0x73, 0, 0, 0, 0,
  -- one assembly, one reference and one exported type
  0, 0, 0, 0, 2, 0, 0, 1, 0, 0, 0, 0, 0x89, 0, 0, 0, 0, 0, 0, 0, 0, 0, 0, 0,
  1, 0, 0, 0, 1, 0, 0, 0, 1, 0, 0, 0,
  4, 0x80, 0, 0, 1, 0, 0, 0, 0, 0, 0, 0, 0, 0, 0, 0, 0, 0, 1, 0, 0, 0,
  1, 0, 0, 0, 0, 0, 0, 0, 0, 0, 0, 0, 0, 0, 3, 0, 0, 0, 0, 0,
  0, 0, 0, 0, 0, 0, 0, 0, 5, 0, 0, 0, 5, 0,
  -- the strings
  0, 0x41, 0, 0x42, 0, 0x54, 0]

/-- An assembly with the name `B`. It defines the type `T`. -/
def backingImage : Bytes := #[
  -- the root
  0x42, 0x53, 0x4A, 0x42, 1, 0, 1, 0, 0, 0, 0, 0, 0, 0, 0, 0, 0, 0, 2, 0,
  -- the headers of the streams
  0x34, 0, 0, 0, 0x44, 0, 0, 0, 0x23, 0x7E, 0, 0,
  0x78, 0, 0, 0, 5, 0, 0, 0, 0x23, 0x53, 0x74, 0x72, 0x69, 0x6E, 0x67, 0x73, 0, 0, 0, 0,
  -- one type and one assembly
  0, 0, 0, 0, 2, 0, 0, 1, 4, 0, 0, 0, 1, 0, 0, 0, 0, 0, 0, 0, 0, 0, 0, 0,
  1, 0, 0, 0, 1, 0, 0, 0,
  1, 0, 0, 0, 3, 0, 0, 0, 0, 0, 1, 0, 1, 0,
  4, 0x80, 0, 0, 1, 0, 0, 0, 0, 0, 0, 0, 0, 0, 0, 0, 0, 0, 1, 0, 0, 0,
  -- the strings
  0, 0x42, 0, 0x54, 0]

def facadeFiles : FileSystem where
  files := [([['A']], facadeImage), ([['B']], backingImage)]
  directories := []

def facadeStart : Context :=
  { twinStart with
    config := { twinConfiguration with
      inputs := [("A", ⟨"A", ⟨"/A"⟩⟩), ("B", ⟨"B", ⟨"/B"⟩⟩)] } }

def facadeLoaded : Context :=
  facadeStart.afterAll facadeFiles [.resolveAssembly "A"]

/-- The files once that of the facade has been removed. -/
def backingFiles : FileSystem :=
  facadeFiles.remove [['A']]

theorem exists_isFacade :
    ∃ module ∈ facadeLoaded.registry.byId,
      isFacade backingFiles "" "T" (module, facadeLoaded) = true :=
  List.any_eq_true.mp (by decide +kernel)

/-- A facade that is loaded hands on even when its file is gone. -/
theorem resolveType_follows_forwarders_facade :
    facadeLoaded.Evolved ∧ ∃ module ∈ facadeLoaded.registry.byId,
      Followable backingFiles "" "T" (module, facadeLoaded) ∧
        ∃ type, (resolveType module "" "T" backingFiles facadeLoaded).1 = .ok type ∧
          type.name = "T" := by
  have evolved : facadeLoaded.Evolved :=
    ⟨facadeStart.config, facadeStart, [(facadeFiles, .resolveAssembly "A")], rfl, rfl⟩
  rcases exists_isFacade with ⟨module, member, facade⟩
  rcases exists_handsOn_of_isFacade facade with ⟨intact, last, row, intactLast, defines, handsOn⟩
  have followable : Followable backingFiles "" "T" (module, facadeLoaded) :=
    followable_of_handsOn intact handsOn intactLast defines
  have chain : Chain backingFiles "" "T" 1 (module, facadeLoaded) last := .hop handsOn (.here last)
  rcases resolveType_follows_forwarders evolved followable with ⟨found, defined, _⟩
  rcases defined 1 last row chain defines with ⟨type, made, _, _, _, sameName, _⟩
  exact ⟨evolved, module, member, followable, type,
    (found type).mpr ⟨1, by decide, last, row, chain, defines, made⟩, sameName⟩

end Forwarding

end CilLoader
