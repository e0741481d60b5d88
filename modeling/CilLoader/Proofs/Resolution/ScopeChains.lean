import Mathlib.Logic.Relation
import CilLoader.Executable.Container
import CilLoader.Proofs.Context.Runs
import CilLoader.Proofs.Module.Names
import CilLoader.Proofs.Table.CodedTokens

/-!
# Chains of scopes

A reference to a nested type names the reference to the type around it as its scope, and so on until
a reference whose scope is an assembly or the module itself. The type that the last reference names
is looked for first, which may load modules. Each other type is then looked for inside the one
before, in the module that this one belongs to. A chain that is too long fails before anything is
looked for.
-/

namespace CilLoader

open Relation CilLoader.Action

/-- The first type is listed inside the second one, in the module that both belong to. -/
def Registry.Nests (registry : Registry) (type enclosing : TypeDefinition) : Prop :=
  ∃ owner, registry.get? enclosing.module = some owner ∧ type.module = enclosing.module ∧
    type.token.row ∈ owner.metadata.nestedTypesOf enclosing.token.row

namespace Metadata

variable {metadata : Metadata}

/-- The token names the row. -/
structure Addresses {ρ : Type} [Row ρ] (metadata : Metadata) (token : Token) (row : ρ) : Prop where
  table : token.table = (Row.table ρ).number
  present : metadata.row? ρ token.row = some row

theorem Addresses.unique {ρ : Type} [Row ρ] {row : ρ} {left right : Token}
    (leftAddresses : metadata.Addresses left row) (rightAddresses : metadata.Addresses right row) :
    left = right := by
  refine Token.eq_of_parts (leftAddresses.table.trans rightAddresses.table.symm) ?_
  rw [← rid_eq_of_row? leftAddresses.present, rid_eq_of_row? rightAddresses.present]

/-- The first reference can be read, and its scope is the second one. -/
structure ScopedBy (metadata : Metadata) (inner outer : TypeRefRow) : Prop where
  readable : metadata.Readable inner.namespace ∧ metadata.Readable inner.name
  scope : metadata.Addresses inner.resolutionScope.token outer

theorem ScopedBy.table {inner outer : TypeRefRow} (scopedBy : metadata.ScopedBy inner outer) :
    inner.resolutionScope.table = .typeRef := by
  have sameNumber := scopedBy.scope.table
  rw [CodedIndex.table_token] at sameNumber
  exact TableId.number_injective sameNumber

/-- The reference can be read, and its scope is an assembly or the module itself. -/
structure Rooted (metadata : Metadata) (reference : TypeRefRow) : Prop where
  readable : metadata.Readable reference.namespace ∧ metadata.Readable reference.name
  scope : reference.resolutionScope.table = .assemblyRef ∨
    reference.resolutionScope.table = .module

/-! ## Long chains -/

/-- The scopes of a reference lead from one to the next for so many steps. -/
def Lasts (metadata : Metadata) : (steps : Nat) → TypeRefRow → Prop
  | 0, _ => True
  | steps + 1, reference => ∃ outer, metadata.ScopedBy reference outer ∧ metadata.Lasts steps outer

theorem Lasts.of_isChain {outers : List TypeRefRow} {start : TypeRefRow}
    (chain : (start :: outers).IsChain metadata.ScopedBy) {steps : Nat}
    (within : steps ≤ outers.length) : metadata.Lasts steps start := by
  induction outers generalizing start steps with
  | nil =>
      rw [Nat.le_zero.mp within]
      exact trivial
  | cons outer outers induction =>
      cases steps with
      | zero => exact trivial
      | succ steps =>
          rw [List.isChain_cons_cons] at chain
          exact ⟨outer, chain.1, induction chain.2 (Nat.le_of_succ_le_succ within)⟩

/-- A chain that leads into a cycle goes on for as long as one likes. -/
theorem Lasts.of_cycle {start repeated : TypeRefRow}
    (leads : ReflTransGen metadata.ScopedBy start repeated)
    (cycle : TransGen metadata.ScopedBy repeated repeated) (steps : Nat) :
    metadata.Lasts steps start := by
  induction steps generalizing start with
  | zero => exact trivial
  | succ steps induction =>
      rcases ReflTransGen.cases_head leads with rfl | ⟨outer, standsIn, rest⟩
      · rcases TransGen.head'_iff.mp cycle with ⟨outer, standsIn, rest⟩
        exact ⟨outer, standsIn, induction rest⟩
      · exact ⟨outer, standsIn, induction rest⟩

end Metadata

namespace Action

variable {system : FileSystem} {context after : Context} {module : Module} {token : Token}
  {type : TypeDefinition}

theorem nests_of_resolveNested {enclosing : TypeDefinition} {name : String}
    (found : resolveNested token enclosing name system context = (.ok type, after)) :
    after = context ∧ type.name = name ∧
      ((∀ owner ∈ context.registry.byId, owner.metadata.rowCount .typeDef < 0x1000000) →
        context.registry.Nests type enclosing) := by
  simp only [resolveNested, bind_apply, context_apply] at found
  cases registered : context.registry.get? enclosing.module with
  | none =>
      rw [registered] at found
      cases found
  | some owner =>
      rw [registered] at found
      rcases ofExcept_bind_eq_ok.mp found with ⟨nested?, asked, found⟩
      cases nested? with
      | none => cases found
      | some nested =>
          cases found
          rcases Module.exists_rid_of_nestedType? asked with
            ⟨sameModule, named, rid, listed, made⟩
          rcases Module.row_of_typeAt made with ⟨_, _, owned, _⟩
          refine ⟨rfl, named, fun few => ⟨owner, registered, owned.trans sameModule.symm, ?_⟩⟩
          have fewTypes := few owner (List.mem_of_find?_eq_some registered)
          rwa [Module.token_row_of_typeAt fewTypes made]

section

variable [ExecutableParser]

theorem resolveTypeRefWithin_of_lasts {room : Nat} {reference : TypeRefRow}
    (present : module.metadata.row? TypeRefRow token.row = some reference)
    (lasts : module.metadata.Lasts room reference) :
    resolveTypeRefWithin room module token system context =
      (.error (.recursionLimit hopLimit), context) := by
  induction room generalizing token reference with
  | zero => rfl
  | succ room induction =>
      rcases lasts with ⟨outer, scopedBy, lasts⟩
      rcases scopedBy.readable with ⟨⟨_, readNamespace⟩, _, readName⟩
      simp only [resolveTypeRefWithin, present, bind_apply, ofExcept_apply, readNamespace, readName,
        scopedBy.table, induction scopedBy.scope.present lasts]

/-! ## What is found -/

theorem named_of_resolveTypeWithin {room : Nat} {«namespace» name : String}
    (found : resolveTypeWithin room module «namespace» name system context = (.ok type, after)) :
    type.namespace = «namespace» ∧ type.name = name ∧
      TypeAttributes.isNested type.flags = false := by
  induction room generalizing module context with
  | zero => cases found
  | succ room induction =>
      rcases ofExcept_bind_eq_ok.mp found with ⟨defined?, asked, found⟩
      cases defined? with
      | some defined =>
          cases found
          exact Module.named_of_getType? asked
      | none =>
          rcases ofExcept_bind_eq_ok.mp found with ⟨reference?, _, found⟩
          cases reference? with
          | some reference =>
              rcases bind_eq_ok.mp found with ⟨target, middle, _, found⟩
              exact induction found
          | none => cases found

/-- What stands behind a type that a reference names. -/
theorem resolveTypeRefWithin_eq_ok {room : Nat} {reference : TypeRefRow}
    (present : module.metadata.row? TypeRefRow token.row = some reference)
    (found : resolveTypeRefWithin (room + 1) module token system context = (.ok type, after)) :
    module.metadata.string reference.name = .ok type.name ∧
      ((reference.resolutionScope.table ≠ .typeRef ∧
        module.metadata.string reference.namespace = .ok type.namespace ∧
          TypeAttributes.isNested type.flags = false) ∨
      (reference.resolutionScope.table = .typeRef ∧
        ∃ enclosing middle, resolveTypeRefWithin room module reference.resolutionScope.token system
            context = (.ok enclosing, middle) ∧
          resolveNested token enclosing type.name system middle = (.ok type, after))) := by
  simp only [resolveTypeRefWithin, present] at found
  rcases ofExcept_bind_eq_ok.mp found with ⟨«namespace», readNamespace, found⟩
  rcases ofExcept_bind_eq_ok.mp found with ⟨name, readName, found⟩
  cases scope : reference.resolutionScope.table with
  | assemblyRef =>
      rw [scope] at found
      rcases bind_eq_ok.mp found with ⟨target, middle, _, found⟩
      obtain ⟨rfl, rfl, outer⟩ := named_of_resolveTypeWithin found
      exact ⟨readName, .inl ⟨by decide, readNamespace, outer⟩⟩
  | module =>
      rw [scope] at found
      obtain ⟨rfl, rfl, outer⟩ := named_of_resolveTypeWithin found
      exact ⟨readName, .inl ⟨by decide, readNamespace, outer⟩⟩
  | typeRef =>
      rw [scope] at found
      rcases bind_eq_ok.mp found with ⟨enclosing, middle, enclosed, found⟩
      obtain rfl := (nests_of_resolveNested found).2.1
      exact ⟨readName, .inr ⟨rfl, enclosing, middle, enclosed, found⟩⟩
  | _ =>
      rw [scope] at found
      cases found

/-- More room does not change what is found. -/
theorem resolveTypeRefWithin_succ {room : Nat}
    (found : resolveTypeRefWithin room module token system context = (.ok type, after)) :
    resolveTypeRefWithin (room + 1) module token system context = (.ok type, after) := by
  induction room generalizing token type after with
  | zero => cases found
  | succ room induction =>
      rw [resolveTypeRefWithin] at found ⊢
      cases present : module.metadata.row? TypeRefRow token.row with
      | none =>
          rw [present] at found
          cases found
      | some reference =>
          rw [present] at found
          rcases ofExcept_bind_eq_ok.mp found with ⟨«namespace», readNamespace, found⟩
          rcases ofExcept_bind_eq_ok.mp found with ⟨name, readName, found⟩
          refine ofExcept_bind_eq_ok.mpr ⟨«namespace», readNamespace,
            ofExcept_bind_eq_ok.mpr ⟨name, readName, ?_⟩⟩
          cases scope : reference.resolutionScope.table with
          | typeRef =>
              rw [scope] at found
              rcases bind_eq_ok.mp found with ⟨enclosing, middle, enclosed, found⟩
              exact bind_eq_ok.mpr ⟨enclosing, middle, induction enclosed, found⟩
          | _ =>
              rw [scope] at found
              exact found

theorem resolveTypeReference_of_typeRef (isReference : token.table = TableId.typeRef.number)
    (module : Module) (system : FileSystem) (context : Context) :
    resolveTypeReference module token system context =
      ((resolveTypeRef module token system context).1.map .definition,
        (resolveTypeRef module token system context).2) := by
  have otherTable : token.table ≠ TableId.typeSpec.number := by
    rw [isReference]
    decide
  have notDefinition : token.table ≠ TableId.typeDef.number := by
    rw [isReference]
    decide
  rw [resolveTypeReference, Bounded.settle, Bounded.resolveReferenceWithin_of_otherTable otherTable,
    Bounded.ofAction_apply, Bounded.directReference, if_neg notDefinition, if_pos isReference]
  dsimp only
  rw [bind_apply]
  rcases resolveTypeRef module token system context with ⟨_ | _, _⟩ <;> rfl

theorem resolveTypeReference_of_lasts {reference : TypeRefRow}
    (addresses : module.metadata.Addresses token reference)
    (lasts : module.metadata.Lasts (hopLimit + 1) reference) (system : FileSystem)
    (context : Context) :
    resolveTypeReference module token system context =
      (.error (.recursionLimit hopLimit), context) := by
  rw [resolveTypeReference_of_typeRef addresses.table, resolveTypeRef,
    resolveTypeRefWithin_of_lasts addresses.present lasts]
  rfl

/-- What comes of resolving a reference is told by its scopes. If they lead to an assembly or to the
module itself, every type that is found has the name of the reference. It stands inside no other
type if the chain has no further references, and otherwise inside the type that the next one names.
With more than sixteen further references, or with a cycle, nothing is found, and nothing is loaded.
-/
theorem resolveTypeReference_follows_scopes {reference : TypeRefRow}
    (addresses : module.metadata.Addresses token reference)
    (few : ∀ owner ∈ (resolveTypeReference module token system context).2.registry.byId,
      owner.metadata.rowCount .typeDef < 0x1000000) :
    let outcome := resolveTypeReference module token system context
    (∀ outers, (reference :: outers).IsChain module.metadata.ScopedBy →
      (∀ answer, module.metadata.Rooted ((reference :: outers).getLast (List.cons_ne_nil _ _)) →
        outcome.1 = .ok answer → outers.length ≤ hopLimit ∧ ∃ type, answer = .definition type ∧
          module.metadata.string reference.name = .ok type.name ∧
          (outers = [] → TypeAttributes.isNested type.flags = false ∧
            module.metadata.string reference.namespace = .ok type.namespace) ∧
          ∀ next rest nextToken, outers = next :: rest →
            module.metadata.Addresses nextToken next → ∃ enclosing,
              resolveTypeReference module nextToken system context =
                (.ok (.definition enclosing), outcome.2) ∧
              outcome.2.registry.Nests type enclosing) ∧
      (hopLimit < outers.length → outcome = (.error (.recursionLimit hopLimit), context))) ∧
    ∀ repeated, ReflTransGen module.metadata.ScopedBy reference repeated →
      TransGen module.metadata.ScopedBy repeated repeated →
        outcome = (.error (.recursionLimit hopLimit), context) := by
  have resolves := resolveTypeReference_of_typeRef addresses.table module system context
  refine ⟨fun outers chain => ⟨fun answer rooted answered => ?_, fun long => ?_⟩,
    fun repeated leads cycle => ?_⟩
  · have near : outers.length ≤ hopLimit := by
      by_contra long
      have lasts := Metadata.Lasts.of_isChain chain (Nat.lt_of_not_le long)
      rw [resolveTypeReference_of_lasts addresses lasts] at answered
      cases answered
    rcases found : resolveTypeRef module token system context with ⟨error | type, after⟩
    all_goals rw [resolves, found] at answered few ⊢
    · cases answered
    cases answered
    rcases resolveTypeRefWithin_eq_ok addresses.present found with ⟨named, ends | goesOn⟩
    · refine ⟨near, type, rfl, named, fun _ => ⟨ends.2.2, ends.2.1⟩, ?_⟩
      rintro next rest _ rfl _
      exact absurd (List.isChain_cons_cons.mp chain).1.table ends.1
    · rcases goesOn with ⟨scope, enclosing, middle, enclosed, inside⟩
      rcases nests_of_resolveNested inside with ⟨rfl, _, nests⟩
      refine ⟨near, type, rfl, named, ?_, ?_⟩
      · rintro rfl
        rcases rooted.scope with other | other <;> cases scope.symm.trans other
      · rintro next rest nextToken rfl addressesNext
        have sameToken := addressesNext.unique (List.isChain_cons_cons.mp chain).1.scope
        have resolvesNext :=
          resolveTypeReference_of_typeRef addressesNext.table module system context
        -- The next reference has one step more to go when it is asked for by itself.
        rw [sameToken, resolveTypeRef, resolveTypeRefWithin_succ enclosed] at resolvesNext
        rw [sameToken]
        exact ⟨enclosing, resolvesNext, nests few⟩
  · exact resolveTypeReference_of_lasts addresses (.of_isChain chain long) system context
  · exact resolveTypeReference_of_lasts addresses (.of_cycle leads cycle _) system context

end

/-! ## A nested type -/

open scoped Container

/-- An assembly that defines the type `O` and inside it the type `I`. Its first reference names `I`
inside the second one, and that one names `O` in the module itself. The third reference is its own
scope. -/
def nestedImage : Bytes := #[
  -- the root
  0x42, 0x53, 0x4A, 0x42, 1, 0, 1, 0, 0, 0, 0, 0, 0, 0, 0, 0, 0, 0, 2, 0,
  -- the headers of the streams
  0x34, 0, 0, 0, 0x70, 0, 0, 0, 0x23, 0x7E, 0, 0,
  0xA4, 0, 0, 0, 7, 0, 0, 0, 0x23, 0x53, 0x74, 0x72, 0x69, 0x6E, 0x67, 0x73, 0, 0, 0, 0,
  -- three references, two types, one assembly and one nesting
  0, 0, 0, 0, 2, 0, 0, 1, 6, 0, 0, 0, 1, 2, 0, 0, 0, 0, 0, 0, 0, 0, 0, 0,
  3, 0, 0, 0, 2, 0, 0, 0, 1, 0, 0, 0, 1, 0, 0, 0,
  11, 0, 5, 0, 0, 0,
  4, 0, 3, 0, 0, 0,
  15, 0, 5, 0, 0, 0,
  1, 0, 0, 0, 3, 0, 0, 0, 0, 0, 1, 0, 1, 0,
  2, 0, 0, 0, 5, 0, 0, 0, 0, 0, 1, 0, 1, 0,
  4, 0x80, 0, 0, 1, 0, 0, 0, 0, 0, 0, 0, 0, 0, 0, 0, 0, 0, 1, 0, 0, 0,
  2, 0, 1, 0,
  -- the strings
  0, 0x41, 0, 0x4F, 0, 0x49, 0]

def nestedFiles : FileSystem where
  files := [([['A']], nestedImage)]
  directories := []

def nestedLoaded : Context :=
  Context.twinStart.afterAll nestedFiles [.resolveAssembly "A"]

/-- The references of the module form a chain of two and a cycle of one. The first names a type, and
there are few types before and after it is found. -/
def resolvesNested (system : FileSystem) (context : Context) (module : Module) : Bool :=
  let few (owner : Module) := decide (owner.metadata.rowCount .typeDef < 0x1000000)
  match module.metadata.row? TypeRefRow 1, module.metadata.row? TypeRefRow 2,
      module.metadata.row? TypeRefRow 3,
      resolveTypeReference module ⟨0x01000001⟩ system context with
  | some inner, some outer, some own, (.ok _, after) =>
    inner.resolutionScope = ⟨.typeRef, 2⟩ && outer.resolutionScope = ⟨.module, 1⟩ &&
      own.resolutionScope = ⟨.typeRef, 3⟩ &&
      ([inner, outer, own].all fun reference =>
        module.metadata.Readable reference.namespace && module.metadata.Readable reference.name) &&
      context.registry.byId.all few && after.registry.byId.all few
  | _, _, _, _ => false

theorem exists_resolvesNested :
    ∃ module ∈ nestedLoaded.registry.byId,
      resolvesNested nestedFiles nestedLoaded module = true :=
  List.any_eq_true.mp (by decide +kernel)

/-- The inner type is found inside the outer one. The reference that is its own scope names nothing.
-/
theorem resolveTypeReference_follows_scopes_nested :
    ∃ module ∈ nestedLoaded.registry.byId,
      let nested := resolveTypeReference module ⟨0x01000001⟩ nestedFiles nestedLoaded
      (∀ owner ∈ nested.2.registry.byId, owner.metadata.rowCount .typeDef < 0x1000000) ∧
      (∃ type enclosing, nested.1 = .ok (.definition type) ∧
        resolveTypeReference module ⟨0x01000002⟩ nestedFiles nestedLoaded =
          (.ok (.definition enclosing), nested.2) ∧ nested.2.registry.Nests type enclosing) ∧
      resolveTypeReference module ⟨0x01000003⟩ nestedFiles nestedLoaded =
        (.error (.recursionLimit 16), nestedLoaded) := by
  rcases exists_resolvesNested with ⟨module, member, resolves⟩
  rw [resolvesNested] at resolves
  split at resolves
  case h_2 => cases resolves
  case h_1 inner outer own answer after first second third found =>
    simp only [List.all_cons, List.all_nil, Bool.and_true, Bool.and_eq_true, decide_eq_true_eq,
      List.all_eq_true] at resolves
    obtain ⟨⟨⟨⟨⟨innerScope, outerScope⟩, ownScope⟩, innerReads, outerReads, ownReads⟩, fewBefore⟩,
      fewAfter⟩ := resolves
    have addressesInner : module.metadata.Addresses ⟨0x01000001⟩ inner := ⟨by decide, first⟩
    have addressesOuter : module.metadata.Addresses ⟨0x01000002⟩ outer := ⟨by decide, second⟩
    have addressesOwn : module.metadata.Addresses ⟨0x01000003⟩ own := ⟨by decide, third⟩
    have scopedBy : module.metadata.ScopedBy inner outer :=
      ⟨innerReads, by rw [innerScope]; exact addressesOuter⟩
    have rooted : module.metadata.Rooted outer := ⟨outerReads, .inr (by rw [outerScope])⟩
    have itself : module.metadata.ScopedBy own own :=
      ⟨ownReads, by rw [ownScope]; exact addressesOwn⟩
    have unchanged := resolveTypeReference_of_lasts addressesOwn
      (.of_cycle .refl (.single itself) _) nestedFiles nestedLoaded
    have few : ∀ owner ∈
        (resolveTypeReference module ⟨0x01000001⟩ nestedFiles nestedLoaded).2.registry.byId,
        owner.metadata.rowCount .typeDef < 0x1000000 := by
      rw [found]
      exact fewAfter
    have fewOwn : ∀ owner ∈
        (resolveTypeReference module ⟨0x01000003⟩ nestedFiles nestedLoaded).2.registry.byId,
        owner.metadata.rowCount .typeDef < 0x1000000 := by
      simpa only [unchanged] using fewBefore
    have answered := congrArg Prod.fst found
    obtain ⟨_, type, rfl, _, _, nests⟩ :=
      ((resolveTypeReference_follows_scopes addressesInner few).1 [outer]
        (.cons_cons scopedBy (.singleton outer))).1 answer rooted answered
    obtain ⟨enclosing, enclosed, inside⟩ := nests outer [] _ rfl addressesOuter
    have endless :=
      (resolveTypeReference_follows_scopes addressesOwn fewOwn).2 own .refl (.single itself)
    exact ⟨module, member, few, ⟨type, enclosing, answered, enclosed, inside⟩, endless⟩

end Action

end CilLoader
