import Mathlib.Data.List.Nodup
import CilLoader.Module.Interning
import CilLoader.Proofs.Module.MethodOwners
import CilLoader.Proofs.Module.SameSource

/-!
# Interning does not show

What a module keeps is what it would make again. So whatever it has been asked before, and whether
that succeeded or failed, it answers as it would if it was asked for the first time. The only trace
of earlier questions is the handles: a type or a method that is asked for again is the same one.
-/

namespace CilLoader

/-! ## Pools -/

namespace Pool

variable {α : Type} {makes : Nat → α → Prop} {pool : Pool α}

/-- Each handle holds what is made for its row, no row has two handles, and the handles are numbered
in the order in which they were made. -/
structure Sound (makes : Nat → α → Prop) (pool : Pool α) : Prop where
  made : ∀ rid handle, (rid, handle) ∈ pool → makes rid handle.value
  rows : (pool.map Prod.fst).Nodup
  numbers : pool.map (·.2.number) = (List.range pool.length).reverse

theorem sound_nil : Sound makes ([] : Pool α) where
  made := fun _ _ member => absurd member List.not_mem_nil
  rows := List.nodup_nil
  numbers := rfl

theorem Sound.eq_of_row (sound : pool.Sound makes) {rid : Nat} {left right : Handle α}
    (leftMember : (rid, left) ∈ pool) (rightMember : (rid, right) ∈ pool) : left = right :=
  (Prod.mk.inj (List.inj_on_of_nodup_map sound.rows leftMember rightMember rfl)).2

theorem Sound.eq_of_number (sound : pool.Sound makes) {rid otherRid : Nat} {left right : Handle α}
    (leftMember : (rid, left) ∈ pool) (rightMember : (otherRid, right) ∈ pool)
    (same : left.number = right.number) : left = right := by
  have numbers : (pool.map (·.2.number)).Nodup := by
    rw [sound.numbers]
    exact List.nodup_reverse.mpr List.nodup_range
  exact (Prod.mk.inj (List.inj_on_of_nodup_map numbers leftMember rightMember same)).2

/-- A handle for a row that has none yet gets the next number. -/
theorem Sound.cons (sound : pool.Sound makes) {rid : Nat} {value : α} (made : makes rid value)
    (new : pool.lookup rid = none) : Sound makes ((rid, ⟨pool.length, value⟩) :: pool) where
  made := by
    intro otherRid handle member
    rcases List.mem_cons.mp member with same | member
    · cases same
      exact made
    · exact sound.made otherRid handle member
  rows := by
    rw [List.map_cons, List.nodup_cons]
    refine ⟨fun member => ?_, sound.rows⟩
    rcases List.mem_map.mp member with ⟨entry, member, sameRid⟩
    have different := List.lookup_eq_none_iff.mp new entry member
    simp [sameRid] at different
  numbers := by
    rw [List.map_cons, sound.numbers, List.length_cons, List.range_succ, List.reverse_append]
    rfl

/-- What comes of interning a row: the value that is made for it, in a handle that is kept along
with all others. -/
structure Interns (makes : Nat → α → Prop) (before : Pool α) (rid : Nat) (make : Except Error α)
    (outcome : Except Error (Handle α) × Pool α) : Prop where
  answer : outcome.1.map Handle.value = make
  sound : outcome.2.Sound makes
  grown : before <:+ outcome.2
  held : ∀ handle, outcome.1 = .ok handle → (rid, handle) ∈ outcome.2

theorem Sound.intern (sound : pool.Sound makes) (rid : Nat) (make : Except Error α)
    (decides : ∀ value, makes rid value ↔ make = .ok value) :
    Interns makes pool rid make (pool.intern rid make) := by
  unfold Pool.intern
  cases present : pool.lookup rid with
  | some handle =>
      rcases List.lookup_eq_some_iff.mp present with ⟨before, after, split, _⟩
      have member : (rid, handle) ∈ pool := by simp [split]
      -- What is kept for the row is what would be made for it.
      have made := (decides handle.value).mp (sound.made rid handle member)
      refine ⟨made.symm, sound, List.suffix_refl pool, ?_⟩
      rintro _ ⟨rfl⟩
      exact member
  | none =>
      cases make with
      | error error => exact ⟨rfl, sound, List.suffix_refl pool, fun _ failed => nomatch failed⟩
      | ok value =>
          refine ⟨rfl, sound.cons ((decides value).mpr rfl) present, List.suffix_cons _ _, ?_⟩
          rintro _ ⟨rfl⟩
          exact List.mem_cons_self

end Pool

/-! ## What a module keeps -/

namespace Interning

/-- Whatever is kept is what the module would find or make again. -/
structure Sound (module : Module) (interning : Interning) : Prop where
  index : ∀ index, interning.index = some index → module.typeIndex = .ok index
  types : interning.types.Sound fun rid type => module.typeAt rid = .ok type
  methods : interning.methods.Sound fun rid method =>
    rid < 0x1000000 ∧ module.methodByToken (Module.methodToken rid) = .ok method

theorem sound_start (module : Module) : Sound module {} where
  index := fun _ kept => nomatch kept
  types := Pool.sound_nil
  methods := Pool.sound_nil

def HoldsType (interning : Interning) (handle : Handle TypeDefinition) : Prop :=
  ∃ rid, (rid, handle) ∈ interning.types

def HoldsMethod (interning : Interning) (handle : Handle MethodDefinition) : Prop :=
  ∃ rid, (rid, handle) ∈ interning.methods

/-- What is kept once is kept for good. -/
structure Extends (before after : Interning) : Prop where
  types : before.types <:+ after.types
  methods : before.methods <:+ after.methods

theorem Extends.refl (interning : Interning) : interning.Extends interning :=
  ⟨List.suffix_refl _, List.suffix_refl _⟩

theorem Extends.trans {first second third : Interning} (before : first.Extends second)
    (after : second.Extends third) : first.Extends third :=
  ⟨before.types.trans after.types, before.methods.trans after.methods⟩

theorem Extends.holdsType {before after : Interning} (grown : before.Extends after)
    {handle : Handle TypeDefinition} (held : before.HoldsType handle) : after.HoldsType handle :=
  held.imp fun _ member => grown.types.mem member

theorem Extends.holdsMethod {before after : Interning} (grown : before.Extends after)
    {handle : Handle MethodDefinition} (held : before.HoldsMethod handle) :
    after.HoldsMethod handle :=
  held.imp fun _ member => grown.methods.mem member

variable {module : Module} {interning : Interning}

theorem Sound.eq_of_typeToken (sound : interning.Sound module)
    (few : module.metadata.rowCount .typeDef < 0x1000000) {left right : Handle TypeDefinition}
    (leftHeld : interning.HoldsType left) (rightHeld : interning.HoldsType right)
    (sameToken : left.value.token = right.value.token) : left = right := by
  rcases leftHeld with ⟨rid, leftMember⟩
  rcases rightHeld with ⟨otherRid, rightMember⟩
  have leftMade := sound.types.made rid left leftMember
  have rightMade := sound.types.made otherRid right rightMember
  -- The tokens keep both row numbers whole, so the rows are the same.
  have sameRid : rid = otherRid := by
    rw [← Module.token_row_of_typeAt few leftMade, sameToken,
      Module.token_row_of_typeAt few rightMade]
  exact sound.types.eq_of_row leftMember (sameRid ▸ rightMember)

theorem Sound.eq_of_methodToken (sound : interning.Sound module)
    {left right : Handle MethodDefinition} (leftHeld : interning.HoldsMethod left)
    (rightHeld : interning.HoldsMethod right)
    (sameToken : left.value.token = right.value.token) : left = right := by
  rcases leftHeld with ⟨rid, leftMember⟩
  rcases rightHeld with ⟨otherRid, rightMember⟩
  rcases sound.methods.made rid left leftMember with ⟨leftFits, leftMade⟩
  rcases sound.methods.made otherRid right rightMember with ⟨rightFits, rightMade⟩
  rw [Module.token_of_methodByToken leftMade, Module.token_of_methodByToken rightMade] at sameToken
  have sameRow := congrArg Token.row sameToken
  rw [Module.methodToken, Module.methodToken, Token.row_ofParts, Token.row_ofParts] at sameRow
  have sameRid : rid = otherRid := by omega
  exact sound.methods.eq_of_row leftMember (sameRid ▸ rightMember)

end Interning

/-! ## Questions one at a time -/

namespace Interned

open Interning

/-- Asks a question of a module that has kept some things before. -/
def outcome (question : Interned α) (before : Interning) : Except Error α × Interning :=
  question.run.run before

theorem outcome_bind (question : Interned α) (next : α → Interned β) (before : Interning) :
    (question >>= next).outcome before =
      match question.outcome before with
      | (.ok answer, between) => (next answer).outcome between
      | (.error error, between) => (.error error, between) := by
  have unfolded : (question >>= next).outcome before =
      StateT.run (ExceptT.bindCont next (question.outcome before).1) (question.outcome before).2 :=
    rfl
  rw [unfolded]
  rcases question.outcome before with ⟨answer | answer, between⟩ <;> rfl

/-- What comes of a question to a module that has kept some things before. The answer has the value
that the module would find by itself, all that was kept is kept, and so are the new handles. -/
structure Transparent (module : Module) (before : Interning) (value : α → β)
    (kept : Interning → α → Prop) (plain : Except Error β)
    (outcome : Except Error α × Interning) : Prop where
  answer : outcome.1.map value = plain
  sound : outcome.2.Sound module
  grown : before.Extends outcome.2
  kept : ∀ answer, outcome.1 = .ok answer → kept outcome.2 answer

variable {module : Module} {before : Interning} {value : α → β} {kept : Interning → α → Prop}
  {nextValue : γ → δ} {nextKept : Interning → γ → Prop}

theorem Transparent.plain_eq_ok {plain : Except Error β} {outcome : Except Error α × Interning}
    (transparent : Transparent module before value kept plain outcome) {answer : α}
    (answered : outcome.1 = .ok answer) : plain = .ok (value answer) := by
  rw [← transparent.answer, answered]
  rfl

theorem Transparent.eq_error {plain : Except Error β} {outcome : Except Error α × Interning}
    (transparent : Transparent module before value kept plain outcome) {error : Error}
    (failed : plain = .error error) : outcome.1 = .error error := by
  rcases outcome with ⟨answer | answer, after⟩
  · exact congrArg Except.error (Except.error.inj (transparent.answer.trans failed))
  · cases transparent.answer.trans failed

theorem transparent_pure (sound : before.Sound module) (answer : α) (held : kept before answer) :
    Transparent module before value kept (pure (value answer))
      ((pure answer : Interned α).outcome before) where
  answer := rfl
  sound := sound
  grown := Extends.refl before
  kept := by
    rintro _ ⟨rfl⟩
    exact held

theorem transparent_throw (sound : before.Sound module) (error : Error) :
    Transparent module before value kept (.error error)
      ((throw error : Interned α).outcome before) where
  answer := rfl
  sound := sound
  grown := Extends.refl before
  kept := fun _ failed => nomatch failed

theorem transparent_ofExcept (sound : before.Sound module) (result : Except Error α) :
    Transparent module before id (fun _ _ => True) result ((ofExcept result).outcome before) where
  answer := by cases result <;> rfl
  sound := sound
  grown := Extends.refl before
  kept := fun _ _ => trivial

/-- The second question is asked of a module that has kept more, among it the answer to the first.
-/
theorem Transparent.bind {question : Interned α} {next : α → Interned γ} {plain : Except Error β}
    {plainNext : β → Except Error δ}
    (first : Transparent module before value kept plain (question.outcome before))
    (second : ∀ answer between, between.Sound module → before.Extends between →
      kept between answer →
        Transparent module between nextValue nextKept (plainNext (value answer))
          ((next answer).outcome between)) :
    Transparent module before nextValue nextKept (plain >>= plainNext)
      ((question >>= next).outcome before) := by
  rw [outcome_bind, ← first.answer]
  rcases asked : question.outcome before with ⟨answer | answer, between⟩
  all_goals rw [asked] at first
  · exact ⟨rfl, first.sound, first.grown, fun _ failed => nomatch failed⟩
  · have rest := second answer between first.sound first.grown (first.kept answer rfl)
    exact ⟨rest.answer, rest.sound, first.grown.trans rest.grown, rest.kept⟩

/-! ## Types -/

theorem typeAt_transparent (sound : before.Sound module) (rid : Nat) :
    Transparent module before Handle.value HoldsType (module.typeAt rid)
      ((typeAt module rid).outcome before) :=
  have interned := sound.types.intern rid (module.typeAt rid) fun _ => Iff.rfl
  { answer := interned.answer
    sound := ⟨sound.index, interned.sound, sound.methods⟩
    grown := ⟨interned.grown, List.suffix_refl _⟩
    kept := fun handle made => ⟨rid, interned.held handle made⟩ }

theorem typeByToken_transparent (sound : before.Sound module) (token : Token) :
    Transparent module before Handle.value HoldsType (module.typeByToken token)
      ((typeByToken module token).outcome before) := by
  rw [typeByToken, Module.typeByToken]
  split
  · exact typeAt_transparent sound token.row
  · exact transparent_throw sound _

theorem typeIndex_outcome (module : Module) (before : Interning) :
    (typeIndex module).outcome before =
      match before.index with
      | some index => (.ok index, before)
      | none => (module.typeIndex, { before with index := module.typeIndex.toOption }) := by
  rcases before with ⟨_ | index, types, methods⟩
  · unfold typeIndex
    cases module.typeIndex <;> rfl
  · rfl

/-- The index that is kept is the one that would be read again. -/
theorem typeIndex_transparent (sound : before.Sound module) :
    Transparent module before id (fun _ _ => True) module.typeIndex
      ((typeIndex module).outcome before) := by
  rw [typeIndex_outcome]
  cases kept : before.index with
  | some index =>
      exact ⟨(sound.index index kept).symm, sound, Extends.refl before, fun _ _ => trivial⟩
  | none =>
      refine ⟨?_, ⟨?_, sound.types, sound.methods⟩,
        ⟨List.suffix_refl _, List.suffix_refl _⟩, fun _ _ => trivial⟩
      · cases module.typeIndex <;> rfl
      -- An index that cannot be read is not kept.
      · exact fun index read => Error.toOption_eq_some.mp read

theorem getType?_transparent (sound : before.Sound module) («namespace» name : String) :
    Transparent module before (Option.map Handle.value)
      (fun after found => ∀ handle ∈ found, after.HoldsType handle)
      (module.getType? «namespace» name) ((getType? module «namespace» name).outcome before) := by
  unfold getType? Module.getType?
  refine (typeIndex_transparent sound).bind fun index between sound _ _ => ?_
  dsimp only [id]
  cases index.lookup («namespace», name) with
  | none => exact transparent_pure sound none fun _ member => nomatch member
  | some rid =>
      refine (typeAt_transparent sound rid).bind fun handle after sound _ held => ?_
      exact transparent_pure sound (some handle) fun | _, rfl => held

theorem nestedType?_transparent (sound : before.Sound module) (enclosing : TypeDefinition)
    (name : String) :
    Transparent module before (Option.map Handle.value)
      (fun after found => ∀ handle ∈ found, after.HoldsType handle)
      (module.nestedType? enclosing name) ((nestedType? module enclosing name).outcome before) := by
  unfold nestedType? Module.nestedType?
  split
  · exact transparent_pure sound none fun _ member => nomatch member
  · refine (transparent_ofExcept sound _).bind fun found between sound _ _ => ?_
    cases found with
    | none => exact transparent_pure sound none fun _ member => nomatch member
    | some row =>
        refine (typeAt_transparent sound row.rid).bind fun handle after sound _ held => ?_
        exact transparent_pure sound (some handle) fun | _, rfl => held

/-! ## Methods -/

theorem methodByToken_transparent (sound : before.Sound module) (token : Token) :
    Transparent module before Handle.value HoldsMethod (module.methodByToken token)
      ((methodByToken module token).outcome before) := by
  unfold methodByToken
  split
  case isTrue otherTable =>
    have failed : module.methodByToken token = .error (.typeResolution token) := if_pos otherTable
    rw [failed]
    exact transparent_throw sound _
  case isFalse isMethod =>
    have sameToken : Module.methodToken token.row = token :=
      Module.methodToken_row (not_not.mp isMethod)
    have interned := sound.methods.intern token.row (module.methodByToken token)
      fun method => by rw [sameToken, and_iff_right token.row_lt]
    exact ⟨interned.answer, ⟨sound.index, sound.types, interned.sound⟩,
      ⟨List.suffix_refl _, interned.grown⟩, fun handle made => ⟨_, interned.held handle made⟩⟩

/-- The methods of a type are made one after another. One that fails leaves those before it made. -/
theorem mapM_methodByToken_transparent (sound : before.Sound module) (tokens : List Token) :
    Transparent module before (List.map Handle.value)
      (fun after handles => ∀ handle ∈ handles, after.HoldsMethod handle)
      (tokens.mapM module.methodByToken)
      ((tokens.mapM (methodByToken module)).outcome before) := by
  induction tokens generalizing before with
  | nil => exact transparent_pure sound [] fun _ member => nomatch member
  | cons token tokens induction =>
      rw [List.mapM_cons, List.mapM_cons]
      refine (methodByToken_transparent sound token).bind fun handle between sound _ held => ?_
      refine (induction sound).bind fun handles after sound grown othersHeld => ?_
      exact transparent_pure sound (handle :: handles)
        (List.forall_mem_cons.mpr ⟨grown.holdsMethod held, othersHeld⟩)

theorem methodsOf_transparent (sound : before.Sound module) (type : TypeDefinition) :
    Transparent module before (List.map Handle.value)
      (fun after handles => ∀ handle ∈ handles, after.HoldsMethod handle)
      (module.methodsOf type) ((methodsOf module type).outcome before) := by
  unfold methodsOf Module.methodsOf
  split
  · exact transparent_throw sound _
  · have asked := mapM_methodByToken_transparent sound
      ((module.metadata.methodRange type.token.row).toList.map Module.methodToken)
    rwa [List.mapM_map, List.mapM_map] at asked

theorem findMethod?_transparent (sound : before.Sound module) (type : TypeDefinition)
    (name : String) :
    Transparent module before (Option.map Handle.value)
      (fun after found => ∀ handle ∈ found, after.HoldsMethod handle)
      (module.findMethod? type name) ((findMethod? module type name).outcome before) := by
  unfold findMethod? Module.findMethod?
  refine (methodsOf_transparent sound type).bind fun handles between sound _ held => ?_
  rw [List.find?_map]
  refine transparent_pure sound (handles.find? (·.value.name == name)) ?_
  intro handle member
  exact held handle (List.mem_of_find?_eq_some member)

end Interned

/-! ## Questions one after another -/

/-- A question about the types and methods of a module. -/
inductive Request where
  | getType («namespace» name : String)
  | typeByToken (token : Token)
  | nestedType (enclosing : TypeDefinition) (name : String)
  | methodByToken (token : Token)
  | methodsOf (type : TypeDefinition)
  | findMethod (type : TypeDefinition) (name : String)

/-- The question about the types as they look if two modules change their numbers. -/
def Request.exchanged (left right : ModuleId) : Request → Request
  | .getType «namespace» name => .getType «namespace» name
  | .typeByToken token => .typeByToken token
  | .nestedType enclosing name => .nestedType (enclosing.exchanged left right) name
  | .methodByToken token => .methodByToken token
  | .methodsOf type => .methodsOf (type.exchanged left right)
  | .findMethod type name => .findMethod (type.exchanged left right) name

/-- What a module answers if it has the question answered. -/
inductive Reply (τ μ : Type) where
  | type (found : Option τ)
  | method (found : Option μ)
  | methodList (found : List μ)

namespace Reply

def map (ofType : τ → τ') (ofMethod : μ → μ') : Reply τ μ → Reply τ' μ'
  | .type found => .type (found.map ofType)
  | .method found => .method (found.map ofMethod)
  | .methodList found => .methodList (found.map ofMethod)

theorem map_map (ofType : τ → τ') (ofMethod : μ → μ') (ofNextType : τ' → τ'')
    (ofNextMethod : μ' → μ'') (reply : Reply τ μ) :
    (reply.map ofType ofMethod).map ofNextType ofNextMethod =
      reply.map (ofNextType ∘ ofType) (ofNextMethod ∘ ofMethod) := by
  cases reply <;> simp [map]

def types : Reply τ μ → List τ
  | .type found => found.toList
  | _ => []

def methods : Reply τ μ → List μ
  | .type _ => []
  | .method found => found.toList
  | .methodList found => found

end Reply

namespace Module

/-- What a module answers that keeps nothing. -/
def reply (module : Module) : Request → Except Error (Reply TypeDefinition MethodDefinition)
  | .getType «namespace» name => do return .type (← module.getType? «namespace» name)
  | .typeByToken token => do return .type (some (← module.typeByToken token))
  | .nestedType enclosing name => do return .type (← module.nestedType? enclosing name)
  | .methodByToken token => do return .method (some (← module.methodByToken token))
  | .methodsOf type => do return .methodList (← module.methodsOf type)
  | .findMethod type name => do return .method (← module.findMethod? type name)

theorem SameSource.reply {left right : Module} (same : left.SameSource right) (request : Request) :
    left.reply request =
      (right.reply (request.exchanged left.id right.id)).map
        (Reply.map (fun type => { type with module := left.id })
          fun method => { method with module := left.id }) := by
  cases request with
  | getType «namespace» name =>
      rw [Module.reply, same.getType?, Request.exchanged, Module.reply]
      cases right.getType? «namespace» name <;> rfl
  | typeByToken token =>
      rw [Module.reply, same.typeByToken, Request.exchanged, Module.reply]
      cases right.typeByToken token <;> rfl
  | nestedType enclosing name =>
      rw [Module.reply, same.nestedType?, Request.exchanged, Module.reply]
      cases right.nestedType? _ name <;> rfl
  | methodByToken token =>
      rw [Module.reply, same.methodByToken, Request.exchanged, Module.reply]
      cases right.methodByToken token <;> rfl
  | methodsOf type =>
      rw [Module.reply, same.methodsOf, Request.exchanged, Module.reply]
      cases right.methodsOf _ <;> rfl
  | findMethod type name =>
      rw [Module.reply, same.findMethod?, Request.exchanged, Module.reply]
      cases right.findMethod? _ name <;> rfl

end Module

namespace Interned

open Interning

def ask (module : Module) :
    Request → Interned (Reply (Handle TypeDefinition) (Handle MethodDefinition))
  | .getType «namespace» name => do return .type (← getType? module «namespace» name)
  | .typeByToken token => do return .type (some (← typeByToken module token))
  | .nestedType enclosing name => do return .type (← nestedType? module enclosing name)
  | .methodByToken token => do return .method (some (← methodByToken module token))
  | .methodsOf type => do return .methodList (← methodsOf module type)
  | .findMethod type name => do return .method (← findMethod? module type name)

/-- All handles in the reply are kept. -/
def KeptReply (interning : Interning)
    (reply : Reply (Handle TypeDefinition) (Handle MethodDefinition)) : Prop :=
  (∀ handle ∈ reply.types, interning.HoldsType handle) ∧
    ∀ handle ∈ reply.methods, interning.HoldsMethod handle

theorem ask_transparent {module : Module} {before : Interning} (sound : before.Sound module)
    (request : Request) :
    Transparent module before (Reply.map Handle.value Handle.value) KeptReply
      (module.reply request) ((ask module request).outcome before) := by
  cases request with
  | getType «namespace» name =>
      refine (getType?_transparent sound «namespace» name).bind fun found after sound _ held => ?_
      exact transparent_pure sound (Reply.type found)
        ⟨fun handle member => held handle (Option.mem_toList.mp member), List.forall_mem_nil _⟩
  | typeByToken token =>
      refine (typeByToken_transparent sound token).bind fun handle after sound _ held => ?_
      exact transparent_pure sound (Reply.type (some handle))
        ⟨List.forall_mem_singleton.mpr held, List.forall_mem_nil _⟩
  | nestedType enclosing name =>
      refine (nestedType?_transparent sound enclosing name).bind fun found after sound _ held => ?_
      exact transparent_pure sound (Reply.type found)
        ⟨fun handle member => held handle (Option.mem_toList.mp member), List.forall_mem_nil _⟩
  | methodByToken token =>
      refine (methodByToken_transparent sound token).bind fun handle after sound _ held => ?_
      exact transparent_pure sound (Reply.method (some handle))
        ⟨List.forall_mem_nil _, List.forall_mem_singleton.mpr held⟩
  | methodsOf type =>
      refine (methodsOf_transparent sound type).bind fun handles after sound _ held => ?_
      exact transparent_pure sound (Reply.methodList handles) ⟨List.forall_mem_nil _, held⟩
  | findMethod type name =>
      refine (findMethod?_transparent sound type name).bind fun found after sound _ held => ?_
      exact transparent_pure sound (Reply.method found)
        ⟨List.forall_mem_nil _, fun handle member => held handle (Option.mem_toList.mp member)⟩

/-- The replies to questions that are asked one after another, and what is kept after the last. -/
def askAll (module : Module) : List Request → Interning →
    List (Except Error (Reply (Handle TypeDefinition) (Handle MethodDefinition))) × Interning
  | [], interning => ([], interning)
  | request :: requests, interning =>
    let (reply, between) := (ask module request).outcome interning
    let (replies, after) := askAll module requests between
    (reply :: replies, after)

/-- Every question finds what was kept for those before it. By induction on the questions. -/
theorem askAll_sound {module : Module} {before : Interning} (sound : before.Sound module)
    (requests : List Request) :
    (askAll module requests before).1.map (Except.map (Reply.map Handle.value Handle.value)) =
        requests.map module.reply ∧
      (askAll module requests before).2.Sound module ∧
      before.Extends (askAll module requests before).2 ∧
      ∀ reply, .ok reply ∈ (askAll module requests before).1 →
        KeptReply (askAll module requests before).2 reply := by
  induction requests generalizing before with
  | nil => exact ⟨rfl, sound, Extends.refl before, fun _ member => nomatch member⟩
  | cons request requests induction =>
      have first := ask_transparent sound request
      obtain ⟨replies, after, grown, kept⟩ := induction first.sound
      refine ⟨?_, after, first.grown.trans grown, ?_⟩
      · exact List.cons_eq_cons.mpr ⟨first.answer, replies⟩
      · intro reply member
        rcases List.mem_cons.mp member with same | member
        · -- The handles of the first reply outlast the questions behind it.
          have held := first.kept reply same.symm
          exact ⟨fun handle member => grown.holdsType (held.1 handle member),
            fun handle member => grown.holdsMethod (held.2 handle member)⟩
        · exact kept reply member

/-- Asked any questions one after another, a module replies to each as another module from the same
image does that is asked nothing else. Types with the same token have the same handle in all
replies, and so have methods. Handles with the same number are the same. -/
theorem askAll_transparent {module fresh : Module} (same : module.SameSource fresh)
    (few : module.metadata.rowCount .typeDef < 0x1000000) (requests : List Request) :
    (askAll module requests {}).1.map (Except.map (Reply.map Handle.value Handle.value)) =
        requests.map (fun request =>
          ((ask fresh (request.exchanged module.id fresh.id)).outcome {}).1.map
            (Reply.map (fun handle => { handle.value with module := module.id })
              fun handle => { handle.value with module := module.id })) ∧
      ∀ first second, .ok first ∈ (askAll module requests {}).1 →
        .ok second ∈ (askAll module requests {}).1 →
        (∀ left ∈ first.types, ∀ right ∈ second.types,
          (left.value.token = right.value.token → left = right) ∧
            (left.number = right.number → left = right)) ∧
        ∀ left ∈ first.methods, ∀ right ∈ second.methods,
          (left.value.token = right.value.token → left = right) ∧
            (left.number = right.number → left = right) := by
  obtain ⟨replies, sound, _, kept⟩ := askAll_sound (sound_start module) requests
  refine ⟨?_, ?_⟩
  · rw [replies]
    refine List.map_congr_left fun request _ => ?_
    rw [same.reply, ← (ask_transparent (sound_start fresh) _).answer]
    cases ((ask fresh (request.exchanged module.id fresh.id)).outcome {}).1 with
    | error error => rfl
    | ok reply => exact congrArg Except.ok (Reply.map_map _ _ _ _ reply)
  · intro first second firstMember secondMember
    have firstKept := kept first firstMember
    have secondKept := kept second secondMember
    refine ⟨fun left leftMember right rightMember => ?_,
      fun left leftMember right rightMember => ?_⟩
    · have leftHeld := firstKept.1 left leftMember
      have rightHeld := secondKept.1 right rightMember
      exact ⟨sound.eq_of_typeToken few leftHeld rightHeld,
        sound.types.eq_of_number leftHeld.choose_spec rightHeld.choose_spec⟩
    · have leftHeld := firstKept.2 left leftMember
      have rightHeld := secondKept.2 right rightMember
      exact ⟨sound.eq_of_methodToken leftHeld rightHeld,
        sound.methods.eq_of_number leftHeld.choose_spec rightHeld.choose_spec⟩

/-- A type, a method without an owner, and the type once more. -/
def repeating : List Request :=
  [.typeByToken ⟨0x02000001⟩, .methodByToken ⟨0x06000001⟩, .getType "" "M"]

/-- A module with the number one and four types finds the same type twice and fails in between. -/
def findsAgain (module : Module) : Bool :=
  module.id = 1 && module.metadata.rowCount .typeDef = 4 &&
    match (askAll module repeating {}).1 with
    | [.ok (.type (some left)), .error (.typeResolution token), .ok (.type (some right))] =>
      token = ⟨0x06000001⟩ && left.value.token = right.value.token
    | _ => false

/-- A type is asked for by its token and, after a question that fails, once more by its name. -/
theorem askAll_transparent_again :
    ∃ module fresh left right, Module.listed = .ok module ∧ module.SameSource fresh ∧
      module.id ≠ fresh.id ∧
      (askAll module repeating {}).1 =
        [.ok (.type (some left)), .error (.typeResolution ⟨0x06000001⟩), .ok (.type (some right))] ∧
      ((ask fresh (.getType "" "M")).outcome {}).1.map
          (Reply.map (fun handle => { handle.value with module := module.id })
            fun handle => { handle.value with module := module.id }) =
        .ok (.type (some right.value)) ∧
      left = right := by
  have evaluated : Module.listed.toOption.any findsAgain = true := by decide +kernel
  rcases (Option.any_eq_true _ _).mp evaluated with ⟨module, made, finds⟩
  simp only [findsAgain, Bool.and_eq_true, decide_eq_true_eq] at finds
  obtain ⟨⟨number, types⟩, finds⟩ := finds
  split at finds
  case h_2 => cases finds
  case h_1 left token right replies =>
    obtain ⟨rfl, sameToken⟩ : token = ⟨0x06000001⟩ ∧ left.value.token = right.value.token := by
      simpa using finds
    have same : module.SameSource { module with id := 2 } := ⟨rfl, rfl⟩
    obtain ⟨answers, handles⟩ := askAll_transparent same (by omega) repeating
    rw [replies] at answers handles
    obtain ⟨_, _, answer, _⟩ := by simpa only [repeating, List.map, List.cons.injEq] using answers
    refine ⟨module, { module with id := 2 }, left, right, Error.toOption_eq_some.mp made, same, ?_,
      replies, answer.symm, ?_⟩
    · show module.id ≠ 2
      rw [number]
      decide
    · exact ((handles (.type (some left)) (.type (some right)) (by simp) (by simp)).1 left
        (by simp [Reply.types]) right (by simp [Reply.types])).1 sameToken

end Interned

end CilLoader
