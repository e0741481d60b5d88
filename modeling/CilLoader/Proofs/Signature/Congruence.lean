import CilLoader.Signature.Descent

/-!
# What the grammar of signatures keeps

Much of what holds of the readers of signatures follows from how types and methods are composed.
Take a property of readers, or a relation between two kinds of them, that plain decoders have and
that sequences of steps keep. If it holds of whatever reads the types inside, it holds of the whole.
Only the mark in front of a parameter is looked at ahead, and has to be considered for each relation
by itself.
-/

namespace CilLoader

def Error.isRecursionLimit : Error → Bool
  | recursionLimit _ => true
  | _ => false

/-- The answer is that the nesting goes too deep. -/
def ranOut {α : Type} : Except Error α → Bool
  | .ok _ => false
  | .error error => error.isRecursionLimit

namespace Decoder

/-- The decoder reads byte after byte, and fails only on bytes that it has read. -/
inductive Plain : {α : Type} → Decoder α → Prop where
  | succeed {α : Type} (value : α) : Plain (succeed value)
  | refuse {α : Type} (cause : Malformation) : Plain (fail (.malformed cause) : Decoder α)
  | byte : Plain byte
  | bind {α β : Type} {first : Decoder α} {next : α → Decoder β} :
    Plain first → (∀ value, Plain (next value)) → Plain (first >>= next)

variable {α β : Type}

theorem Plain.map {decoder : Decoder α} (plain : decoder.Plain) (change : α → β) :
    Plain (decoder >>= fun value => pure (change value)) :=
  plain.bind fun value => .succeed (change value)

theorem plain_moreBytes (count value : Nat) : Plain (moreBytes count value) := by
  induction count generalizing value with
  | zero => exact .succeed value
  | succ count induction => exact Plain.byte.bind fun next => induction _

theorem plain_compressedSized : Plain compressedSized := by
  refine Plain.byte.bind fun first => ?_
  split
  · exact .refuse _
  · exact (plain_moreBytes _ _).map _

theorem plain_compressed : Plain compressed :=
  plain_compressedSized.map Prod.fst

theorem plain_compressedSigned : Plain compressedSigned :=
  plain_compressedSized.map fun sized => Compressed.unrotate sized.2 sized.1

theorem plain_compressedToken : Plain compressedToken := by
  refine plain_compressed.bind fun value => ?_
  split
  · exact .refuse _
  · exact .succeed _

theorem Plain.times {item : Decoder α} (plain : item.Plain) (count : Nat) :
    Plain (times count item) := by
  induction count with
  | zero => exact .succeed []
  | succ count induction => exact plain.bind fun first => induction.map (first :: ·)

theorem Plain.counted {item : Decoder α} (plain : item.Plain) : Plain (counted item) :=
  plain_compressed.bind fun count => plain.times count

/-- The decoder never goes back, and never runs out of room. -/
def Steady (decoder : Decoder α) : Prop :=
  ∀ data position, position ≤ (decoder data position).2 ∧ ranOut (decoder data position).1 = false

theorem Plain.steady {decoder : Decoder α} (plain : decoder.Plain) : Steady decoder := by
  intro data position
  induction plain generalizing position with
  | succeed value => exact ⟨Nat.le_refl position, rfl⟩
  | refuse cause => exact ⟨Nat.le_refl position, rfl⟩
  | byte =>
      rw [Decoder.byte, number]
      split
      · exact ⟨Nat.le_add_right position 1, rfl⟩
      · exact ⟨Nat.le_refl position, rfl⟩
  | @bind _ _ first' _ _ _ first next =>
      have begun := first position
      rw [bind_apply]
      rcases outcome : first' data position with ⟨_ | value, middle⟩
      · rw [outcome] at begun
        exact begun
      · rw [outcome] at begun
        have ended := next value middle
        exact ⟨Nat.le_trans begun.1 ended.1, ended.2⟩

end Decoder

namespace Grammar

open Decoder

/-! ## The grammar of decoders -/

theorem times_eq {α : Type} (count : Nat) (item : Decoder α) :
    Grammar.times count item = Decoder.times count item := by
  induction count with
  | zero => rfl
  | succ count induction =>
      rw [Grammar.times, induction]
      rfl

theorem methodOver_eq (type : Decoder TypeSignature) :
    Grammar.methodOver type = Decoder.methodOver type := by
  simp only [Grammar.methodOver, times_eq]
  rfl

theorem genericOver_eq (type : Decoder TypeSignature) :
    Grammar.genericOver type = Decoder.genericOver type := by
  simp only [Grammar.genericOver, times_eq]
  rfl

theorem typeBody_eq (type : Decoder TypeSignature) (code : Nat) :
    Grammar.typeBody type code = Decoder.typeBody type code := by
  simp only [Grammar.typeBody, methodOver_eq, genericOver_eq]
  rfl

/-! ## Relations that are kept -/

/-- Plain decoders are related to themselves, and sequences of related steps are related. -/
structure Congruence {m n : Type → Type} [Monad m] [Monad n] [MonadLiftT Decoder m]
    [MonadLiftT Decoder n] (Related : (α : Type) → m α → n α → Prop) : Prop where
  plain : ∀ {α : Type} {decoder : Decoder α}, decoder.Plain →
    Related α (liftM decoder) (liftM decoder)
  succeed : ∀ {α : Type} (value : α), Related α (pure value) (pure value)
  bind : ∀ {α β : Type} {first : m α} {other : n α} {next : α → m β} {otherNext : α → n β},
    Related α first other → (∀ value, Related β (next value) (otherNext value)) →
      Related β (first >>= next) (other >>= otherNext)

theorem Congruence.branch {m n : Type → Type} {Related : (α : Type) → m α → n α → Prop} {α : Type}
    {condition : Prop} [Decidable condition] {accepted refused : m α}
    {otherAccepted otherRefused : n α} (whenAccepted : Related α accepted otherAccepted)
    (whenRefused : Related α refused otherRefused) :
    Related α (if condition then accepted else refused)
      (if condition then otherAccepted else otherRefused) := by
  split
  · exact whenAccepted
  · exact whenRefused

namespace Congruence

variable {m n : Type → Type} [Monad m] [Monad n] [MonadLiftT Decoder m] [MonadLiftT Decoder n]
  {Related : (α : Type) → m α → n α → Prop} {α β : Type}

theorem map (congruence : Congruence Related) {reading : m α} {other : n α}
    (related : Related α reading other) (change : α → β) :
    Related β (reading >>= fun value => pure (change value))
      (other >>= fun value => pure (change value)) :=
  congruence.bind related fun value => congruence.succeed (change value)

theorem times (congruence : Congruence Related) {item : m α} {other : n α}
    (related : Related α item other) (count : Nat) :
    Related (List α) (times count item) (times count other) := by
  induction count with
  | zero => exact congruence.succeed []
  | succ count induction =>
      exact congruence.bind related fun first => congruence.map induction (first :: ·)

variable {type : m TypeSignature} {other : n TypeSignature}

/-- If it does not hurt to look at the mark, it does not hurt to step over it. -/
theorem parameter (congruence : Congruence Related)
    (peeked : Related Nat (liftM peek) (liftM peek)) (related : Related _ type other) :
    Related TypeSignature (parameter type) (parameter other) :=
  congruence.bind peeked fun _ =>
    branch (congruence.bind (congruence.plain .byte) fun _ => related) related

theorem methodOver (congruence : Congruence Related) (type : m TypeSignature)
    (other : n TypeSignature) (related : Related _ type other)
    (relatedParameter : Related _ (Grammar.parameter type) (Grammar.parameter other)) :
    Related MethodSignature (methodOver type) (methodOver other) := by
  refine congruence.bind (congruence.plain .byte) fun convention => ?_
  have goesOn : ∀ genericCount : Nat, Related MethodSignature
      (do
        let parameterCount ← compressed
        let returnType ← type
        let parameters ← Grammar.times parameterCount (Grammar.parameter type)
        return .mk (CallingConvention.ofByte convention) genericCount returnType parameters)
      (do
        let parameterCount ← compressed
        let returnType ← other
        let parameters ← Grammar.times parameterCount (Grammar.parameter other)
        return .mk (CallingConvention.ofByte convention) genericCount returnType parameters) := by
    intro genericCount
    refine congruence.bind (congruence.plain plain_compressed) fun parameterCount => ?_
    refine congruence.bind related fun returnType => ?_
    exact congruence.map (congruence.times relatedParameter parameterCount) _
  exact branch (congruence.bind (congruence.plain plain_compressed) goesOn)
    (congruence.bind (congruence.succeed 0) goesOn)

theorem arrayOver (congruence : Congruence Related) (related : Related _ type other) :
    Related TypeSignature (arrayOver type) (arrayOver other) := by
  refine congruence.bind related fun element => ?_
  refine congruence.bind (congruence.plain plain_compressed) fun rank => ?_
  refine congruence.bind (congruence.plain plain_compressed.counted) fun sizes => ?_
  exact congruence.map (congruence.plain plain_compressedSigned.counted) _

theorem genericOver (congruence : Congruence Related) (related : Related _ type other) :
    Related TypeSignature (genericOver type) (genericOver other) := by
  refine congruence.bind (congruence.plain .byte) fun head => ?_
  split
  · exact congruence.plain (.refuse _)
  · refine congruence.bind (congruence.plain plain_compressedToken) fun token => ?_
    refine congruence.bind (congruence.plain plain_compressed) fun count => ?_
    exact branch (congruence.plain (.refuse _))
      (congruence.map (congruence.times related count) _)

theorem typeBody (congruence : Congruence Related) (type : m TypeSignature)
    (other : n TypeSignature) (related : Related _ type other)
    (relatedParameter : Related _ (Grammar.parameter type) (Grammar.parameter other))
    (code : Nat) : Related TypeSignature (typeBody type code) (typeBody other code) := by
  rw [Grammar.typeBody, Grammar.typeBody]
  split
  · exact congruence.succeed _
  · exact congruence.map (congruence.plain plain_compressedToken) _
  · refine branch (congruence.map related _) ?_
    refine branch (congruence.map related _) ?_
    refine branch (congruence.map related _) ?_
    refine branch (congruence.map related _) ?_
    refine branch (congruence.map (congruence.plain plain_compressed) _) ?_
    refine branch (congruence.map (congruence.plain plain_compressed) _) ?_
    refine branch (congruence.arrayOver related) ?_
    refine branch (congruence.genericOver related) ?_
    exact branch (congruence.map (congruence.methodOver type other related relatedParameter) _)
      (congruence.plain (.refuse _))

end Congruence

end Grammar

end CilLoader
