import CilLoader.Proofs.Signature.Extent

/-!
# Checking types while they are read

A reader may check each type as soon as it has been read, and refuse it. Such a reader reads exactly
those signatures all of whose types pass the check, and reads them like one that checks nothing. So
checks of types can be left to the time when the whole signature has been read.
-/

namespace CilLoader

namespace Decoder

open SignatureCode

variable {α β : Type}

/-! ## Filters -/

/-- The narrow decoder reads what the wide one reads, as far as the values are kept. -/
def Filters (keep : α → Prop) (narrow wide : Decoder α) : Prop :=
  ∀ data position value stop, narrow data position = (.ok value, stop) ↔
    wide data position = (.ok value, stop) ∧ keep value

/-- No value is kept. -/
def Discards (keep : α → Prop) (decoder : Decoder α) : Prop :=
  ∀ data position value stop, decoder data position = (.ok value, stop) → ¬keep value

section Filters

variable {keep : α → Prop} {total : β → Prop}

theorem discards_succeed {value : α} (dropped : ¬keep value) : Discards keep (succeed value) := by
  intro data position result stop read
  cases read
  exact dropped

theorem Discards.bind {first : Decoder α} {next : α → Decoder β}
    (discards : ∀ value, Discards total (next value)) : Discards total (first >>= next) := by
  intro data position result stop read
  obtain ⟨value, middle, _, readNext⟩ := bind_eq_ok.mp read
  exact discards value data middle result stop readNext

theorem filters_fail (error : Error) : Filters keep (fail error) (fail error) := by
  intro data position value stop
  constructor
  · intro read
    cases read
  · intro read
    cases read.1

theorem filters_succeed {value : α} (keeps : keep value) :
    Filters keep (succeed value) (succeed value) := by
  intro data position result stop
  rw [iff_self_and]
  intro read
  cases read
  exact keeps

theorem filters_self {decoder : Decoder α} : Filters (fun _ => True) decoder decoder := by
  intro data position value stop
  simp

/-- What is dropped in the beginning must not be kept in the end. -/
theorem Filters.bind {narrow wide : Decoder α} {next wideNext : α → Decoder β}
    (filters : Filters keep narrow wide)
    (kept : ∀ value, keep value → Filters total (next value) (wideNext value))
    (dropped : ∀ value, ¬keep value → Discards total (wideNext value)) :
    Filters total (narrow >>= next) (wide >>= wideNext) := by
  intro data position result stop
  simp only [bind_eq_ok]
  constructor
  · intro ⟨value, middle, read, readNext⟩
    obtain ⟨read, keeps⟩ := (filters data position value middle).mp read
    obtain ⟨readNext, keepsAll⟩ := (kept value keeps data middle result stop).mp readNext
    exact ⟨⟨value, middle, read, readNext⟩, keepsAll⟩
  · intro ⟨⟨value, middle, read, readNext⟩, keepsAll⟩
    by_cases keeps : keep value
    · exact ⟨value, middle, (filters data position value middle).mpr ⟨read, keeps⟩,
        (kept value keeps data middle result stop).mpr ⟨readNext, keepsAll⟩⟩
    · exact absurd keepsAll (dropped value keeps data middle result stop readNext)

/-- A first step that both decoders take. -/
theorem Filters.after {first : Decoder α} {next wideNext : α → Decoder β}
    (filters : ∀ value, Filters total (next value) (wideNext value)) :
    Filters total (first >>= next) (first >>= wideNext) :=
  filters_self.bind (fun value _ => filters value) fun _ never => absurd trivial never

theorem Filters.map {narrow wide : Decoder α} {change : α → β} (filters : Filters keep narrow wide)
    (same : ∀ value, total (change value) ↔ keep value) :
    Filters total (narrow >>= fun value => pure (change value))
      (wide >>= fun value => pure (change value)) := by
  apply filters.bind
  · intro value keeps
    exact filters_succeed ((same value).mpr keeps)
  · intro value drops
    exact discards_succeed fun keeps => drops ((same value).mp keeps)

theorem Filters.times {narrow wide : Decoder α} (filters : Filters keep narrow wide) (count : Nat) :
    Filters (fun values => ∀ value ∈ values, keep value) (times count narrow)
      (times count wide) := by
  induction count with
  | zero => exact filters_succeed (by simp)
  | succ count induction =>
      apply filters.bind
      · intro first keeps
        apply induction.map
        simp [keeps]
      · intro first drops
        exact Discards.bind fun rest => discards_succeed (by simp [drops])

end Filters

/-! ## Checks -/

section Checks

variable (accepts : TypeSignature → Bool) (refusal : Error)

def checked (type : Decoder TypeSignature) : Decoder TypeSignature := do
  let read ← type
  if accepts read then return read else fail refusal

/-- Reads a type like `typeWithin`, and refuses each type inside that is not accepted. -/
def checkedWithin : (room : Nat) → Decoder TypeSignature
  | 0 => fail (.recursionLimit depthLimit)
  | room + 1 => do
    let code ← typeCode
    checked accepts refusal (typeBody (checkedWithin room) code)

def checkedMethodWithin (room : Nat) : Decoder MethodSignature :=
  methodOver (checkedWithin accepts refusal room)

/-- The type passes the check at all depths. -/
def Passes (type : TypeSignature) : Prop :=
  ∀ part ∈ type.parts, accepts part

/-- The types inside the type pass the check. -/
def PassesInside (type : TypeSignature) : Prop :=
  ∀ part ∈ type.parts.tail, accepts part

def PassesMethod (method : MethodSignature) : Prop :=
  ∀ part ∈ method.parts, accepts part

variable {accepts refusal} {narrow wide : Decoder TypeSignature}

theorem forall_mem_partsOfAll {types : List TypeSignature} :
    (∀ part ∈ partsOfAll types, accepts part) ↔ ∀ type ∈ types, Passes accepts type := by
  induction types with
  | nil => simp [partsOfAll]
  | cons type types induction =>
      rw [partsOfAll, List.forall_mem_append, List.forall_mem_cons, induction, Passes]

theorem passesMethod_mk_iff {convention : CallingConvention} {genericCount : Nat}
    {returnType : TypeSignature} {parameters : List TypeSignature} :
    PassesMethod accepts (.mk convention genericCount returnType parameters) ↔
      Passes accepts returnType ∧ ∀ type ∈ parameters, Passes accepts type := by
  rw [PassesMethod, MethodSignature.parts, List.forall_mem_append, forall_mem_partsOfAll, Passes]

theorem passes_iff (type : TypeSignature) :
    Passes accepts type ↔ accepts type ∧ PassesInside accepts type := by
  rw [Passes, type.parts_eq_cons, List.forall_mem_cons, PassesInside]

theorem filters_checked (filters : Filters (PassesInside accepts) narrow wide) :
    Filters (Passes accepts) (checked accepts refusal narrow) wide := by
  intro data position type stop
  rw [passes_iff]
  constructor
  · intro read
    obtain ⟨inside, middle, read, check⟩ := bind_eq_ok.mp read
    split at check
    case isTrue accepted =>
      cases check
      obtain ⟨read, passes⟩ := (filters data position type stop).mp read
      exact ⟨read, accepted, passes⟩
    case isFalse => cases check
  · intro ⟨read, accepted, passes⟩
    have inside := (filters data position type stop).mpr ⟨read, passes⟩
    exact bind_eq_ok.mpr ⟨type, stop, inside, by rw [if_pos accepted]; rfl⟩

section Grammar

theorem filters_parameter (filters : Filters (Passes accepts) narrow wide) :
    Filters (Passes accepts) (parameter narrow) (parameter wide) := by
  apply Filters.after
  intro code
  split
  · exact Filters.after fun _ => filters
  · exact filters

theorem filters_methodOver (filters : Filters (Passes accepts) narrow wide) :
    Filters (PassesMethod accepts) (methodOver narrow) (methodOver wide) := by
  apply Filters.after
  intro convention
  have goesOn : ∀ genericCount : Nat, Filters (PassesMethod accepts)
      (do
        let parameterCount ← compressed
        let returnType ← narrow
        let parameters ← times parameterCount (parameter narrow)
        return .mk (CallingConvention.ofByte convention) genericCount returnType parameters)
      (do
        let parameterCount ← compressed
        let returnType ← wide
        let parameters ← times parameterCount (parameter wide)
        return .mk (CallingConvention.ofByte convention) genericCount returnType parameters) := by
    intro genericCount
    apply Filters.after
    intro parameterCount
    apply filters.bind
    · intro returnType passes
      apply ((filters_parameter filters).times parameterCount).map
      intro parameters
      simp [passesMethod_mk_iff, passes]
    · intro returnType fails
      apply Discards.bind
      intro parameters
      apply discards_succeed
      simp [passesMethod_mk_iff, fails]
  dsimp only
  split
  · exact Filters.after goesOn
  · exact Filters.after goesOn

theorem filters_leaf {decoder : Decoder α} {leaf : α → TypeSignature}
    (single : ∀ value, (leaf value).parts.tail = []) :
    Filters (PassesInside accepts) (do return leaf (← decoder)) (do return leaf (← decoder)) := by
  apply filters_self.map
  intro value
  simp [PassesInside, single]

theorem filters_arrayOver (filters : Filters (Passes accepts) narrow wide) :
    Filters (PassesInside accepts) (arrayOver narrow) (arrayOver wide) := by
  apply filters.bind
  · intro element passes
    apply Filters.after
    intro rank
    apply Filters.after
    intro sizes
    apply filters_self.map
    intro lowerBounds
    exact iff_true_intro passes
  · intro element fails
    apply Discards.bind
    intro rank
    apply Discards.bind
    intro sizes
    apply Discards.bind
    intro lowerBounds
    exact discards_succeed fails

theorem filters_genericOver (filters : Filters (Passes accepts) narrow wide) :
    Filters (PassesInside accepts) (genericOver narrow) (genericOver wide) := by
  apply Filters.after
  intro head
  split
  · exact filters_fail _
  · apply Filters.after
    intro token
    apply Filters.after
    intro count
    split
    · exact filters_fail _
    · apply (filters.times count).map
      intro arguments
      exact forall_mem_partsOfAll

theorem filters_typeBody (filters : Filters (Passes accepts) narrow wide) (code : Nat) :
    Filters (PassesInside accepts) (typeBody narrow code) (typeBody wide code) := by
  rw [typeBody, typeBody]
  split
  · exact filters_succeed (by simp [PassesInside, TypeSignature.parts])
  · exact filters_leaf fun _ => rfl
  · split
    · exact filters.map fun _ => Iff.rfl
    split
    · exact filters.map fun _ => Iff.rfl
    split
    · exact filters.map fun _ => Iff.rfl
    split
    · exact filters.map fun _ => Iff.rfl
    split
    · exact filters_leaf fun _ => rfl
    split
    · exact filters_leaf fun _ => rfl
    split
    · exact filters_arrayOver filters
    split
    · exact filters_genericOver filters
    split
    · exact (filters_methodOver filters).map fun _ => Iff.rfl
    · exact filters_fail _

end Grammar

theorem filters_checkedWithin (room : Nat) :
    Filters (Passes accepts) (checkedWithin accepts refusal room) (typeWithin room) := by
  induction room with
  | zero => exact filters_fail _
  | succ room induction =>
      rw [typeWithin_succ]
      apply Filters.after
      intro code
      exact filters_checked (filters_typeBody induction code)

theorem filters_checkedMethodWithin (room : Nat) :
    Filters (PassesMethod accepts) (checkedMethodWithin accepts refusal room)
      (methodWithin room) :=
  filters_methodOver (filters_checkedWithin room)

end Checks

end Decoder

namespace SignatureReader

theorem read_filters_iff {α : Type} {keep : α → Prop} {narrow wide : Nat → Decoder α}
    (filters : ∀ room, Decoder.Filters keep (narrow room) (wide room))
    {reader after : SignatureReader} {value : α} :
    reader.read narrow = (.ok value, after) ↔
      reader.read wide = (.ok value, after) ∧ keep value := by
  rw [read_eq_ok_iff, read_eq_ok_iff, filters]
  exact and_right_comm

end SignatureReader

end CilLoader
