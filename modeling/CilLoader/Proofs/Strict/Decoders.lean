import CilLoader.Bytes.Compressed
import CilLoader.Proofs.Strict.Operations

/-!
# Strict runs of decoders

A decoder looks at the size of the data before it reads, so its reads cannot leave the data. To say
so for every decoder of the library, it is written down how a decoder is put together, and run with
strict reads. The strict run never faults and ends as the decoder does. Where it stops lies inside
the data, and it does not matter whether it reads the data or only the rest of them.
-/

namespace CilLoader

namespace Decoder

/-- How a decoder is put together from reads that look at the size of the data first. -/
inductive Guarded : {α : Type} → Decoder α → Type 1 where
  /-- What comes out of a computation beside the data, a look into a heap for instance. -/
  | outcome {plain : Except Error α} (attempt : Attempt α) (yields : attempt.Yields plain) :
    Guarded (ofExcept plain)
  | hasMore : Guarded hasMore
  | peek : Guarded peek
  | number (width : Nat) : Guarded (number width)
  | bytes (length : Nat) : Guarded (bytes length)
  | andThen {first : Decoder α} {next : α → Decoder β} :
    Guarded first → (∀ value, Guarded (next value)) → Guarded (first >>= next)
  /-- The decoder may depend on how many bytes are left. -/
  | measured {decoder : Nat → Decoder α} : (∀ left, Guarded (decoder left)) →
    Guarded fun data position => decoder (data.size - position) data position

namespace Guarded

variable {α β σ : Type} {decoder : Decoder α} {data : Bytes} {position start : Nat}

/-- Runs a decoder with strict reads. -/
def strictly : {α : Type} → {decoder : Decoder α} → Guarded decoder → Bytes → Nat →
    Strict (Except Error α × Nat)
  | _, _, outcome attempt _, _, position => do return (← attempt.run, position)
  | _, _, hasMore, data, position => return Decoder.hasMore data position
  | _, _, peek, data, position => return Decoder.peek data position
  | _, _, number width, data, position =>
    if position + width ≤ data.size then do
      let window ← Strict.slice data position (position + width)
      return (.ok (window.number 0 width), position + width)
    else return (.error .outOfBounds, position)
  | _, _, bytes length, data, position =>
    if position + length ≤ data.size then do
      let window ← Strict.slice data position (position + length)
      return (.ok window, position + length)
    else return (.error .outOfBounds, position)
  | _, _, andThen first next, data, position => do
    match ← first.strictly data position with
    | (.ok value, stop) => (next value).strictly data stop
    | (.error error, stop) => return (.error error, stop)
  | _, _, measured next, data, position => (next (data.size - position)).strictly data position

theorem strictly_eq (guarded : Guarded decoder) (data : Bytes) (position : Nat) :
    guarded.strictly data position = .ok (decoder data position) := by
  -- The only slices are those that the comparison in front of them allows.
  induction guarded generalizing position with
  | @outcome _ plain attempt yields =>
      rw [strictly, show attempt.run = .ok plain from yields]
      cases plain <;> rfl
  | hasMore => rfl
  | peek => rfl
  | number width =>
      rw [strictly, Decoder.number]
      split
      · rename_i inside
        rw [Strict.slice_of_le (Nat.le_add_right _ _) inside]
        exact congrArg (fun value => Except.ok (Except.ok value, position + width))
          (Bytes.number_window inside)
      · rfl
  | bytes length =>
      rw [strictly, Decoder.bytes]
      split
      · rename_i inside
        rw [Strict.slice_of_le (Nat.le_add_right _ _) inside]
        rfl
      · rfl
  | @andThen _ _ first' _ _ _ first next =>
      rw [strictly, first, bind_apply]
      rcases first' data position with ⟨_ | value, stop⟩
      · rfl
      · exact next value stop
  | measured _ next => exact next _ position

/-- A decoder that starts inside the data stops inside them. -/
theorem stop_le (guarded : Guarded decoder) (inside : position ≤ data.size) :
    (decoder data position).2 ≤ data.size := by
  induction guarded generalizing position with
  | @outcome _ plain => cases plain <;> exact inside
  | hasMore => exact inside
  | peek => rw [Decoder.peek]; split <;> exact inside
  | number width => rw [Decoder.number]; split <;> assumption
  | bytes length => rw [Decoder.bytes]; split <;> assumption
  | andThen _ _ first next =>
      have stop := first inside
      rw [bind_apply]
      split
      · rename_i run
        rw [run] at stop
        exact next _ stop
      · rename_i run
        rw [run] at stop
        exact stop
  | measured _ next => exact next _ inside

/-- A decoder never goes back, not even if it fails. -/
theorem le_stop (guarded : Guarded decoder) (data : Bytes) (position : Nat) :
    position ≤ (decoder data position).2 := by
  induction guarded generalizing position with
  | @outcome _ plain => cases plain <;> exact Nat.le_refl position
  | hasMore => exact Nat.le_refl position
  | peek => rw [Decoder.peek]; split <;> exact Nat.le_refl position
  | number width => rw [Decoder.number]; split <;> simp
  | bytes length => rw [Decoder.bytes]; split <;> simp
  | andThen _ _ first next =>
      have begun := first position
      rw [bind_apply]
      split
      · rename_i run
        rw [run] at begun
        exact Nat.le_trans begun (next _ _)
      · rename_i run
        rw [run] at begun
        exact begun
  | measured _ next => exact next _ position

/-- Reading the data from some position on is reading the rest of them. -/
theorem apply_add (guarded : Guarded decoder) (inside : start ≤ data.size) (position : Nat) :
    decoder data (start + position) =
      Prod.map id (start + ·) (decoder (data.slice start data.size) position) := by
  have size := Bytes.size_tail data start
  induction guarded generalizing position with
  | @outcome _ plain => cases plain <;> rfl
  | hasMore =>
      have same : start + position < data.size ↔ position < data.size - start := by omega
      simp only [Decoder.hasMore, size, Prod.map, id, same]
  | peek =>
      have same : start + position < data.size ↔ position < data.size - start := by omega
      simp only [Decoder.peek, size, same]
      split
      · rename_i bound
        rw [Bytes.byteAt_slice (Nat.le_refl _) (same.mpr bound)]
        rfl
      · rfl
  | number width =>
      have same : start + position + width ≤ data.size ↔ position + width ≤ data.size - start := by
        omega
      simp only [Decoder.number, size, same]
      split
      · rename_i bound
        rw [Bytes.number_slice (Nat.le_refl _) (same.mpr bound)]
        simp [Nat.add_assoc]
      · rfl
  | bytes length =>
      have same :
          start + position + length ≤ data.size ↔ position + length ≤ data.size - start := by
        omega
      simp only [Decoder.bytes, size, same]
      split
      · rename_i bound
        rw [Bytes.slice_slice (by omega)]
        simp [Nat.add_assoc]
      · rfl
  | @andThen _ _ first' next' _ _ first next =>
      rw [bind_apply, bind_apply, first]
      rcases first' (data.slice start data.size) position with ⟨_ | value, stop⟩
      · rfl
      · exact next value stop
  | measured _ next =>
      have same : data.size - (start + position) = data.size - start - position := by omega
      simp only [size, same]
      exact next _ position

/-- What a decoder makes of the data from a position on, with strict reads. -/
def attempt (guarded : Guarded decoder) (data : Bytes) (position : Nat) : Attempt α :=
  ExceptT.mk (Prod.fst <$> guarded.strictly data position)

theorem attempt_yields (guarded : Guarded decoder) (data : Bytes) (position : Nat) :
    (guarded.attempt data position).Yields (decoder data position).1 := by
  rw [Attempt.Yields, attempt, ExceptT.run_mk, strictly_eq]
  rfl

/-! ## Composed decoders -/

def succeed (value : α) : Guarded (succeed value) :=
  outcome (pure value) (.pure value)

def fail (error : Error) : Guarded (fail error : Decoder α) :=
  outcome (throw error) (.throw error)

def ofExcept (plain : Except Error α) : Guarded (ofExcept plain) :=
  outcome (liftM plain) (.ofExcept plain)

def branch {condition : Prop} [Decidable condition] {accepted refused : Decoder α}
    (whenAccepted : Guarded accepted) (whenRefused : Guarded refused) :
    Guarded (if condition then accepted else refused) :=
  if met : condition then by rw [if_pos met]; exact whenAccepted
  else by rw [if_neg met]; exact whenRefused

/-- Two ways to a value that the same reads come after. -/
def either {condition : Prop} [Decidable condition] {accepted refused : Decoder α}
    {next : α → Decoder β} (whenAccepted : Guarded accepted) (whenRefused : Guarded refused)
    (rest : ∀ value, Guarded (next value)) :
    Guarded (if condition then accepted >>= next else refused >>= next) :=
  branch (.andThen whenAccepted rest) (.andThen whenRefused rest)

def byte : Guarded byte :=
  number 1

def times (guarded : Guarded decoder) : (count : Nat) → Guarded (times count decoder)
  | 0 => succeed []
  | count + 1 =>
    .andThen guarded fun _ => .andThen (times guarded count) fun _ => succeed _

def repeatUpTo {step : σ → Decoder σ} (guarded : ∀ state, Guarded (step state)) :
    (bound : Nat) → (state : σ) → Guarded (repeatUpTo bound step state)
  | 0, state => succeed state
  | bound + 1, state =>
    .andThen hasMore fun _ => branch
      (.andThen (guarded state) fun next => repeatUpTo guarded bound next) (succeed state)

def untilEnd {step : σ → Decoder σ} (guarded : ∀ state, Guarded (step state)) (state : σ) :
    Guarded (untilEnd step state) :=
  .measured fun left => repeatUpTo guarded left state

/-! ## Compressed numbers -/

def moreBytes : (count value : Nat) → Guarded (moreBytes count value)
  | 0, value => succeed value
  | count + 1, value => .andThen byte fun next => moreBytes count (value * 256 + next)

def compressedSized : Guarded compressedSized :=
  .andThen byte fun first =>
    match Compressed.width? first with
    | none => fail _
    | some (width, bits) => .andThen (moreBytes (width - 1) bits) fun _ => succeed _

def compressed : Guarded compressed :=
  .andThen compressedSized fun (_, _) => succeed _

def compressedSigned : Guarded compressedSigned :=
  .andThen compressedSized fun (_, _) => succeed _

def compressedToken : Guarded compressedToken :=
  .andThen compressed fun value =>
    match Compressed.tokenTable? (value % 4) with
    | none => fail _
    | some _ => succeed _

end Guarded

end Decoder

end CilLoader
