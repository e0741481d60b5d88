import CilLoader.Error
import CilLoader.Metadata.Lookup

/-!
# Strict operations

The operations of the library are total: a slice past the end of the data is cut short, a difference
stops at zero, a sum grows as far as it has to. Machine words have no such freedom. A strict
operation stops with a fault where the total one would hide that something is wrong, and agrees with
it everywhere else.

Row numbers, offsets and sizes that are stored are words of 32 bits, positions in memory are words
of 64 bits, and the sizes of rows are counted in bytes. A sum that is compared with a bound before
it is used needs no strictness, and neither does one of numbers that are stored in fewer bits.
-/

namespace CilLoader

/-- Why a strict computation stops. -/
inductive Fault where
  | slice (start stop size : Nat)
  | overflow (limit value : Nat)
  | underflow (left right : Nat)
  | clamp (low high : Nat)
deriving DecidableEq, Repr

abbrev Strict : Type → Type :=
  Except Fault

namespace Strict

/-- A slice that lies inside the data. -/
def slice (data : Bytes) (start stop : Nat) : Strict Bytes :=
  if start ≤ stop ∧ stop ≤ data.size then .ok (data.slice start stop)
  else .error (.slice start stop data.size)

/-- The data from a position on, which may be its end. -/
def tail (data : Bytes) (start : Nat) : Strict Bytes :=
  slice data start data.size

/-- A sum or a product whose word has room for the numbers below a limit. -/
def fit (limit value : Nat) : Strict Nat :=
  if value < limit then .ok value else .error (.overflow limit value)

/-- A difference that is not negative. -/
def minus (left right : Nat) : Strict Nat :=
  if right ≤ left then .ok (left - right) else .error (.underflow left right)

/-- Moves a number between two bounds that are in order. -/
def clamp (low high value : Nat) : Strict Nat :=
  if low ≤ high then .ok (CilLoader.clamp low high value) else .error (.clamp low high)

theorem slice_of_le {data : Bytes} {start stop : Nat} (ordered : start ≤ stop)
    (inside : stop ≤ data.size) : slice data start stop = .ok (data.slice start stop) :=
  if_pos ⟨ordered, inside⟩

theorem tail_of_le {data : Bytes} {start : Nat} (inside : start ≤ data.size) :
    tail data start = .ok (data.slice start data.size) :=
  slice_of_le inside (Nat.le_refl _)

theorem fit_of_lt {limit value : Nat} (room : value < limit) : fit limit value = .ok value :=
  if_pos room

theorem minus_of_le {left right : Nat} (ordered : right ≤ left) :
    minus left right = .ok (left - right) :=
  if_pos ordered

theorem clamp_of_le {low high : Nat} (ordered : low ≤ high) (value : Nat) :
    clamp low high value = .ok (CilLoader.clamp low high value) :=
  if_pos ordered

theorem bind_of_ok {first : Strict α} {value : α} (success : first = .ok value)
    (next : α → Strict β) : first >>= next = next value := by
  rw [success]
  rfl

theorem mapM_eq_ok {act : α → Strict β} {plain : α → β} {values : List α}
    (each : ∀ value ∈ values, act value = .ok (plain value)) :
    values.mapM act = .ok (values.map plain) := by
  induction values with
  | nil => rfl
  | cons value values induction =>
      have rest := induction fun other member => each other (List.mem_cons_of_mem _ member)
      rw [List.mapM_cons, each value List.mem_cons_self, rest]
      rfl

end Strict

/-- A strict computation that can also fail in the ways the library provides for. -/
abbrev Attempt : Type → Type :=
  ExceptT Error Strict

namespace Attempt

/-- The attempt runs into no fault, and comes out as given. -/
def Yields (attempt : Attempt α) (outcome : Except Error α) : Prop :=
  attempt.run = .ok outcome

namespace Yields

theorem pure (value : α) : Yields (Pure.pure value : Attempt α) (.ok value) :=
  rfl

theorem throw (error : Error) : Yields (MonadExcept.throw error : Attempt α) (.error error) :=
  rfl

theorem ofExcept (outcome : Except Error α) : Yields (liftM outcome : Attempt α) outcome :=
  rfl

theorem bind {attempt : Attempt α} {outcome : Except Error α} {next : α → Attempt β}
    {plain : α → Except Error β} (first : attempt.Yields outcome)
    (rest : ∀ value, outcome = .ok value → (next value).Yields (plain value)) :
    (attempt >>= next).Yields (outcome >>= plain) := by
  rw [Yields, ExceptT.run_bind, show attempt.run = .ok outcome from first]
  cases outcome with
  | error error => rfl
  | ok value => exact rest value rfl

theorem map {attempt : Attempt α} {outcome : Except Error α} (change : α → β)
    (yields : attempt.Yields outcome) :
    (attempt >>= fun value => Pure.pure (change value)).Yields (outcome.map change) := by
  have changed := bind yields fun value _ => pure (change value)
  cases outcome <;> exact changed

theorem andThen {attempt : Attempt α} {value : α} {next : α → Attempt β} {outcome : Except Error β}
    (first : attempt.Yields (.ok value)) (rest : (next value).Yields outcome) :
    (attempt >>= next).Yields outcome := by
  rw [Yields, ExceptT.run_bind, show attempt.run = .ok (.ok value) from first]
  exact rest

theorem lift {operation : Strict α} {value : α} (success : operation = .ok value) :
    (liftM operation : Attempt α).Yields (.ok value) := by
  rw [success]
  rfl

/-- A strict operation that does not fault can be left out. -/
theorem step {operation : Strict α} {value : α} {next : α → Attempt β} {outcome : Except Error β}
    (success : operation = .ok value) (rest : (next value).Yields outcome) :
    (liftM operation >>= next : Attempt β).Yields outcome := by
  rw [success]
  exact rest

end Yields

end Attempt

namespace Bytes

theorem size_slice {data : Bytes} {start stop : Nat} (inside : stop ≤ data.size) :
    (data.slice start stop).size = stop - start := by
  rw [slice, Array.size_extract, Nat.min_eq_left inside]

theorem size_tail (data : Bytes) (start : Nat) :
    (data.slice start data.size).size = data.size - start :=
  size_slice (Nat.le_refl data.size)

theorem byteAt_slice {data : Bytes} {start stop position : Nat} (inside : stop ≤ data.size)
    (bound : start + position < stop) :
    (data.slice start stop).byteAt position = data.byteAt (start + position) := by
  have within : position < (data.slice start stop).size := by
    rw [size_slice inside]
    omega
  have whole : start + position < data.size := Nat.lt_of_lt_of_le bound inside
  simp only [byteAt, slice] at within ⊢
  rw [Array.getElem?_eq_getElem within, Array.getElem?_eq_getElem whole, Array.getElem_extract]

theorem number_slice {data : Bytes} {start stop position width : Nat} (inside : stop ≤ data.size)
    (bound : start + position + width ≤ stop) :
    (data.slice start stop).number position width = data.number (start + position) width := by
  induction width generalizing position with
  | zero => rfl
  | succ width induction =>
      rw [number, number, byteAt_slice inside (by omega), induction (by omega), Nat.add_assoc]

theorem number_window {data : Bytes} {position width : Nat}
    (inside : position + width ≤ data.size) :
    (data.slice position (position + width)).number 0 width = data.number position width :=
  number_slice inside (Nat.le_refl _)

theorem slice_slice {data : Bytes} {start stop first last : Nat} (bound : start + last ≤ stop) :
    (data.slice start stop).slice first last = data.slice (start + first) (start + last) := by
  rw [slice, slice, slice, Array.extract_extract, Nat.min_eq_left bound]

end Bytes

end CilLoader
