import CilLoader.Bytes
import CilLoader.Error

/-!
# Decoders

A decoder reads a value at a position of some data and says where it stopped. It also says so when
it fails: what a failed decoder has consumed stays consumed. Decoders form a monad, in which the
first failure ends the run.
-/

namespace CilLoader

/-- Reads data from a position on. The new position is reported after a failure too. -/
def Decoder (α : Type) : Type :=
  Bytes → Nat → Except Error α × Nat

namespace Decoder

def succeed (value : α) : Decoder α :=
  fun _ position => (.ok value, position)

def fail (error : Error) : Decoder α :=
  fun _ position => (.error error, position)

def ofExcept : Except Error α → Decoder α
  | .ok value => succeed value
  | .error error => fail error

def andThen (first : Decoder α) (next : α → Decoder β) : Decoder β :=
  fun data position =>
    match first data position with
    | (.ok value, stop) => next value data stop
    | (.error error, stop) => (.error error, stop)

instance : Monad Decoder where
  pure := succeed
  bind := andThen

def position : Decoder Nat :=
  fun _ position => (.ok position, position)

def hasMore : Decoder Bool :=
  fun data position => (.ok (decide (position < data.size)), position)

/-- A number stored in `width` bytes. Consumes nothing if fewer are left. -/
def number (width : Nat) : Decoder Nat :=
  fun data position =>
    if position + width ≤ data.size then
      (.ok (data.number position width), position + width)
    else
      (.error .outOfBounds, position)

def signed (width : Nat) : Decoder Int := do
  return Bytes.signed width (← number width)

def byte : Decoder Nat :=
  number 1

def peek : Decoder Nat :=
  fun data position =>
    if position < data.size then (.ok (data.byteAt position), position)
    else (.error .outOfBounds, position)

/-- The next `length` bytes. Consumes nothing if fewer are left. -/
def bytes (length : Nat) : Decoder Bytes :=
  fun data position =>
    if position + length ≤ data.size then
      (.ok (data.slice position (position + length)), position + length)
    else
      (.error .outOfBounds, position)

/-- Moves to a position, which may be the end of the data but not past it. -/
def seek (target : Nat) : Decoder Unit :=
  fun data position =>
    if target ≤ data.size then (.ok (), target) else (.error .outOfBounds, position)

def times : (count : Nat) → Decoder α → Decoder (List α)
  | 0, _ => succeed []
  | count + 1, decoder => do
    let first ← decoder
    let rest ← times count decoder
    return first :: rest

/-- Repeats a step while data is left, at most `bound` times. -/
def repeatUpTo : (bound : Nat) → (step : σ → Decoder σ) → σ → Decoder σ
  | 0, _, state => succeed state
  | bound + 1, step, state => do
    if ← hasMore then repeatUpTo bound step (← step state) else succeed state

/-- Repeats a step until the data is used up. The step must consume something, so that the number
of bytes left bounds the number of steps. -/
def untilEnd (step : σ → Decoder σ) (start : σ) : Decoder σ :=
  fun data position => repeatUpTo (data.size - position) step start data position

def run (decoder : Decoder α) (data : Bytes) : Except Error α :=
  (decoder data 0).1

@[simp]
theorem pure_apply (value : α) (data : Bytes) (position : Nat) :
    (pure value : Decoder α) data position = (.ok value, position) := rfl

theorem bind_apply (first : Decoder α) (next : α → Decoder β) (data : Bytes) (position : Nat) :
    (first >>= next) data position =
      match first data position with
      | (.ok value, stop) => next value data stop
      | (.error error, stop) => (.error error, stop) := rfl

theorem bind_of_ok {first : Decoder α} {next : α → Decoder β} {data : Bytes}
    {position stop : Nat} {value : α} (success : first data position = (.ok value, stop)) :
    (first >>= next) data position = next value data stop := by
  rw [bind_apply, success]

theorem bind_of_error {first : Decoder α} {next : α → Decoder β} {data : Bytes}
    {position stop : Nat} {error : Error} (failure : first data position = (.error error, stop)) :
    (first >>= next) data position = (.error error, stop) := by
  rw [bind_apply, failure]

theorem bind_eq_ok {first : Decoder α} {next : α → Decoder β} {data : Bytes}
    {position stop : Nat} {result : β} :
    (first >>= next) data position = (.ok result, stop) ↔
      ∃ value middle, first data position = (.ok value, middle) ∧
        next value data middle = (.ok result, stop) := by
  rw [bind_apply]
  rcases first data position with ⟨_ | value, middle⟩
  · simp
  · constructor
    · exact fun read => ⟨value, middle, rfl, read⟩
    · rintro ⟨_, _, ⟨rfl⟩, read⟩
      exact read

theorem map_id_apply (decoder : Decoder α) : id <$> decoder = decoder := by
  funext data position
  show (decoder >>= fun value => pure (id value)) data position = decoder data position
  rw [bind_apply]
  rcases decoder data position with ⟨_ | _, _⟩ <;> rfl

theorem bind_bind (first : Decoder α) (second : α → Decoder β) (third : β → Decoder γ) :
    first >>= second >>= third = first >>= fun value => second value >>= third := by
  funext data position
  simp only [bind_apply]
  rcases first data position with ⟨_ | _, _⟩ <;> rfl

instance : LawfulMonad Decoder :=
  LawfulMonad.mk' Decoder map_id_apply (fun _ _ => rfl) bind_bind

end Decoder

/-- A place in some data from which decoding goes on. -/
structure Cursor where
  data : Bytes
  position : Nat
deriving DecidableEq, Repr

namespace Cursor

def start (data : Bytes) : Cursor :=
  ⟨data, 0⟩

def remaining (cursor : Cursor) : Nat :=
  cursor.data.size - cursor.position

def hasMore (cursor : Cursor) : Bool :=
  cursor.position < cursor.data.size

def run (cursor : Cursor) (decoder : Decoder α) : Except Error α × Cursor :=
  match decoder cursor.data cursor.position with
  | (result, position) => (result, { cursor with position })

theorem run_of_eq {cursor : Cursor} {decoder : Decoder α} {result : Except Error α}
    {position : Nat} (outcome : decoder cursor.data cursor.position = (result, position)) :
    cursor.run decoder = (result, { cursor with position }) := by
  rw [run, outcome]

end Cursor

end CilLoader
