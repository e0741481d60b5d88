/-!
# Checked words

Positions in memory are words of 64 bits. Where a computation with them is not guarded, a result
that no word has room for makes the program panic, and then there is no answer, not even an error.
-/

namespace CilLoader

/-- Why a computation breaks off. -/
inductive Panic where
  | addOverflow
  | multiplyOverflow
deriving DecidableEq, Repr

def Panic.message : Panic → String
  | addOverflow => "attempt to add with overflow"
  | multiplyOverflow => "attempt to multiply with overflow"

namespace Word

def orPanic (panic : Panic) (value : Nat) : Except Panic Nat :=
  if value < UInt64.size then .ok value else .error panic

def add (left right : Nat) : Except Panic Nat :=
  orPanic .addOverflow (left + right)

def multiply (left right : Nat) : Except Panic Nat :=
  orPanic .multiplyOverflow (left * right)

variable {left right : Nat}

theorem add_of_lt (room : left + right < UInt64.size) : add left right = .ok (left + right) :=
  if_pos room

theorem add_of_le (large : UInt64.size ≤ left + right) :
    add left right = .error .addOverflow :=
  if_neg (Nat.not_lt.mpr large)

theorem multiply_of_lt (room : left * right < UInt64.size) :
    multiply left right = .ok (left * right) :=
  if_pos room

theorem multiply_of_le (large : UInt64.size ≤ left * right) :
    multiply left right = .error .multiplyOverflow :=
  if_neg (Nat.not_lt.mpr large)

end Word

end CilLoader
