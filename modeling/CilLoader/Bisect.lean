/-!
# Binary search

Searches in a range of row numbers whose rows are sorted. Each step halves the range, so its length
bounds the number of steps. On unsorted rows the searches still answer something.
-/

namespace CilLoader.Bisect

def boundaryWithin (isBefore : Nat → Bool) : (bound : Nat) → (low high : Nat) → Nat
  | 0, low, _ => low
  | bound + 1, low, high =>
    if low < high then
      let middle := low + (high - low) / 2
      if isBefore middle then boundaryWithin isBefore bound (middle + 1) high
      else boundaryWithin isBefore bound low middle
    else low

/-- The first position from `low` up to `high` at which `isBefore` fails, provided that it holds
exactly up to some position. -/
def boundary (isBefore : Nat → Bool) (low high : Nat) : Nat :=
  boundaryWithin isBefore (high - low) low high

def lastWithin (probe : Nat → Option Bool) : (bound : Nat) → (low high : Nat) →
    (found : Option Nat) → Option Nat
  | 0, _, _, found => found
  | bound + 1, low, high, found =>
    if low ≤ high then
      let middle := low + (high - low) / 2
      match probe middle with
      | none => none
      | some true => lastWithin probe bound (middle + 1) high (some middle)
      | some false => lastWithin probe bound low (middle - 1) found
    else found

/-- The last position from one up to `count` at which the probe answers yes, provided that it does
so exactly up to some position. A probe without an answer ends the search without a result. -/
def last? (probe : Nat → Option Bool) (count : Nat) : Option Nat :=
  lastWithin probe count 1 count none

example : boundary (· < 4) 1 9 = 4 := by decide
example : last? (fun position => some (position ≤ 4)) 9 = some 4 := by decide
example : last? (fun position => if position = 5 then none else some true) 9 = none := by decide

end CilLoader.Bisect
