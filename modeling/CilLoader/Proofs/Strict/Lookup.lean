import CilLoader.Metadata.Lookup
import CilLoader.Proofs.Strict.Tables

/-!
# Strict searches

Lists of rows and ranges of rows with a key, looked up with strict sums, differences and bounds.
Since row counts leave room for one more row, the bounds of a search never leave the range of 32-bit
words: the lower one starts at one, so that no middle is zero, and the upper one is at most one more
than the row count. The strict searches never fault and find what the searches find.
-/

namespace CilLoader

namespace Strict

/-! ## Binary search -/

def middle (low high : Nat) : Strict Nat := do
  fit UInt32.size (low + (← minus high low) / 2)

def boundary (isBefore : Nat → Strict Bool) : (bound low high : Nat) → Strict Nat
  | 0, low, _ => return low
  | bound + 1, low, high =>
    if low < high then do
      let middle ← middle low high
      if ← isBefore middle then boundary isBefore bound (← fit UInt32.size (middle + 1)) high
      else boundary isBefore bound low middle
    else return low

def last? (probe : Nat → Strict (Option Bool)) :
    (bound low high : Nat) → (found : Option Nat) → Strict (Option Nat)
  | 0, _, _, found => return found
  | bound + 1, low, high, found =>
    if low ≤ high then do
      let middle ← middle low high
      match ← probe middle with
      | none => return none
      | some true => last? probe bound (← fit UInt32.size (middle + 1)) high (some middle)
      | some false => last? probe bound low (← minus middle 1) found
    else return found

theorem middle_eq {low high : Nat} (ordered : low ≤ high) (word : high < UInt32.size) :
    middle low high = .ok (low + (high - low) / 2) := by
  rw [middle, bind_of_ok (minus_of_le ordered)]
  exact fit_of_lt (by omega)

theorem boundary_eq {isBefore : Nat → Strict Bool} {plain : Nat → Bool}
    (same : ∀ position, isBefore position = .ok (plain position)) {bound low high : Nat}
    (word : high < UInt32.size) :
    boundary isBefore bound low high = .ok (Bisect.boundaryWithin plain bound low high) := by
  induction bound generalizing low high with
  | zero => rfl
  | succ bound induction =>
      rw [boundary, Bisect.boundaryWithin]
      split
      · rw [bind_of_ok (middle_eq (by omega) word), bind_of_ok (same _)]
        dsimp only
        split
        · rw [bind_of_ok (fit_of_lt (by omega))]
          exact induction word
        · exact induction (by omega)
      · rfl

theorem last?_eq {probe : Nat → Strict (Option Bool)} {plain : Nat → Option Bool}
    (same : ∀ position, probe position = .ok (plain position)) {bound low high : Nat}
    {found : Option Nat} (positive : 1 ≤ low) (word : high + 1 < UInt32.size) :
    last? probe bound low high found = .ok (Bisect.lastWithin plain bound low high found) := by
  -- The lower bound never goes down, so that it stays positive and with it every middle.
  induction bound generalizing low high found with
  | zero => rfl
  | succ bound induction =>
      rw [last?, Bisect.lastWithin]
      split
      · rw [bind_of_ok (middle_eq (by omega) (by omega)), bind_of_ok (same _)]
        dsimp only
        rcases plain (low + (high - low) / 2) with _ | _ | _
        · rfl
        · exact (bind_of_ok (minus_of_le (by omega)) _).trans (induction positive (by omega))
        · exact (bind_of_ok (fit_of_lt (by omega)) _).trans (induction (by omega) word)
      · rfl

/-! ## Rows with a key -/

section Rows

variable {ρ : Type} [Row ρ]

def keyAt (table : Table ρ) (key : ρ → Nat) (rid : Nat) : Strict Nat := do
  match ← row? table rid with
  | some row => return key row
  | none => return 0xFFFFFFFF

def equalRange (table : Table ρ) (key : ρ → Nat) (value : Nat) : Strict RowRange := do
  let stop ← fit UInt32.size (table.rowCount + 1)
  let first ← boundary (fun rid => return (← keyAt table key rid) < value) (stop - 1) 1 stop
  let last ← boundary (fun rid => return (← keyAt table key rid) ≤ value) (stop - 1) 1 stop
  return ⟨first, last⟩

def getAll (table : Table ρ) (range : RowRange) : Strict (List ρ) :=
  return (← range.toList.mapM (row? table)).filterMap id

variable {table : Table ρ}

theorem keyAt_rest (inside : table.Inside) (key : ρ → Nat) (rid : Nat) :
    keyAt table.rest key rid = .ok (table.keyAt key rid) := by
  rw [keyAt, bind_of_ok (row?_rest inside rid), Table.keyAt]
  cases table.get? rid <;> rfl

theorem equalRange_rest (inside : table.Inside) (key : ρ → Nat) (value : Nat) :
    equalRange table.rest key value = .ok (table.equalRange key value) := by
  have word : table.rest.rowCount + 1 < UInt32.size :=
    Nat.lt_of_le_of_lt inside.rowCount (by decide)
  have below (rid : Nat) :
      (do return decide ((← keyAt table.rest key rid) < value) : Strict Bool) =
        .ok (decide (table.keyAt key rid < value)) := by
    rw [bind_of_ok (keyAt_rest inside key rid)]
    rfl
  have upTo (rid : Nat) :
      (do return decide ((← keyAt table.rest key rid) ≤ value) : Strict Bool) =
        .ok (decide (table.keyAt key rid ≤ value)) := by
    rw [bind_of_ok (keyAt_rest inside key rid)]
    rfl
  rw [equalRange, bind_of_ok (fit_of_lt word), bind_of_ok (boundary_eq below word),
    bind_of_ok (boundary_eq upTo word)]
  rfl

theorem getAll_rest (inside : table.Inside) (range : RowRange) :
    getAll table.rest range = .ok (table.getAll range) := by
  rw [getAll, bind_of_ok (mapM_eq_ok fun rid _ => row?_rest inside rid), Table.getAll]
  rw [List.filterMap_map]
  rfl

end Rows

end Strict

end CilLoader
