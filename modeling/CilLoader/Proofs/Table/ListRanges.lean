import Mathlib.Data.Nat.Find
import CilLoader.Metadata.Lookup
import CilLoader.Proofs.Table.Gaps

/-!
# Lists of rows and their owners

The list of an owner reaches from its start to the start of the next list, as far as the target
table goes. If the starts ascend, the lists neither overlap nor leave out a row behind the first
start, however many of them are empty. The owner of a row is then the last one that starts at or
before it, and a binary search finds it.
-/

namespace CilLoader

/-! ## Searching the last position -/

namespace Bisect

/-- A position counted from one, if there is any. -/
def position? : Nat → Option Nat
  | 0 => none
  | position + 1 => some (position + 1)

/-- The interval that is still searched keeps the last position or the one behind it. -/
theorem lastWithin_eq {probe : Nat → Option Bool} {count last : Nat}
    (probes : ∀ position, 1 ≤ position → position ≤ count →
      probe position = some (decide (position ≤ last)))
    {bound low high : Nat} (positive : 1 ≤ low) (lowInside : low ≤ last + 1)
    (highInside : last ≤ high) (inside : high ≤ count) (enough : high < low + bound) :
    lastWithin probe bound low high (position? (low - 1)) = position? last := by
  induction bound generalizing low high with
  | zero =>
      have found : low - 1 = last := by omega
      rw [lastWithin, found]
  | succ bound induction =>
      rw [lastWithin]
      split
      case isTrue ordered =>
        dsimp only
        generalize middleIs : low + (high - low) / 2 = middle
        have lowMiddle : low ≤ middle := by omega
        have middleHigh : middle ≤ high := by omega
        rw [probes middle (by omega) (by omega)]
        by_cases before : middle ≤ last
        · have found : some middle = position? (middle + 1 - 1) := by
            cases middle with
            | zero => omega
            | succ middle => rfl
          rw [decide_eq_true before, found]
          exact induction (by omega) (by omega) highInside inside (by omega)
        · rw [decide_eq_false before]
          exact induction positive lowInside (by omega) (by omega) (by omega)
      case isFalse passed =>
        have found : low - 1 = last := by omega
        rw [found]

theorem last?_eq {probe : Nat → Option Bool} {count last : Nat}
    (probes : ∀ position, 1 ≤ position → position ≤ count →
      probe position = some (decide (position ≤ last))) (inside : last ≤ count) :
    last? probe count = position? last :=
  lastWithin_eq probes (Nat.le_refl 1) (by omega) inside (Nat.le_refl count) (by omega)

end Bisect

/-! ## Lists -/

namespace Metadata

variable {ρ : Type} [Row ρ] {metadata : Metadata} {list : ρ → Nat} {target : TableId}

/-- A member of the list of an owner is a row of the target table that does not stand before the
start of the list, nor at or behind the start of the next one. -/
theorem contains_listRange_iff {owner member : Nat} :
    (metadata.listRange list target owner).contains member = true ↔
      1 ≤ member ∧ member ≤ metadata.rowCount target ∧
        ∃ row, metadata.row? ρ owner = some row ∧ list row ≤ member ∧
          ∀ next, metadata.row? ρ (owner + 1) = some next → member < list next := by
  rw [listRange]
  cases present : metadata.table? ρ with
  | none => simp [row?, present, RowRange.contains, RowRange.empty]
  | some table =>
      rw [row?_eq present, row?_eq present]
      dsimp only
      cases table.get? owner with
      | none => simp [RowRange.contains, RowRange.empty]
      | some row =>
          have inside (start stop : Nat) : (RowRange.mk start stop).contains member = true ↔
              start ≤ member ∧ member < stop := by
            rw [RowRange.contains, Bool.and_eq_true, decide_eq_true_eq, decide_eq_true_eq]
          cases table.get? (owner + 1) with
          | none =>
              simp only [inside, clamp, Option.some.injEq, exists_eq_left', reduceCtorEq,
                false_imp_iff, implies_true, and_true]
              omega
          | some next =>
              simp only [inside, clamp, Option.some.injEq, exists_eq_left', forall_eq']
              omega

/-- The lists start one behind the other. Some may start where the next one does. -/
def Ascending (metadata : Metadata) (list : ρ → Nat) : Prop :=
  ∀ rid row next, metadata.row? ρ rid = some row → metadata.row? ρ (rid + 1) = some next →
    list row ≤ list next

instance (metadata : Metadata) (list : ρ → Nat) : Decidable (metadata.Ascending list) :=
  decidable_of_iff
    (∀ rid < metadata.rowCount (Row.table ρ) + 1,
      ((metadata.row? ρ rid).all fun row =>
        (metadata.row? ρ (rid + 1)).all fun next => decide (list row ≤ list next)) = true) (by
        simp only [Option.all_eq_true, decide_eq_true_eq]
        constructor
        · intro ascending rid row next found foundNext
          have inside := (rid_of_row? found).2
          exact ascending rid (by omega) row found next foundNext
        · intro ascending rid _ row found next foundNext
          exact ascending rid row next found foundNext)

theorem Ascending.le (ascending : metadata.Ascending list) (intact : metadata.Intact ρ)
    {rid later : Nat} {row laterRow : ρ} (found : metadata.row? ρ rid = some row)
    (foundLater : metadata.row? ρ later = some laterRow) (ordered : rid ≤ later) :
    list row ≤ list laterRow := by
  induction later, ordered using Nat.le_induction generalizing laterRow with
  | base =>
      rw [found] at foundLater
      cases foundLater
      exact Nat.le_refl _
  | succ later ordered induction =>
      have positive := (rid_of_row? found).1
      have inside := (rid_of_row? foundLater).2
      rcases intact later (by omega) (by omega) with ⟨middle, foundMiddle⟩
      exact Nat.le_trans (induction foundMiddle)
        (ascending later middle laterRow foundMiddle foundLater)

/-- Exactly the owners up to that of a member have lists that start at or before the member. -/
theorem Ascending.le_iff_of_contains (ascending : metadata.Ascending list)
    (intact : metadata.Intact ρ) {owner member rid : Nat} {row : ρ}
    (contains : (metadata.listRange list target owner).contains member = true)
    (found : metadata.row? ρ rid = some row) : list row ≤ member ↔ rid ≤ owner := by
  rcases contains_listRange_iff.mp contains with ⟨_, _, ownerRow, foundOwner, starts, ends⟩
  constructor
  · intro startsBefore
    by_contra later
    have inside := (rid_of_row? found).2
    rcases intact (owner + 1) (by omega) (by omega) with ⟨next, foundNext⟩
    have ordered := ascending.le intact foundNext found (by omega)
    have stops := ends next foundNext
    omega
  · intro ordered
    exact Nat.le_trans (ascending.le intact found foundOwner ordered) starts

theorem Ascending.owner_unique (ascending : metadata.Ascending list) (intact : metadata.Intact ρ)
    {owner other member : Nat}
    (contains : (metadata.listRange list target owner).contains member = true)
    (containsToo : (metadata.listRange list target other).contains member = true) :
    owner = other := by
  rcases contains_listRange_iff.mp contains with ⟨_, _, row, found, starts, _⟩
  rcases contains_listRange_iff.mp containsToo with ⟨_, _, otherRow, foundOther, startsToo, _⟩
  have ordered := (ascending.le_iff_of_contains intact containsToo found).mp starts
  have orderedToo := (ascending.le_iff_of_contains intact contains foundOther).mp startsToo
  exact Nat.le_antisymm ordered orderedToo

/-- A row at or behind the first start is in the last list that starts at or before it. -/
theorem exists_contains_listRange {member : Nat} {first : ρ}
    (foundFirst : metadata.row? ρ 1 = some first) (starts : list first ≤ member)
    (positive : 1 ≤ member) (inside : member ≤ metadata.rowCount target) :
    ∃ owner, (metadata.listRange list target owner).contains member = true := by
  classical
  let startsBefore (rid : Nat) : Prop := ∃ row, metadata.row? ρ rid = some row ∧ list row ≤ member
  let count := metadata.rowCount (Row.table ρ)
  have nonempty : 1 ≤ count := (rid_of_row? foundFirst).2
  have firstBefore : startsBefore 1 := ⟨first, foundFirst, starts⟩
  rcases Nat.findGreatest_spec nonempty firstBefore with ⟨row, found, startsLast⟩
  refine ⟨Nat.findGreatest startsBefore count, contains_listRange_iff.mpr
    ⟨positive, inside, row, found, startsLast, ?_⟩⟩
  intro next foundNext
  by_contra notBehind
  have greatest := Nat.findGreatest_is_greatest (Nat.lt_succ_self _) (rid_of_row? foundNext).2
  exact greatest ⟨next, foundNext, by omega⟩

/-- The search for the last list that starts at or before a member finds its owner. -/
theorem Ascending.last?_eq (ascending : metadata.Ascending list) (intact : metadata.Intact ρ)
    {table : Table ρ} (present : metadata.table? ρ = some table) {owner member : Nat}
    (contains : (metadata.listRange list target owner).contains member = true) :
    Bisect.last? (fun rid => (table.get? rid).map fun row => decide (list row ≤ member))
      table.rowCount = some owner := by
  rcases contains_listRange_iff.mp contains with ⟨_, _, row, found, _, _⟩
  have inside := rid_of_row? found
  rw [rowCount_eq present] at inside
  have probes : ∀ rid, 1 ≤ rid → rid ≤ table.rowCount →
      ((table.get? rid).map fun row => decide (list row ≤ member)) =
        some (decide (rid ≤ owner)) := by
    intro rid positive insideToo
    rcases intact.table present rid positive insideToo with ⟨other, foundOther⟩
    have same :=
      ascending.le_iff_of_contains intact contains ((row?_eq present rid).trans foundOther)
    rw [foundOther, Option.map_some, decide_eq_decide.mpr same]
  rw [Bisect.last?_eq probes inside.2]
  cases owner with
  | zero => omega
  | succ owner => rfl

end Metadata

end CilLoader
