import Mathlib.Data.List.Pairwise
import Mathlib.Order.CompletePartialOrder
import Mathlib.Order.Interval.Set.Disjoint
import CilLoader.Executable.Section

/-!
# Where addresses are stored

Sections are looked through in order, and the first one to which an address belongs translates it.
If all of them fit the address space and no two have an address in common, there is no other one, so
that the order does not matter. If no two have an offset in common either, no two addresses are
stored at one offset.
-/

namespace CilLoader

namespace Section

def addresses (part : Section) : Set Nat :=
  Set.Ico part.virtualAddress (part.virtualAddress + part.virtualSize)

/-- Where the addresses are stored, whether or not so many bytes are. -/
def offsets (part : Section) : Set Nat :=
  Set.Ico part.rawAddress (part.rawAddress + part.virtualSize)

/-- The end of the section is an address too. -/
def Fits (part : Section) : Prop :=
  part.virtualAddress + part.virtualSize < UInt32.size

/-- No two of the sections have anything in common. -/
def Apart (extent : Section → Set Nat) (parts : List Section) : Prop :=
  parts.Pairwise fun left right => Disjoint (extent left) (extent right)

variable {part left right : Section} {parts other : List Section} {address offset value : Nat}

theorem covers_eq_true : part.covers address = true ↔ address ∈ part.addresses := by
  rw [covers, Bool.and_eq_true, decide_eq_true_iff, decide_eq_true_iff, addresses, Set.mem_Ico]

theorem address_lt (fits : part.Fits) (belongs : address ∈ part.addresses) :
    address < UInt32.size := by
  rw [addresses, Set.mem_Ico] at belongs
  rw [Fits] at fits
  omega

theorem offsetOf_mem_offsets (belongs : address ∈ part.addresses) :
    part.offsetOf address ∈ part.offsets := by
  rw [addresses, Set.mem_Ico] at belongs
  rw [offsets, offsetOf, Set.mem_Ico]
  omega

/-- Offsets run along with the addresses of a section. -/
theorem offsetOf_sub (belongs : address ∈ part.addresses) :
    (part.offsetOf address : Int) - part.rawAddress = (address : Int) - part.virtualAddress := by
  rw [addresses, Set.mem_Ico] at belongs
  rw [offsetOf]
  omega

/-! ## Sections without a common part -/

theorem Apart.eq_of_mem {extent : Section → Set Nat} (apart : Apart extent parts)
    (memberLeft : left ∈ parts) (memberRight : right ∈ parts) (inLeft : value ∈ extent left)
    (inRight : value ∈ extent right) : left = right := by
  by_contra different
  have disjoint := List.Pairwise.forall apart memberLeft memberRight different
  exact Set.disjoint_left.mp disjoint inLeft inRight

theorem mem_of_find?_covers (found : parts.find? (·.covers address) = some part) :
    part ∈ parts ∧ address ∈ part.addresses := by
  have covers := List.find?_some found
  exact ⟨List.mem_of_find?_eq_some found, covers_eq_true.mp covers⟩

theorem find?_covers_eq_some (apart : Apart addresses parts) :
    parts.find? (·.covers address) = some part ↔ part ∈ parts ∧ address ∈ part.addresses := by
  refine ⟨mem_of_find?_covers, ?_⟩
  rintro ⟨member, belongs⟩
  cases found : parts.find? (·.covers address) with
  | none => exact absurd (covers_eq_true.mpr belongs) (List.find?_eq_none.mp found part member)
  | some first =>
      rcases mem_of_find?_covers found with ⟨memberFirst, belongsFirst⟩
      rw [apart.eq_of_mem member memberFirst belongs belongsFirst]

theorem find?_covers_perm (apart : Apart addresses parts) (perm : parts.Perm other) :
    other.find? (·.covers address) = parts.find? (·.covers address) := by
  have apartOther : Apart addresses other :=
    (perm.pairwise_iff fun disjoint => disjoint.symm).mp apart
  apply Option.ext
  intro part
  rw [find?_covers_eq_some apart, find?_covers_eq_some apartOther, perm.mem_iff]

/-! ## Translation -/

/-- Why an address is not translated. -/
def unmapped (address : Nat) : Malformation :=
  if UInt32.size ≤ address then .addressTooLarge address else .addressUnmapped address

theorem search_eq (fit : ∀ part ∈ parts, part.Fits) :
    search address parts =
      match parts.find? (·.covers address) with
      | some part => .ok (part.offsetOf address)
      | none => .error (.malformed (.addressUnmapped address)) := by
  induction parts with
  | nil => rfl
  | cons part parts induction =>
      rcases List.forall_mem_cons.mp fit with ⟨fits, fitRest⟩
      rw [search, if_neg (Nat.not_le.mpr fits), List.find?_cons]
      cases part.covers address with
      | true => rfl
      | false => exact induction fitRest

theorem locate_eq (fit : ∀ part ∈ parts, part.Fits) :
    locate parts address =
      match parts.find? (·.covers address) with
      | some part => .ok (part.offsetOf address)
      | none => .error (.malformed (unmapped address)) := by
  rw [locate, unmapped]
  split
  case isFalse => exact search_eq fit
  case isTrue tooLarge =>
    have uncovered : parts.find? (·.covers address) = none := by
      rw [List.find?_eq_none]
      intro part member covers
      have inside := address_lt (fit part member) (covers_eq_true.mp covers)
      omega
    rw [uncovered]

theorem locate_eq_ok (fit : ∀ part ∈ parts, part.Fits) (apart : Apart addresses parts) :
    locate parts address = .ok offset ↔
      ∃ part ∈ parts, address ∈ part.addresses ∧ part.offsetOf address = offset := by
  rw [locate_eq fit]
  constructor
  · intro located
    split at located
    case _ part found =>
      cases located
      rcases mem_of_find?_covers found with ⟨member, belongs⟩
      exact ⟨part, member, belongs, rfl⟩
    case _ => cases located
  · rintro ⟨part, member, belongs, rfl⟩
    rw [(find?_covers_eq_some apart).mpr ⟨member, belongs⟩]

/-- Sections that fit and are apart translate the addresses that belong to one of them, along with
the section and in any order. They keep addresses apart if they are stored apart. -/
theorem locate_ignores_order (fit : ∀ part ∈ parts, part.Fits) (apart : Apart addresses parts) :
    (∀ other, parts.Perm other → ∀ address, locate other address = locate parts address) ∧
    (∀ address, (∃ offset, locate parts address = .ok offset) ↔
      ∃ part ∈ parts, address ∈ part.addresses) ∧
    (∀ address offset, locate parts address = .ok offset →
      ∀ part ∈ parts, address ∈ part.addresses →
        (offset : Int) - part.rawAddress = (address : Int) - part.virtualAddress) ∧
    (Apart offsets parts → ∀ left right offset,
      locate parts left = .ok offset → locate parts right = .ok offset → left = right) := by
  refine ⟨?_, ?_, ?_, ?_⟩
  · intro other perm address
    have fitOther : ∀ part ∈ other, part.Fits := fun part member =>
      fit part (perm.mem_iff.mpr member)
    rw [locate_eq fit, locate_eq fitOther, find?_covers_perm apart perm]
  · intro address
    simp only [locate_eq_ok fit apart]
    constructor
    · rintro ⟨_, part, member, belongs, _⟩
      exact ⟨part, member, belongs⟩
    · rintro ⟨part, member, belongs⟩
      exact ⟨part.offsetOf address, part, member, belongs, rfl⟩
  · intro address offset located part member belongs
    have translated := (locate_eq_ok fit apart).mpr ⟨part, member, belongs, rfl⟩
    cases located.symm.trans translated
    exact offsetOf_sub belongs
  · intro storedApart left right offset locatedLeft locatedRight
    rcases (locate_eq_ok fit apart).mp locatedLeft with ⟨part, member, belongs, rfl⟩
    rcases (locate_eq_ok fit apart).mp locatedRight with
      ⟨partRight, memberRight, belongsRight, same⟩
    have stored := offsetOf_mem_offsets belongs
    have storedRight := offsetOf_mem_offsets belongsRight
    rw [same] at storedRight
    cases storedApart.eq_of_mem member memberRight stored storedRight
    have along := offsetOf_sub belongs
    have alongRight := offsetOf_sub belongsRight
    omega

/-- Two sections without a gap between them, the second one first, and an empty section amid the
addresses and offsets of the first. -/
def adjacent : List Section := [
  { virtualAddress := 0x2100, virtualSize := 0x80, rawAddress := 0x300, rawSize := 0x80 },
  { virtualAddress := 0x2040, virtualSize := 0, rawAddress := 0x240, rawSize := 0 },
  { virtualAddress := 0x2000, virtualSize := 0x100, rawAddress := 0x200, rawSize := 0x100 }]

theorem locate_ignores_order_adjacent :
    (∀ part ∈ adjacent, part.Fits) ∧ Apart addresses adjacent ∧ Apart offsets adjacent ∧
      locate adjacent 0x20FF = .ok 0x2FF ∧ locate adjacent.reverse 0x20FF = .ok 0x2FF ∧
      locate adjacent.reverse 0x2100 = .ok 0x300 ∧
      (¬∃ offset, locate adjacent 0x2180 = .ok offset) ∧
      ∀ address, locate adjacent address = .ok 0x300 → address = 0x2100 := by
  have fit : ∀ part ∈ adjacent, part.Fits := by simp [adjacent, Fits, UInt32.size]
  have apart : Apart addresses adjacent := by simp [Apart, adjacent, addresses]
  have storedApart : Apart offsets adjacent := by simp [Apart, adjacent, offsets]
  rcases locate_ignores_order fit apart with ⟨anyOrder, succeeds, _, injective⟩
  have reversed := anyOrder adjacent.reverse adjacent.reverse_perm.symm
  refine ⟨fit, apart, storedApart, rfl, (reversed 0x20FF).trans rfl, (reversed 0x2100).trans rfl,
    ?_, ?_⟩
  · rw [succeeds]
    simp [adjacent, addresses]
  · intro address located
    exact injective storedApart address 0x2100 0x300 located rfl

end Section

end CilLoader
