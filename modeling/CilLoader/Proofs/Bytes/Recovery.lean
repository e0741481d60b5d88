import CilLoader.Bytes.Decoder

/-!
# Reading back what was written

Some data holds some bytes at a position if they stand there, whatever comes before and after. A
decoder recovers a value from its written form if it reads the value wherever the form stands, and
stops right behind it.
-/

namespace CilLoader

namespace Bytes

def HoldsAt (data : Bytes) : (position : Nat) → (written : List UInt8) → Prop
  | position, [] => position ≤ data.size
  | position, byte :: written =>
    data[position]? = some byte ∧ HoldsAt data (position + 1) written

theorem HoldsAt.le_size {data : Bytes} {position : Nat} {written : List UInt8}
    (holds : data.HoldsAt position written) : position + written.length ≤ data.size := by
  induction written generalizing position with
  | nil => exact holds
  | cons byte written induction =>
      have rest := induction holds.2
      rw [List.length_cons]
      omega

theorem holdsAt_append {data : Bytes} {position : Nat} {first second : List UInt8} :
    data.HoldsAt position (first ++ second) ↔
      data.HoldsAt position first ∧ data.HoldsAt (position + first.length) second := by
  induction first generalizing position with
  | nil =>
      rw [List.nil_append, List.length_nil, Nat.add_zero]
      refine ⟨fun holds => ⟨?_, holds⟩, And.right⟩
      exact Nat.le_trans (Nat.le_add_right _ _) holds.le_size
  | cons byte first induction =>
      have shifted : position + (byte :: first).length = position + 1 + first.length := by
        rw [List.length_cons]
        omega
      rw [List.cons_append, HoldsAt, HoldsAt, induction, shifted, and_assoc]

theorem holdsAt_toArray (before written : List UInt8) :
    HoldsAt (before ++ written).toArray before.length written := by
  induction written generalizing before with
  | nil => simp [HoldsAt]
  | cons byte written induction =>
      refine ⟨by simp, ?_⟩
      have rest := induction (before ++ [byte])
      rwa [List.append_assoc, List.singleton_append, List.length_append, List.length_singleton]
        at rest

theorem HoldsAt.exists_drop {data : Bytes} {position : Nat} {written : List UInt8}
    (holds : data.HoldsAt position written) :
    ∃ rest, data.toList.drop position = written ++ rest := by
  induction written generalizing position with
  | nil => exact ⟨_, rfl⟩
  | cons byte written induction =>
      rcases induction holds.2 with ⟨rest, behind⟩
      rcases Array.getElem?_eq_some_iff.mp holds.1 with ⟨bound, found⟩
      refine ⟨rest, ?_⟩
      rw [List.drop_eq_getElem_cons bound, behind, Array.getElem_toList, found, List.cons_append]

/-- A slice that is as long as what stands there. -/
theorem HoldsAt.slice_eq {data : Bytes} {position : Nat} {written : List UInt8}
    (holds : data.HoldsAt position written) :
    data.slice position (position + written.length) = written.toArray := by
  rcases holds.exists_drop with ⟨rest, behind⟩
  apply Array.toList_inj.mp
  rw [toList_slice, behind, Nat.add_sub_cancel_left, List.take_left]

theorem number_of_holdsAt {data : Bytes} {position width value : Nat}
    (holds : data.HoldsAt position (ofNumber width value)) (fits : value < limit width) :
    data.number position width = value := by
  induction width generalizing position value with
  | zero =>
      rw [limit] at fits
      rw [number]
      omega
  | succ width induction =>
      have fitsRest : value / 256 < limit width := by
        rw [limit] at fits
        omega
      have rest := induction holds.2 fitsRest
      have first : data.byteAt position = value % 256 := by
        rw [byteAt, holds.1]
        exact UInt8.toNat_ofNat'
      rw [number, first, rest]
      omega

theorem length_flatMap_eq_total {α : Type} (written : α → List UInt8) (items : List α) :
    (items.flatMap written).length = total (items.map fun item => (written item).length) := by
  induction items with
  | nil => rfl
  | cons item items induction =>
      rw [List.flatMap_cons, List.length_append, induction, List.map_cons, total]

end Bytes

namespace Decoder

variable {α β : Type}

/-- Wherever the bytes stand, the decoder reads them as the value. -/
def Recovers (decoder : Decoder α) (written : List UInt8) (value : α) : Prop :=
  ∀ data position, Bytes.HoldsAt data position written →
    decoder data position = (.ok value, position + written.length)

theorem recovers_succeed (value : α) : Recovers (succeed value) [] value :=
  fun _ _ _ => rfl

theorem recovers_ofExcept {result : Except Error α} {value : α} (success : result = .ok value) :
    Recovers (ofExcept result) [] value := by
  rw [success]
  exact recovers_succeed value

theorem recovers_number {width value : Nat} (fits : value < Bytes.limit width) :
    Recovers (number width) (Bytes.ofNumber width value) value := by
  intro data position holds
  have inside := holds.le_size
  rw [Bytes.length_ofNumber] at inside ⊢
  rw [number, if_pos inside, Bytes.number_of_holdsAt holds fits]

theorem recovers_bytes (written : List UInt8) :
    Recovers (bytes written.length) written written.toArray := by
  intro data position holds
  rw [bytes, if_pos holds.le_size, holds.slice_eq]

theorem Recovers.bind {first : Decoder α} {next : α → Decoder β}
    {written rest : List UInt8} {start : α} {value : β} (recovers : Recovers first written start)
    (recoversNext : Recovers (next start) rest value) :
    Recovers (first >>= next) (written ++ rest) value := by
  intro data position holds
  rcases Bytes.holdsAt_append.mp holds with ⟨holdsFirst, holdsRest⟩
  rw [bind_of_ok (recovers data position holdsFirst), recoversNext data _ holdsRest,
    List.length_append, Nat.add_assoc]

/-- A last step that reads nothing more. -/
theorem Recovers.map {first : Decoder α} {written : List UInt8} {start : α} (change : α → β)
    (recovers : Recovers first written start) :
    Recovers (first >>= fun value => pure (change value)) written (change start) := by
  rw [← List.append_nil written]
  exact recovers.bind (recovers_succeed (change start))

theorem hasMore_of_holdsAt {data : Bytes} {position : Nat} {written : List UInt8}
    (nonempty : written ≠ []) (holds : data.HoldsAt position written) :
    hasMore data position = (.ok true, position) := by
  have inside := holds.le_size
  have consumed := List.length_pos_iff.mpr nonempty
  have left : position < data.size := by omega
  rw [hasMore, decide_eq_true left]

theorem recovers_mapM {act : α → Decoder β} {written : α → List UInt8} {value : α → β}
    {items : List α} (recovers : ∀ item ∈ items, Recovers (act item) (written item) (value item)) :
    Recovers (items.mapM act) (items.flatMap written) (items.map value) := by
  induction items with
  | nil => exact recovers_succeed []
  | cons item items induction =>
      have rest := induction fun other member => recovers other (List.mem_cons_of_mem item member)
      rw [List.mapM_cons, List.flatMap_cons]
      exact (recovers item List.mem_cons_self).bind (rest.map (value item :: ·))

end Decoder

end CilLoader
