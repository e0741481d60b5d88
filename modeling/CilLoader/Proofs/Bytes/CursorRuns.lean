import CilLoader.Proofs.Bytes.CompressedReads
import CilLoader.Proofs.Strict.Decoders

/-!
# Runs of a cursor

Numbers, bytes and compressed numbers are read at a cursor one after another, the next byte is
looked at, and the cursor is moved to where its user wants it. Whatever the order, and whether or
not the steps succeed, the cursor stays in its data. Only seeking takes it back. What is read
depends on the bytes that the cursor has passed, wherever they stand.
-/

namespace CilLoader

theorem Bytes.byteAt_window {data : Bytes} {position : Nat} (inside : position + 1 ≤ data.size) :
    (data.slice position (position + 1)).byteAt 0 = data.byteAt position :=
  byteAt_slice inside (Nat.lt_succ_self position)

namespace Decoder

variable {α β : Type}

/-! ## What decoders take -/

/-- Whatever is read is read from the bytes that are taken, wherever they stand. -/
def ReadsTaken (decoder : Decoder α) : Prop :=
  ∀ data position value stop, decoder data position = (.ok value, stop) →
    decoder.Recovers (data.slice position stop).toList value

theorem readsTaken_number (width : Nat) : ReadsTaken (number width) := by
  intro data position value stop read other there holds
  rw [number] at read
  split at read
  case isFalse => cases read
  case isTrue enough =>
    cases read
    have length : (data.slice position (position + width)).toList.length = width := by
      rw [Array.length_toList, Bytes.size_slice enough, Nat.add_sub_cancel_left]
    have inside := holds.le_size
    have same := holds.slice_eq
    rw [length] at inside same ⊢
    rw [number, if_pos inside, ← Bytes.number_window inside, ← Bytes.number_window enough, same]

theorem readsTaken_bytes (length : Nat) : ReadsTaken (bytes length) := by
  intro data position value stop read
  rw [bytes] at read
  split at read
  case isFalse => cases read
  case isTrue enough =>
    cases read
    have recovers := recovers_bytes (data.slice position (position + length)).toList
    rwa [Array.length_toList, Bytes.size_slice enough, Nat.add_sub_cancel_left] at recovers

theorem ReadsTaken.map {decoder : Decoder α} (taken : ReadsTaken decoder) (change : α → β) :
    ReadsTaken (decoder >>= fun value => pure (change value)) := by
  intro data position value stop read
  rcases bind_eq_ok.mp read with ⟨first, middle, begun, ⟨⟩⟩
  exact (taken data position first stop begun).map change

theorem readsTaken_compressed : ReadsTaken compressed := by
  intro data position value stop read
  rcases compressed_eq_ok_iff.mp read with ⟨width, fits, holds, rfl⟩
  have taken := holds.slice_eq
  rw [Compressed.length_encodeIn fits] at taken
  rw [taken]
  exact recovers_compressed (.inWidth fits)

theorem readsTaken_compressedSigned : ReadsTaken compressedSigned := by
  intro data position value stop read
  rcases compressedSigned_eq_ok_iff.mp read with ⟨width, fits, holds, rfl⟩
  have taken := holds.slice_eq
  rw [Compressed.length_encodeIn (Compressed.fits_rotate fits)] at taken
  rw [taken]
  exact recovers_compressedSigned (.inWidth fits)

theorem readsTaken_compressedToken : ReadsTaken compressedToken := by
  intro data position token stop read
  rcases bind_eq_ok.mp read with ⟨value, middle, begun, ended⟩
  have taken := readsTaken_compressed data position value middle begun
  cases known : Compressed.tokenTable? (value % 4) with
  | none =>
      simp only [known] at ended
      cases ended
  | some table =>
      simp only [known] at ended
      cases ended
      rw [← List.append_nil (data.slice position stop).toList]
      apply taken.bind
      simp only [known]
      exact recovers_succeed _

/-- Success or failure, no more bytes are taken. -/
def TakesAtMost (decoder : Decoder α) (limit : Nat) : Prop :=
  ∀ data position, (decoder data position).2 ≤ position + limit

theorem takesAtMost_succeed (value : α) : TakesAtMost (succeed value) 0 :=
  fun _ position => Nat.le_refl position

theorem takesAtMost_fail (error : Error) : TakesAtMost (fail error : Decoder α) 0 :=
  fun _ position => Nat.le_refl position

theorem takesAtMost_byte : TakesAtMost byte 1 := by
  intro data position
  rw [byte, number]
  split
  · exact Nat.le_refl _
  · exact Nat.le_succ _

theorem TakesAtMost.bind {first : Decoder α} {next : α → Decoder β} {limit rest : Nat}
    (takes : TakesAtMost first limit) (takesNext : ∀ value, TakesAtMost (next value) rest) :
    TakesAtMost (first >>= next) (limit + rest) := by
  intro data position
  have begun := takes data position
  rw [bind_apply]
  rcases outcome : first data position with ⟨_ | value, middle⟩
  · rw [outcome] at begun
    exact Nat.le_trans begun (by omega)
  · rw [outcome] at begun
    have ended := takesNext value data middle
    exact Nat.le_trans ended (by omega)

theorem TakesAtMost.mono {decoder : Decoder α} {limit more : Nat}
    (takes : TakesAtMost decoder limit) (enough : limit ≤ more) : TakesAtMost decoder more :=
  fun data position => Nat.le_trans (takes data position) (Nat.add_le_add_left enough position)

theorem takesAtMost_moreBytes (count value : Nat) : TakesAtMost (moreBytes count value) count := by
  induction count generalizing value with
  | zero => exact takesAtMost_succeed value
  | succ count induction =>
      have takes := takesAtMost_byte.bind fun next => induction (value * 256 + next)
      exact takes.mono (by omega)

theorem width_le_of_width? {first width bits : Nat}
    (announced : Compressed.width? first = some (width, bits)) : width ≤ 4 := by
  simp only [Compressed.width?] at announced
  grind

theorem takesAtMost_compressedSized : TakesAtMost compressedSized 4 := by
  show TakesAtMost (byte >>= _) (1 + 3)
  apply takesAtMost_byte.bind
  intro first
  split
  · exact (takesAtMost_fail _).mono (by omega)
  · rename_i width bits announced
    have widths := width_le_of_width? announced
    exact ((takesAtMost_moreBytes _ _).bind fun _ => takesAtMost_succeed _).mono (by omega)

theorem takesAtMost_compressed : TakesAtMost compressed 4 :=
  takesAtMost_compressedSized.bind fun _ => takesAtMost_succeed _

theorem takesAtMost_compressedSigned : TakesAtMost compressedSigned 4 :=
  takesAtMost_compressedSized.bind fun _ => takesAtMost_succeed _

theorem takesAtMost_compressedToken : TakesAtMost compressedToken 4 := by
  show TakesAtMost (compressed >>= _) (4 + 0)
  apply takesAtMost_compressed.bind
  intro value
  split
  · exact takesAtMost_fail _
  · exact takesAtMost_succeed _

/-! ## Numbers -/

/-- A number is there as a whole or not at all. -/
theorem unmoved_number {width : Nat} {data : Bytes} {position stop : Nat} {error : Error}
    (failed : number width data position = (.error error, stop)) : stop = position := by
  rw [number] at failed
  split at failed <;> cases failed
  rfl

theorem eq_error_of_map {decoder : Decoder α} {change : α → β} {data : Bytes}
    {position stop : Nat} {error : Error}
    (failed : (decoder >>= fun value => pure (change value)) data position = (.error error, stop)) :
    decoder data position = (.error error, stop) := by
  rw [bind_apply] at failed
  -- Only the decoder can fail, since the change that comes after it reads nothing.
  rcases outcome : decoder data position with ⟨other | value, middle⟩
  · rw [outcome] at failed
    cases failed
    rfl
  · rw [outcome] at failed
    cases failed

/-! ## Success -/

theorem eq_of_bytes {length position stop : Nat} {data value : Bytes}
    (read : bytes length data position = (.ok value, stop)) :
    stop = position + length ∧ value = data.slice position stop := by
  rw [bytes] at read
  split at read <;> cases read
  exact ⟨rfl, rfl⟩

/-- What is seen of the next byte depends on nothing but the byte. -/
theorem eq_of_peek {data other : Bytes} {position stop there value : Nat}
    (seen : peek data position = (.ok value, stop))
    (holds : other.HoldsAt there (data.slice position (position + 1)).toList) :
    peek other there = (.ok value, there) := by
  rw [peek] at seen
  split at seen
  case isFalse => cases seen
  case isTrue more =>
    cases seen
    have more : position + 1 ≤ data.size := more
    have length : (data.slice position (position + 1)).toList.length = 1 := by
      rw [Array.length_toList, Bytes.size_slice more, Nat.add_sub_cancel_left]
    have inside := holds.le_size
    have same := holds.slice_eq
    rw [length] at inside same
    rw [peek, if_pos (Nat.lt_of_succ_le inside), ← Bytes.byteAt_window inside, same,
      ← Bytes.byteAt_window more]

theorem exists_ok_iff_of_ite {enough : Prop} [Decidable enough] {value : α} {error : Error}
    {position stop : Nat} :
    (∃ result, (if enough then (Except.ok value, stop) else (.error error, position) :
      Except Error α × Nat).1 = .ok result) ↔ enough := by
  split
  · exact iff_of_true ⟨value, rfl⟩ ‹_›
  · apply iff_of_false _ ‹_›
    rintro ⟨result, ⟨⟩⟩

theorem exists_ok_map_iff {decoder : Decoder α} {change : α → β} {data : Bytes} {position : Nat} :
    (∃ result, ((decoder >>= fun value => pure (change value)) data position).1 = .ok result) ↔
      ∃ value, (decoder data position).1 = .ok value := by
  rw [bind_apply]
  rcases decoder data position with ⟨error | value, stop⟩
  · simp
  · exact iff_of_true ⟨change value, rfl⟩ ⟨value, rfl⟩

end Decoder

namespace Cursor

/-! ## Operations -/

/-- What can be done at a cursor. -/
inductive Operation where
  | number (width : Nat)
  | signed (width : Nat)
  | compressed
  | compressedSigned
  | compressedToken
  | bytes (length : Nat)
  | peek
  | seek (target : Nat)
deriving DecidableEq, Repr

namespace Operation

def Answer : Operation → Type
  | number _ | compressed | peek => Nat
  | signed _ | compressedSigned => Int
  | compressedToken => Token
  | bytes _ => Bytes
  | seek _ => Unit

def decoder : (operation : Operation) → Decoder operation.Answer
  | number width => Decoder.number width
  | signed width => Decoder.signed width
  | compressed => Decoder.compressed
  | compressedSigned => Decoder.compressedSigned
  | compressedToken => Decoder.compressedToken
  | bytes length => Decoder.bytes length
  | peek => Decoder.peek
  | seek target => Decoder.seek target

/-- Compressed numbers are read byte by byte, and what a failed read has taken stays taken. -/
def isCompressed : Operation → Bool
  | compressed | compressedSigned | compressedToken => true
  | _ => false

def isSeek : Operation → Bool
  | seek _ => true
  | _ => false

/-- Looking at the next byte takes nothing, and seeking reads nothing. -/
def isRead : Operation → Bool
  | peek | seek _ => false
  | _ => true

/-- How far the data must go for an operation at a position. -/
def reach : Operation → (position : Nat) → Nat
  | number width, position | signed width, position => position + width
  | bytes length, position => position + length
  | seek target, _ => target
  | _, position => position + 1

/-- Seeking apart, operations are made of reads that look at the size of the data first. -/
def guarded : (operation : Operation) → operation.isSeek = false →
    Decoder.Guarded operation.decoder
  | number width, _ => .number width
  | signed width, _ => .andThen (.number width) fun _ => .succeed _
  | compressed, _ => .compressed
  | compressedSigned, _ => .compressedSigned
  | compressedToken, _ => .compressedToken
  | bytes length, _ => .bytes length
  | peek, _ => .peek

/-- What an operation may do at a cursor. -/
structure Sound (operation : Operation) (cursor : Cursor) (answer : Except Error operation.Answer)
    (next : Cursor) : Prop where
  sameData : next.data = cursor.data
  inside : next.position ≤ cursor.data.size
  /-- Its reads do not leave the data. -/
  computes : ∀ notSeek, (operation.guarded notSeek).strictly cursor.data cursor.position =
    .ok (answer, next.position)
  onward : operation.isSeek = false → cursor.position ≤ next.position
  succeeds : operation.isCompressed = false →
    ((∃ value, answer = .ok value) ↔ operation.reach cursor.position ≤ cursor.data.size)
  unmoved : operation.isCompressed = false → ∀ error, answer = .error error → next = cursor
  movedLittle : operation.isCompressed = true → ∀ error, answer = .error error →
    next.position ≤ cursor.position + 4
  /-- What is read depends on the bytes that have been passed. -/
  taken : operation.isRead = true → ∀ value, answer = .ok value →
    operation.decoder.Recovers (cursor.data.slice cursor.position next.position).toList value

theorem readsTaken (operation : Operation) (isRead : operation.isRead = true) :
    operation.decoder.ReadsTaken := by
  cases operation with
  | number width => exact Decoder.readsTaken_number width
  | signed width => exact (Decoder.readsTaken_number width).map (Bytes.signed width)
  | compressed => exact Decoder.readsTaken_compressed
  | compressedSigned => exact Decoder.readsTaken_compressedSigned
  | compressedToken => exact Decoder.readsTaken_compressedToken
  | bytes length => exact Decoder.readsTaken_bytes length
  | peek => cases isRead
  | seek target => cases isRead

theorem takesAtMost_of_isCompressed (operation : Operation)
    (isCompressed : operation.isCompressed = true) : operation.decoder.TakesAtMost 4 := by
  cases operation with
  | compressed => exact Decoder.takesAtMost_compressed
  | compressedSigned => exact Decoder.takesAtMost_compressedSigned
  | compressedToken => exact Decoder.takesAtMost_compressedToken
  | number | signed | bytes | peek | seek => cases isCompressed

theorem unmoved_of_error (operation : Operation) (plain : operation.isCompressed = false)
    {data : Bytes} {position stop : Nat} {error : Error}
    (failed : operation.decoder data position = (.error error, stop)) : stop = position := by
  cases operation with
  | number width => exact Decoder.unmoved_number failed
  | signed width => exact Decoder.unmoved_number (Decoder.eq_error_of_map failed)
  | bytes length =>
      rw [decoder, Decoder.bytes] at failed
      split at failed <;> cases failed
      rfl
  | peek =>
      rw [decoder, Decoder.peek] at failed
      split at failed <;> cases failed
      rfl
  | seek target =>
      rw [decoder, Decoder.seek] at failed
      split at failed <;> cases failed
      rfl
  | compressed | compressedSigned | compressedToken => cases plain

theorem exists_ok_iff_reach_le (operation : Operation) (plain : operation.isCompressed = false)
    (data : Bytes) (position : Nat) :
    (∃ value, (operation.decoder data position).1 = .ok value) ↔
      operation.reach position ≤ data.size := by
  cases operation with
  | number width => exact Decoder.exists_ok_iff_of_ite
  | signed width => exact Decoder.exists_ok_map_iff.trans Decoder.exists_ok_iff_of_ite
  | bytes length => exact Decoder.exists_ok_iff_of_ite
  | peek => exact Decoder.exists_ok_iff_of_ite
  | seek target => exact Decoder.exists_ok_iff_of_ite
  | compressed | compressedSigned | compressedToken => cases plain

theorem stop_le (operation : Operation) {data : Bytes} {position : Nat}
    (inside : position ≤ data.size) : (operation.decoder data position).2 ≤ data.size := by
  cases moves : operation.isSeek with
  | false => exact (operation.guarded moves).stop_le inside
  | true =>
      cases operation with
      | seek target =>
          rw [decoder, Decoder.seek]
          split <;> assumption
      | number | signed | compressed | compressedSigned | compressedToken | bytes | peek =>
          cases moves

/-- One step at a cursor in its data. -/
theorem sound_run (operation : Operation) {cursor : Cursor}
    (inside : cursor.position ≤ cursor.data.size) :
    operation.Sound cursor (cursor.run operation.decoder).1 (cursor.run operation.decoder).2 where
  sameData := rfl
  inside := operation.stop_le inside
  computes notSeek := (operation.guarded notSeek).strictly_eq cursor.data cursor.position
  onward notSeek := (operation.guarded notSeek).le_stop cursor.data cursor.position
  succeeds plain := operation.exists_ok_iff_reach_le plain cursor.data cursor.position
  unmoved plain error failed := by
    have stays : (operation.decoder cursor.data cursor.position).2 = cursor.position :=
      operation.unmoved_of_error plain (Prod.ext failed rfl)
    exact congrArg (Cursor.mk cursor.data) stays
  movedLittle isCompressed _ _ :=
    operation.takesAtMost_of_isCompressed isCompressed cursor.data cursor.position
  taken isRead value read :=
    operation.readsTaken isRead cursor.data cursor.position value _ (Prod.ext read rfl)

end Operation

/-! ## Runs -/

def after (cursor : Cursor) (operation : Operation) : Cursor :=
  (cursor.run operation.decoder).2

def afterAll (cursor : Cursor) (operations : List Operation) : Cursor :=
  operations.foldl after cursor

/-- Whatever is done at a cursor, it stays in its data. -/
theorem afterAll_inside {cursor : Cursor} (inside : cursor.position ≤ cursor.data.size)
    (operations : List Operation) :
    (cursor.afterAll operations).data = cursor.data ∧
      (cursor.afterAll operations).position ≤ cursor.data.size := by
  induction operations generalizing cursor with
  | nil => exact ⟨rfl, inside⟩
  | cons operation operations induction =>
      have step := operation.sound_run inside
      exact induction step.inside

theorem unmoved_of_peek {cursor next : Cursor} {result : Except Error Nat}
    (seen : cursor.run Decoder.peek = (result, next)) : next = cursor := by
  have stays : (Decoder.peek cursor.data cursor.position).2 = cursor.position := by
    rw [Decoder.peek]
    split <;> rfl
  cases seen
  exact congrArg (Cursor.mk cursor.data) stays

theorem run_eq {α : Type} {cursor next : Cursor} {decoder : Decoder α} {result : Except Error α}
    (read : cursor.run decoder = (result, next)) :
    decoder cursor.data cursor.position = (result, next.position) ∧ next.data = cursor.data := by
  cases read
  exact ⟨rfl, rfl⟩

/-- Whatever has been done at a cursor, what comes next is as sound as the first step. -/
theorem runs_sound (data : Bytes) (before : List Operation) :
    let cursor := (start data).afterAll before
    (cursor.data = data ∧ cursor.position ≤ data.size ∧
      cursor.position + cursor.remaining = data.size) ∧
    (∀ operation : Operation,
      operation.Sound cursor (cursor.run operation.decoder).1 (cursor.after operation)) ∧
    (∀ length bytes next,
      cursor.run (Decoder.bytes length) = (.ok bytes, next) →
        next.position = cursor.position + length ∧
          bytes = data.slice cursor.position next.position) ∧
    ∀ byte next, cursor.run Decoder.peek = (.ok byte, next) →
      next = cursor ∧
        ∀ other there,
          other.HoldsAt there (data.slice cursor.position (cursor.position + 1)).toList →
            Decoder.peek other there = (.ok byte, there) := by
  intro cursor
  have inside : cursor.data = data ∧ cursor.position ≤ data.size :=
    afterAll_inside (Nat.zero_le (start data).data.size) before
  rcases inside with ⟨sameData, inside⟩
  have inItsData : cursor.position ≤ cursor.data.size := by rwa [sameData]
  refine ⟨⟨sameData, inside, ?_⟩, fun operation => operation.sound_run inItsData, ?_, ?_⟩
  · rw [remaining, sameData, Nat.add_sub_cancel' inside]
  · intro length bytes next read
    rw [← sameData]
    exact Decoder.eq_of_bytes (run_eq read).1
  · intro byte next read
    constructor
    · exact unmoved_of_peek read
    · intro other there holds
      rw [← sameData] at holds
      exact Decoder.eq_of_peek (run_eq read).1 holds

example : (start #[0xC0, 0x01, 0x02]).afterAll [.peek, .bytes 4, .seek 4] =
    start #[0xC0, 0x01, 0x02] := by decide
example : ((start #[0xC0, 0x01, 0x02]).after .compressed).position = 3 := by decide

end Cursor

end CilLoader
