import CilLoader.Proofs.Strict.Operations

/-!
# Delimited decoders

A decoder is delimited if the bytes it consumes decide that it succeeds, and with what: other data
with the same bytes there is read alike, whatever comes behind them, and data that ends among them
is found to end too early. Decoders that look ahead stay delimited as long as they consume what they
have looked at.
-/

namespace CilLoader

namespace Bytes

/-- The data have the same bytes before a position. -/
def AgreeBefore (data other : Bytes) (stop : Nat) : Prop :=
  ∀ place < stop, data.byteAt place = other.byteAt place

variable {data other : Bytes} {stop : Nat}

theorem AgreeBefore.mono (agree : data.AgreeBefore other stop) {before : Nat}
    (earlier : before ≤ stop) : data.AgreeBefore other before :=
  fun place inside => agree place (Nat.lt_of_lt_of_le inside earlier)

theorem AgreeBefore.number_eq {position width : Nat}
    (agree : data.AgreeBefore other (position + width)) :
    data.number position width = other.number position width := by
  induction width generalizing position with
  | zero => rfl
  | succ width induction =>
      have rest : data.AgreeBefore other (position + 1 + width) := agree.mono (by omega)
      rw [number, number, agree position (by omega), induction rest]

theorem agreeBefore_slice (inside : stop ≤ data.size) :
    data.AgreeBefore (data.slice 0 stop) stop := by
  intro place before
  have below : 0 + place < stop := by rwa [Nat.zero_add]
  rw [byteAt_slice inside below, Nat.zero_add]

theorem agreeBefore_append (inside : stop ≤ data.size) (rest : Bytes) :
    data.AgreeBefore (data.slice 0 stop ++ rest) stop := by
  intro place before
  have kept : place < (data.slice 0 stop).size := by
    rwa [size_slice inside, Nat.sub_zero]
  rw [agreeBefore_slice inside place before, byteAt, byteAt, Array.getElem?_append_left kept]

end Bytes

namespace Decoder

variable {α β : Type}

/-- A run that is decided by the bytes it consumes. -/
structure Delimits (decoder : Decoder α) (data : Bytes) (position : Nat) (value : α)
    (stop : Nat) : Prop where
  ordered : position ≤ stop
  inside : stop ≤ data.size
  stable : ∀ other : Bytes, data.AgreeBefore other stop → stop ≤ other.size →
    decoder other position = (.ok value, stop)
  starves : ∀ other : Bytes, data.AgreeBefore other other.size → position ≤ other.size →
    other.size < stop → (decoder other position).1 = .error .outOfBounds

/-- Every success is decided by the bytes that are consumed. -/
def Delimited (decoder : Decoder α) : Prop :=
  ∀ data position value stop, position ≤ data.size →
    decoder data position = (.ok value, stop) → decoder.Delimits data position value stop

/-- No success goes back. -/
def Forward (decoder : Decoder α) : Prop :=
  ∀ data position value stop, decoder data position = (.ok value, stop) → position ≤ stop

/-- Every success consumes something. -/
def Consumes (decoder : Decoder α) : Prop :=
  ∀ data position value stop, decoder data position = (.ok value, stop) → position < stop

theorem fst_bind_of_error {first : Decoder α} {next : α → Decoder β} {data : Bytes}
    {position : Nat} {error : Error} (failure : (first data position).1 = .error error) :
    ((first >>= next) data position).1 = .error error := by
  rcases outcome : first data position with ⟨result, stop⟩
  rw [outcome] at failure
  cases failure
  rw [bind_of_error outcome]

theorem bind_congr_ok {first : Decoder α} {next other : α → Decoder β} {data : Bytes}
    {position : Nat} (alike : ∀ value stop, first data position = (.ok value, stop) →
      next value data stop = other value data stop) :
    (first >>= next) data position = (first >>= other) data position := by
  rw [bind_apply, bind_apply]
  rcases outcome : first data position with ⟨_ | value, stop⟩
  · rfl
  · exact alike value stop outcome

theorem delimited_succeed (value : α) : Delimited (succeed value) := by
  rintro data position _ _ inside ⟨⟩
  exact ⟨Nat.le_refl _, inside, fun _ _ _ => rfl,
    fun _ _ there short => absurd short (Nat.not_lt.mpr there)⟩

theorem delimited_fail (error : Error) : Delimited (fail error : Decoder α) := by
  rintro _ _ _ _ _ ⟨⟩

theorem delimited_number (width : Nat) : Delimited (number width) := by
  intro data position value stop inside read
  rw [number] at read
  split at read
  case isFalse => cases read
  case isTrue enough =>
    cases read
    refine ⟨Nat.le_add_right _ _, enough, ?_, ?_⟩
    · intro other agree enoughOther
      rw [number, if_pos enoughOther, agree.number_eq]
    · intro other _ _ short
      rw [number, if_neg (Nat.not_le.mpr short)]

theorem delimited_byte : Delimited byte :=
  delimited_number 1

theorem Delimited.bind {first : Decoder α} {next : α → Decoder β} (delimited : Delimited first)
    (delimitedNext : ∀ value, Delimited (next value)) : Delimited (first >>= next) := by
  intro data position result stop inside read
  rcases bind_eq_ok.mp read with ⟨value, middle, readFirst, readNext⟩
  have begun := delimited data position value middle inside readFirst
  have ended := delimitedNext value data middle result stop begun.inside readNext
  refine ⟨Nat.le_trans begun.ordered ended.ordered, ended.inside, ?_, ?_⟩
  · intro other agree enough
    have again := begun.stable other (agree.mono ended.ordered)
      (Nat.le_trans ended.ordered enough)
    rw [bind_of_ok again]
    exact ended.stable other agree enough
  · -- The other data ends in the first part or in the second one.
    intro other agree there short
    rcases Nat.lt_or_ge other.size middle with shortFirst | enough
    · exact fst_bind_of_error (begun.starves other agree there shortFirst)
    · rw [bind_of_ok (begun.stable other (agree.mono enough) enough)]
      exact ended.starves other agree enough short

theorem Consumes.forward {decoder : Decoder α} (consumes : Consumes decoder) : Forward decoder :=
  fun data position value stop read => Nat.le_of_lt (consumes data position value stop read)

theorem consumes_byte : Consumes byte := by
  intro data position value stop read
  rw [byte, number] at read
  split at read
  case isFalse => cases read
  case isTrue =>
    cases read
    exact Nat.lt_succ_self position

theorem Consumes.bind {first : Decoder α} {next : α → Decoder β} (consumes : Consumes first)
    (forward : ∀ value, Forward (next value)) : Consumes (first >>= next) := by
  intro data position result stop read
  rcases bind_eq_ok.mp read with ⟨value, middle, readFirst, readNext⟩
  exact Nat.lt_of_lt_of_le (consumes data position value middle readFirst)
    (forward value data middle result stop readNext)

/-- A byte may be looked at ahead of steps that consume it. -/
theorem delimited_peek_bind {next : Nat → Decoder α} (delimited : ∀ code, Delimited (next code))
    (consumes : ∀ code, Consumes (next code)) : Delimited (peek >>= next) := by
  intro data position value stop inside read
  rcases bind_eq_ok.mp read with ⟨code, middle, looked, readNext⟩
  rw [peek] at looked
  split at looked
  case isFalse => cases looked
  case isTrue left =>
    cases looked
    have rest := delimited _ data position value stop inside readNext
    have consumed := consumes _ data position value stop readNext
    have looksAlike : ∀ other : Bytes, data.AgreeBefore other (position + 1) →
        position < other.size → peek other position = (.ok (data.byteAt position), position) := by
      intro other agree leftOther
      rw [peek, if_pos leftOther, agree position (Nat.lt_succ_self position)]
    refine ⟨rest.ordered, rest.inside, ?_, ?_⟩
    · intro other agree enough
      rw [bind_of_ok (looksAlike other (agree.mono consumed) (Nat.lt_of_lt_of_le consumed enough))]
      exact rest.stable other agree enough
    · intro other agree there short
      rcases Nat.lt_or_ge position other.size with leftOther | ended
      · rw [bind_of_ok (looksAlike other (agree.mono leftOther) leftOther)]
        exact rest.starves other agree there short
      · have failure : (peek other position).1 = .error .outOfBounds := by
          rw [peek, if_neg (Nat.not_lt.mpr ended)]
        exact fst_bind_of_error failure

end Decoder

end CilLoader
