import CilLoader.Proofs.Bytes.Recovery

/-!
# Reading rounds until the end

A decoder that repeats a step until the data is used up goes through one state after another. If
each round reads back its own bytes, all rounds together read back the whole.
-/

namespace CilLoader

namespace Decoder

variable {σ : Type}

/-- Some rounds of a step lead from one state to another and read the bytes on the way. No round
reads nothing. -/
inductive Rounds (step : σ → Decoder σ) : σ → List UInt8 → σ → Prop where
  | done (state : σ) : Rounds step state [] state
  | round {state next last : σ} {written rest : List UInt8} (nonempty : written ≠ [])
      (first : (step state).Recovers written next) (others : Rounds step next rest last) :
      Rounds step state (written ++ rest) last

theorem Rounds.single {step : σ → Decoder σ} {state next : σ} {written : List UInt8}
    (nonempty : written ≠ []) (recovers : (step state).Recovers written next) :
    Rounds step state written next := by
  rw [← List.append_nil written]
  exact .round nonempty recovers (.done next)

theorem Rounds.trans {step : σ → Decoder σ} {state middle last : σ} {written rest : List UInt8}
    (before : Rounds step state written middle) (after : Rounds step middle rest last) :
    Rounds step state (written ++ rest) last := by
  induction before with
  | done => exact after
  | round nonempty first _ induction =>
      rw [List.append_assoc]
      exact .round nonempty first (induction after)

theorem Rounds.repeatUpTo_eq {step : σ → Decoder σ} {state last : σ} {written : List UInt8}
    (rounds : Rounds step state written last) {data : Bytes} {position bound : Nat}
    (holds : data.HoldsAt position written) (atEnd : position + written.length = data.size)
    (enough : written.length ≤ bound) :
    repeatUpTo bound step state data position = (.ok last, data.size) := by
  induction rounds generalizing position bound with
  | done state =>
      rw [List.length_nil, Nat.add_zero] at atEnd
      cases bound with
      | zero => rw [← atEnd, repeatUpTo, succeed]
      | succ bound => simp [repeatUpTo, bind_apply, hasMore, succeed, atEnd]
  | @round state next last written rest nonempty first _ induction =>
      rcases Bytes.holdsAt_append.mp holds with ⟨holdsFirst, holdsRest⟩
      have consumed := List.length_pos_iff.mpr nonempty
      rw [List.length_append] at atEnd enough
      cases bound with
      | zero => omega
      | succ bound =>
          rw [repeatUpTo, bind_of_ok (hasMore_of_holdsAt nonempty holdsFirst), if_pos rfl,
            bind_of_ok (first data position holdsFirst)]
          exact induction holdsRest (by omega) (by omega)

/-! ## Reading up to the end -/

variable {α β : Type}

/-- Where the bytes are the last ones, the decoder reads them as the value. -/
def RecoversLast (decoder : Decoder α) (written : List UInt8) (value : α) : Prop :=
  ∀ data position, Bytes.HoldsAt data position written →
    position + written.length = data.size → decoder data position = (.ok value, data.size)

theorem RecoversLast.map {first : Decoder α} {written : List UInt8} {start : α} (change : α → β)
    (recovers : RecoversLast first written start) :
    RecoversLast (first >>= fun value => pure (change value)) written (change start) := by
  intro data position holds atEnd
  rw [bind_of_ok (recovers data position holds atEnd), pure_apply]

theorem Recovers.bindLast {first : Decoder α} {next : α → Decoder β}
    {written rest : List UInt8} {start : α} {value : β} (recovers : Recovers first written start)
    (recoversNext : RecoversLast (next start) rest value) :
    RecoversLast (first >>= next) (written ++ rest) value := by
  intro data position holds atEnd
  rcases Bytes.holdsAt_append.mp holds with ⟨holdsFirst, holdsRest⟩
  rw [List.length_append, ← Nat.add_assoc] at atEnd
  rw [bind_of_ok (recovers data position holdsFirst), recoversNext data _ holdsRest atEnd]

theorem RecoversLast.hasMore_bind {next : Bool → Decoder α} {written : List UInt8} {value : α}
    (nonempty : written ≠ []) (recovers : RecoversLast (next true) written value) :
    RecoversLast (hasMore >>= next) written value := by
  intro data position holds atEnd
  rw [bind_of_ok (hasMore_of_holdsAt nonempty holds), recovers data position holds atEnd]

theorem RecoversLast.run_eq {decoder : Decoder α} {written : List UInt8} {value : α}
    (recovers : RecoversLast decoder written value) : decoder.run written.toArray = .ok value := by
  have whole := recovers written.toArray 0 (Bytes.holdsAt_toArray [] written) (by simp)
  rw [run, whole]

/-- Rounds that end where the data ends are all that the repeated step reads. -/
theorem Rounds.recoversLast {step : σ → Decoder σ} {state last : σ} {written : List UInt8}
    (rounds : Rounds step state written last) :
    RecoversLast (untilEnd step state) written last :=
  fun _ _ holds atEnd => rounds.repeatUpTo_eq holds atEnd (by omega)

end Decoder

end CilLoader
