import CilLoader.Signature.Decoder
import CilLoader.Proofs.Bytes.Recovery

/-!
# Reading with room for some nesting

A reader has room for types that are nested up to some depth. What is nested no deeper it reads
back; on anything deeper it runs out of room, whatever else there is to read.
-/

namespace CilLoader

namespace Decoder

open SignatureCode

variable {α β : Type}

/-- Wherever the bytes stand, the decoder runs out of room on them. -/
def Exhausts (decoder : Decoder α) (written : List UInt8) : Prop :=
  ∀ data position, Bytes.HoldsAt data position written →
    (decoder data position).1 = .error (.recursionLimit depthLimit)

/-- The decoder reads the bytes as the value if there is room for its nesting, and runs out of room
on them otherwise. -/
structure RecoversWithin (room nesting : Nat) (decoder : Decoder α) (written : List UInt8)
    (value : α) : Prop where
  recovers : nesting ≤ room → decoder.Recovers written value
  exhausts : room < nesting → decoder.Exhausts written

theorem Recovers.within {decoder : Decoder α} {written : List UInt8} {value : α}
    (recovers : decoder.Recovers written value) (room : Nat) :
    RecoversWithin room 0 decoder written value where
  recovers := fun _ => recovers
  exhausts := fun beyond => absurd beyond (Nat.not_lt_zero room)

theorem RecoversWithin.bind {room nesting nestingNext : Nat} {first : Decoder α}
    {next : α → Decoder β} {written rest : List UInt8} {start : α} {value : β}
    (within : RecoversWithin room nesting first written start)
    (withinNext : RecoversWithin room nestingNext (next start) rest value) :
    RecoversWithin room (max nesting nestingNext) (first >>= next) (written ++ rest) value where
  recovers := by
    intro enough
    have parts := Nat.max_le.mp enough
    exact (within.recovers parts.1).bind (withinNext.recovers parts.2)
  exhausts := by
    intro beyond data position holds
    rcases Bytes.holdsAt_append.mp holds with ⟨holdsFirst, holdsRest⟩
    rcases Nat.lt_or_ge room nesting with beyondFirst | enough
    · have failed := within.exhausts beyondFirst data position holdsFirst
      rw [bind_apply]
      rcases outcome : first data position with ⟨result, stop⟩
      rw [outcome] at failed
      cases failed
      rfl
    · have beyondNext : room < nestingNext := by omega
      rw [bind_of_ok (within.recovers enough data position holdsFirst)]
      exact withinNext.exhausts beyondNext data _ holdsRest

/-- A first step that reads no types. -/
theorem Recovers.bindWithin {room nesting : Nat} {first : Decoder α} {next : α → Decoder β}
    {written rest : List UInt8} {start : α} {value : β} (recovers : first.Recovers written start)
    (within : RecoversWithin room nesting (next start) rest value) :
    RecoversWithin room nesting (first >>= next) (written ++ rest) value := by
  have both := (recovers.within room).bind within
  rwa [Nat.zero_max] at both

/-- Last steps that read no types. -/
theorem RecoversWithin.bindRecovers {room nesting : Nat} {first : Decoder α} {next : α → Decoder β}
    {written rest : List UInt8} {start : α} {value : β}
    (within : RecoversWithin room nesting first written start)
    (recovers : (next start).Recovers rest value) :
    RecoversWithin room nesting (first >>= next) (written ++ rest) value := by
  have both := within.bind (recovers.within room)
  rwa [Nat.max_zero] at both

theorem RecoversWithin.map {room nesting : Nat} {first : Decoder α} {written : List UInt8}
    {start : α} (change : α → β) (within : RecoversWithin room nesting first written start) :
    RecoversWithin room nesting (first >>= fun value => pure (change value)) written
      (change start) := by
  rw [← List.append_nil written]
  exact within.bindRecovers (recovers_succeed (change start))

end Decoder

end CilLoader
