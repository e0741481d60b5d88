import CilLoader.Bytes.Decoder

/-!
# What decoders ensure

Some properties hold of whatever a decoder reads, whichever bytes it reads it from. They are known
from how the decoder is put together: a later step may rely on what the steps before it ensure, and
a repeated step keeps what it finds.
-/

namespace CilLoader

namespace Decoder

variable {α β σ : Type}

/-- Whatever is read has the property. -/
def Ensures (decoder : Decoder α) (property : α → Prop) : Prop :=
  ∀ data position value stop, decoder data position = (.ok value, stop) → property value

theorem ensures_true (decoder : Decoder α) : Ensures decoder fun _ => True :=
  fun _ _ _ _ _ => trivial

theorem ensures_succeed {property : α → Prop} {value : α} (holds : property value) :
    Ensures (succeed value) property := by
  rintro _ _ _ _ ⟨⟩
  exact holds

theorem ensures_fail (error : Error) (property : α → Prop) : Ensures (fail error) property := by
  rintro _ _ _ _ ⟨⟩

theorem ensures_ofExcept {result : Except Error α} {property : α → Prop}
    (holds : ∀ value, result = .ok value → property value) :
    Ensures (ofExcept result) property := by
  cases result with
  | error error => exact ensures_fail error property
  | ok value => exact ensures_succeed (holds value rfl)

theorem Ensures.bind {first : Decoder α} {next : α → Decoder β} {property : α → Prop}
    {propertyNext : β → Prop} (ensures : Ensures first property)
    (ensuresNext : ∀ value, property value → Ensures (next value) propertyNext) :
    Ensures (first >>= next) propertyNext := by
  intro data position result stop read
  rcases bind_eq_ok.mp read with ⟨value, middle, readFirst, readNext⟩
  have holds := ensures data position value middle readFirst
  exact ensuresNext value holds data middle result stop readNext

/-- A first step of which nothing needs to be known. -/
theorem ensures_bind {first : Decoder α} {next : α → Decoder β} {property : β → Prop}
    (ensuresNext : ∀ value, Ensures (next value) property) : Ensures (first >>= next) property :=
  (ensures_true first).bind fun value _ => ensuresNext value

theorem Ensures.imp {decoder : Decoder α} {property weaker : α → Prop}
    (ensures : Ensures decoder property) (weakens : ∀ value, property value → weaker value) :
    Ensures decoder weaker :=
  fun data position value stop read => weakens value (ensures data position value stop read)

theorem ensures_repeatUpTo {step : σ → Decoder σ} {invariant : σ → Prop}
    (keeps : ∀ state, invariant state → Ensures (step state) invariant) (bound : Nat) {state : σ}
    (holds : invariant state) : Ensures (repeatUpTo bound step state) invariant := by
  induction bound generalizing state with
  | zero => exact ensures_succeed holds
  | succ bound induction =>
      refine ensures_bind fun more => ?_
      cases more with
      | false => exact ensures_succeed holds
      | true => exact (keeps state holds).bind fun next holdsNext => induction holdsNext

/-- What a step keeps is kept until the data is used up. -/
theorem ensures_untilEnd {step : σ → Decoder σ} {invariant : σ → Prop}
    (keeps : ∀ state, invariant state → Ensures (step state) invariant) {state : σ}
    (holds : invariant state) : Ensures (untilEnd step state) invariant :=
  fun data position => ensures_repeatUpTo keeps (data.size - position) holds data position

theorem Ensures.run {decoder : Decoder α} {property : α → Prop} (ensures : Ensures decoder property)
    {data : Bytes} {value : α} (read : decoder.run data = .ok value) : property value := by
  rcases outcome : decoder data 0 with ⟨result, stop⟩
  rw [Decoder.run, outcome] at read
  cases read
  exact ensures data 0 value stop outcome

end Decoder

end CilLoader
