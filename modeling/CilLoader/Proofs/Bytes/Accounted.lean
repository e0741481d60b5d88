import CilLoader.Proofs.Bytes.CompressedReads

/-!
# What the bytes are taken for

Whatever a decoder reads has taken some bytes. How many they are limits what has been read, even if
it says in the data how much there is to come: each repetition of a step that takes a byte is paid
for, and one that cannot be paid for fails.
-/

namespace CilLoader

namespace Decoder

variable {α β : Type}

/-- Whatever is read has the property, together with the number of bytes that it has taken. -/
def Accounts (decoder : Decoder α) (property : (taken : Nat) → α → Prop) : Prop :=
  ∀ data position value stop, decoder data position = (.ok value, stop) →
    ∃ taken, stop = position + taken ∧ property taken value

theorem accounts_succeed {property : Nat → α → Prop} {value : α} (holds : property 0 value) :
    Accounts (succeed value) property := by
  intro data position result stop read
  cases read
  exact ⟨0, rfl, holds⟩

theorem accounts_fail (error : Error) (property : Nat → α → Prop) :
    Accounts (fail error) property := by
  intro data position result stop read
  cases read

theorem Accounts.bind {first : Decoder α} {next : α → Decoder β} {property : Nat → α → Prop}
    {total : Nat → β → Prop} (accounts : Accounts first property)
    (accountsNext : ∀ taken value, property taken value →
      Accounts (next value) fun more result => total (taken + more) result) :
    Accounts (first >>= next) total := by
  intro data position result stop read
  obtain ⟨value, middle, readFirst, readNext⟩ := bind_eq_ok.mp read
  obtain ⟨taken, here, holds⟩ := accounts data position value middle readFirst
  obtain ⟨more, there, whole⟩ := accountsNext taken value holds data middle result stop readNext
  exact ⟨taken + more, by omega, whole⟩

/-- A last step that reads nothing more. -/
theorem Accounts.map {first : Decoder α} {change : α → β} {property : Nat → α → Prop}
    {total : Nat → β → Prop} (accounts : Accounts first property)
    (changed : ∀ taken value, property taken value → total taken (change value)) :
    Accounts (first >>= fun value => pure (change value)) total :=
  accounts.bind fun taken value holds => accounts_succeed (changed taken value holds)

theorem Accounts.imp {decoder : Decoder α} {property weaker : Nat → α → Prop}
    (accounts : Accounts decoder property)
    (weakens : ∀ taken value, property taken value → weaker taken value) :
    Accounts decoder weaker := by
  intro data position value stop read
  obtain ⟨taken, behind, holds⟩ := accounts data position value stop read
  exact ⟨taken, behind, weakens taken value holds⟩

theorem Forward.accounts {decoder : Decoder α} (forward : Forward decoder) :
    Accounts decoder fun _ _ => True := by
  intro data position value stop read
  obtain ⟨taken, behind⟩ := Nat.exists_eq_add_of_le (forward data position value stop read)
  exact ⟨taken, behind, trivial⟩

theorem Consumes.accounts {decoder : Decoder α} (consumes : Consumes decoder) :
    Accounts decoder fun taken _ => 0 < taken := by
  intro data position value stop read
  have less := consumes data position value stop read
  exact ⟨stop - position, by omega, Nat.sub_pos_of_lt less⟩

/-- What a list owes is settled item by item. -/
theorem Accounts.times {item : Decoder α} {property : Nat → α → Prop} {all : Nat → List α → Prop}
    (accounts : Accounts item property) (nil : all 0 [])
    (cons : ∀ taken value rest values, property taken value → all rest values →
      all (taken + rest) (value :: values)) (count : Nat) : Accounts (times count item) all := by
  induction count with
  | zero => exact accounts_succeed nil
  | succ count induction =>
      exact accounts.bind fun taken value holds =>
        induction.map fun rest values whole => cons taken value rest values holds whole

theorem accounts_peek : Accounts peek fun taken _ => taken = 0 := by
  intro data position value stop read
  rw [peek] at read
  split at read
  case isFalse => cases read
  case isTrue =>
    cases read
    exact ⟨0, rfl, rfl⟩

/-! ## Compressed numbers -/

theorem consumes_compressed : Consumes compressed := by
  intro data position value stop read
  obtain ⟨width, fits, _, behind⟩ := compressed_eq_ok_iff.mp read
  have widths := fits.1
  omega

theorem consumes_compressedSigned : Consumes compressedSigned := by
  intro data position value stop read
  obtain ⟨width, fits, _, behind⟩ := compressedSigned_eq_ok_iff.mp read
  have widths := fits.1
  omega

/-- The length of a list may be any number, but each of its items takes a byte. -/
theorem Consumes.accounts_counted {item : Decoder α} (consumes : Consumes item) :
    Accounts (counted item) fun taken items => items.length < taken := by
  refine consumes_compressed.accounts.bind fun taken count positive => ?_
  have items : Accounts (Decoder.times count item) fun rest items => items.length ≤ rest := by
    refine consumes.accounts.times (Nat.le_refl 0) ?_ count
    intro taken value rest values positive enough
    rw [List.length_cons]
    omega
  exact items.imp fun rest items enough => by omega

end Decoder

end CilLoader
