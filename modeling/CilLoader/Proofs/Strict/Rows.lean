import CilLoader.Proofs.Strict.Decoders
import CilLoader.Stream.Pdb
import CilLoader.Table.Row

/-!
# Strict runs over rows

Rows and row counts are read by decoders, so their reads stay inside the data. What the decoders
read is limited by the number of bytes that it is stored in.
-/

namespace CilLoader

namespace Decoder

/-- Whatever the decoder reads has a property. -/
def Returns (decoder : Decoder α) (holds : α → Prop) : Prop :=
  ∀ ⦃data position value stop⦄, decoder data position = (.ok value, stop) → holds value

namespace Returns

variable {holds : β → Prop}

theorem succeed {value : β} (fact : holds value) : (succeed value).Returns holds := by
  intro _ _ _ _ run
  cases run
  exact fact

theorem number (width : Nat) : (number width).Returns (· < Bytes.limit width) := by
  intro data position value stop run
  rw [Decoder.number] at run
  split at run
  · cases run
    exact Bytes.number_lt data position width
  · cases run

theorem bind {first : Decoder α} {between : α → Prop} {next : α → Decoder β}
    (start : first.Returns between) (rest : ∀ value, between value → (next value).Returns holds) :
    (first >>= next).Returns holds := by
  intro data position value stop run
  rw [bind_apply] at run
  split at run
  · rename_i middle _ firstRun
    exact rest middle (start firstRun) run
  · cases run

theorem next {first : Decoder α} {next : α → Decoder β}
    (rest : ∀ value, (next value).Returns holds) : (first >>= next).Returns holds := by
  have anything : first.Returns fun _ => True := fun _ _ _ _ _ => trivial
  exact bind anything fun value _ => rest value

theorem mapM {decoder : α → Decoder β} {each : β → Prop}
    (returns : ∀ value, (decoder value).Returns each) {values : List α} :
    (values.mapM decoder).Returns fun results => ∀ result ∈ results, each result := by
  induction values with
  | nil => exact succeed (List.forall_mem_nil _)
  | cons value values induction =>
      rw [List.mapM_cons]
      exact bind (returns value) fun _ first => bind induction fun _ rest =>
        succeed (List.forall_mem_cons.mpr ⟨first, rest⟩)

end Returns

end Decoder

namespace Decoder.Guarded

def column (layout : Layout) : (column : Column) → Guarded (column.decoder layout)
  | .number storage => number (storage.readWidth layout)
  | .coded kind => .andThen (number (layout.codedWidth kind)) fun _ => ofExcept _

def cells (layout : Layout) : (columns : List Column) → Guarded (Cells.decoder layout columns)
  | [] => succeed ()
  | first :: columns =>
    .andThen (column layout first) fun _ => .andThen (cells layout columns) fun _ => succeed _

def row (ρ : Type) [Row ρ] (layout : Layout) (rid : Nat) : Guarded (Row.decoder ρ layout rid) :=
  .andThen (cells layout (Row.table ρ).columns) fun _ => succeed _

def mapM {decoder : α → Decoder β} (guarded : ∀ value, Guarded (decoder value)) :
    (values : List α) → Guarded (values.mapM decoder)
  | [] => by rw [List.mapM_nil]; exact succeed []
  | value :: values => by
    rw [List.mapM_cons]
    exact .andThen (guarded value) fun _ => .andThen (mapM guarded values) fun _ => succeed _

def rowCounts (mask : Nat) : Guarded (RowCounts.decoder mask) :=
  .andThen (mapM (fun _ => branch (number 4) (succeed 0)) _) fun _ => succeed _

def pdbStream : Guarded PdbStream.decoder :=
  .andThen (bytes 20) fun _ => .andThen (number 4) fun _ => .andThen (number 8) fun _ =>
    .andThen (rowCounts _) fun _ => succeed _

end Decoder.Guarded

end CilLoader
