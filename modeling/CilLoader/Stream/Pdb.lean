import CilLoader.Table.Layout

/-!
# The stream of debug symbols

Debug symbols stand in an image of their own, whose rows refer to those of the image they describe.
This stream says which tables that image has and how many rows, because the widths of columns
depend on it.
-/

namespace CilLoader

structure PdbStream where
  id : Bytes
  entryPoint : Token
  /-- The mask of the tables of the described image. -/
  referencedTables : Nat
  rows : RowCounts
deriving DecidableEq, Repr

namespace PdbStream

def decoder : Decoder PdbStream := do
  let id ← Decoder.bytes 20
  let entryPoint ← Decoder.number 4
  let referencedTables ← Decoder.number 8
  let rows ← RowCounts.decoder referencedTables
  return ⟨id, ⟨UInt32.ofNat entryPoint⟩, referencedTables, rows⟩

def read (data : Bytes) : Except Error PdbStream :=
  decoder.run data

end PdbStream

end CilLoader
