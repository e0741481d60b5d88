import CilLoader.Bytes.Decoder
import CilLoader.Table.CodedIndex

/-!
# Widths of columns

A column that points into a heap or a table takes two or four bytes, depending on how much there
is to point at. The sizes of all heaps and tables therefore fix the width of every column.
-/

namespace CilLoader

/-- How many rows each table has, by table number. -/
structure RowCounts where
  counts : Array Nat
deriving DecidableEq, Repr

namespace RowCounts

/-- The row count at a table number, zero if nothing is known. -/
def atSlot (rows : RowCounts) (slot : Nat) : Nat :=
  rows.counts.getD slot 0

def of (rows : RowCounts) (table : TableId) : Nat :=
  rows.atSlot table.number

def none : RowCounts :=
  ⟨#[]⟩

def ofFn (count : Nat → Nat) : RowCounts :=
  ⟨((List.range TableId.slots).map count).toArray⟩

/-- The counts stored for the tables of a mask, in order of table number. -/
def decoder (mask : Nat) : Decoder RowCounts := do
  let counts ← (List.range TableId.slots).mapM fun slot =>
    if mask.testBit slot then Decoder.number 4 else Decoder.succeed 0
  return ⟨counts.toArray⟩

theorem atSlot_ofFn {count : Nat → Nat} {slot : Nat} (bound : slot < TableId.slots) :
    (ofFn count).atSlot slot = count slot := by
  simp [ofFn, atSlot, bound]

theorem ofFn_congr {left right : Nat → Nat}
    (agree : ∀ slot < TableId.slots, left slot = right slot) : ofFn left = ofFn right := by
  have same : (List.range TableId.slots).map left = (List.range TableId.slots).map right :=
    List.map_congr_left fun slot member => agree slot (List.mem_range.mp member)
  rw [ofFn, ofFn, same]

end RowCounts

/-- How many bits it takes to write a number, at least one. -/
def bitLength (value : Nat) : Nat :=
  if value = 0 then 1 else value.log2 + 1

/-- What the widths of columns depend on. -/
structure Layout where
  /-- Bits that mark large heaps: strings, identifiers and blobs, in this order. -/
  heapSizes : Nat
  rows : RowCounts
deriving DecidableEq, Repr

namespace Layout

def isLargeString (layout : Layout) : Bool :=
  layout.heapSizes.testBit 0

def isLargeGuid (layout : Layout) : Bool :=
  layout.heapSizes.testBit 1

def isLargeBlob (layout : Layout) : Bool :=
  layout.heapSizes.testBit 2

/-- Four bytes for something large, two otherwise. -/
def width (isLarge : Bool) : Nat :=
  if isLarge then 4 else 2

def stringWidth (layout : Layout) : Nat :=
  width layout.isLargeString

def guidWidth (layout : Layout) : Nat :=
  width layout.isLargeGuid

def blobWidth (layout : Layout) : Nat :=
  width layout.isLargeBlob

/-- How many bits the row numbers of a table take. -/
def rowBits (layout : Layout) (table : TableId) : Nat :=
  bitLength (layout.rows.of table)

/-- Whether the row count of a table does not fit two bytes. -/
def isLargeTable (layout : Layout) (table : TableId) : Bool :=
  0xFFFF < layout.rows.of table

theorem isLargeTable_eq (layout : Layout) (table : TableId) :
    layout.isLargeTable table = decide (16 < layout.rowBits table) := by
  rw [isLargeTable, rowBits, bitLength, decide_eq_decide]
  split
  · omega
  · rename_i nonzero
    have below := Nat.log2_lt (n := layout.rows.of table) (k := 16) nonzero
    omega

def rowWidth (layout : Layout) (table : TableId) : Nat :=
  width (16 < layout.rowBits table)

/-- How many bits a coded index takes: those of the longest of its tables, and the tag. -/
def codedBits (layout : Layout) (kind : CodedKind) : Nat :=
  kind.tables.foldl (fun bits table => max bits (layout.rowBits table)) 0 + kind.tagBits

def codedWidth (layout : Layout) (kind : CodedKind) : Nat :=
  width (16 < layout.codedBits kind)

end Layout

end CilLoader
