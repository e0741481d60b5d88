import CilLoader.Bisect
import CilLoader.Metadata

/-!
# Looking rows up

Some rows own a list of rows in another table: they name its start, and it ends where the list of
the next owner starts. Other rows are sorted by the row they belong to, so that the rows of one
owner form a range that is found by binary search.
-/

namespace CilLoader

/-- The row numbers from `start` up to but not including `stop`. -/
structure RowRange where
  start : Nat
  stop : Nat
deriving DecidableEq, Repr

namespace RowRange

def empty : RowRange :=
  ⟨0, 0⟩

def contains (range : RowRange) (rid : Nat) : Bool :=
  range.start ≤ rid && rid < range.stop

def toList (range : RowRange) : List Nat :=
  List.range' range.start (range.stop - range.start)

@[simp]
theorem mem_toList {range : RowRange} {rid : Nat} :
    rid ∈ range.toList ↔ range.contains rid = true := by
  simp only [toList, contains, List.mem_range'_1, Bool.and_eq_true, decide_eq_true_eq]
  omega

end RowRange

def clamp (low high value : Nat) : Nat :=
  min (max low value) high

namespace Table

variable {ρ : Type} [Row ρ]

/-- The key of a row. A damaged row has the greatest key there is. -/
def keyAt (table : Table ρ) (key : ρ → Nat) (rid : Nat) : Nat :=
  match table.get? rid with
  | some row => key row
  | none => 0xFFFFFFFF

/-- The rows with a key, in a table that is sorted by it. -/
def equalRange (table : Table ρ) (key : ρ → Nat) (value : Nat) : RowRange where
  start := Bisect.boundary (fun rid => table.keyAt key rid < value) 1 (table.rowCount + 1)
  stop := Bisect.boundary (fun rid => table.keyAt key rid ≤ value) 1 (table.rowCount + 1)

def getAll (table : Table ρ) (range : RowRange) : List ρ :=
  range.toList.filterMap table.get?

end Table

namespace Metadata

variable {ρ : Type} [Row ρ]

/-- The list of an owner in a target table, kept inside that table. -/
def listRange (metadata : Metadata) (list : ρ → Nat) (target : TableId) (owner : Nat) :
    RowRange :=
  match metadata.table? ρ with
  | none => .empty
  | some table =>
    match table.get? owner with
    | none => .empty
    | some row =>
      let stop := metadata.rowCount target + 1
      let start := clamp 1 stop (list row)
      match table.get? (owner + 1) with
      | some next => ⟨start, clamp start stop (list next)⟩
      | none => ⟨start, stop⟩

def rowsWithKey (metadata : Metadata) (key : ρ → Nat) (value : Nat) : List ρ :=
  match metadata.table? ρ with
  | some table => table.getAll (table.equalRange key value)
  | none => []

def firstWhere? (accepts : ρ → Except Error Bool) : List ρ → Except Error (Option ρ)
  | [] => .ok none
  | row :: rows => do
    if ← accepts row then return some row else firstWhere? accepts rows

/-- Whether a row names the given type. The namespace is looked at only if the name agrees. -/
def isNamed (metadata : Metadata) («namespace» name : String) (namespaceIndex nameIndex : Nat) :
    Except Error Bool := do
  if (← metadata.string nameIndex) = name then
    return decide ((← metadata.string namespaceIndex) = «namespace»)
  else return false

/-! ## Types -/

/-- The first type with a name that does not stand inside another type. -/
def findTypeDef (metadata : Metadata) («namespace» name : String) :
    Except Error (Option TypeDefRow) :=
  let candidates :=
    (metadata.rows TypeDefRow).filter fun row => !TypeAttributes.isNested row.flags
  firstWhere? (fun row => metadata.isNamed «namespace» name row.namespace row.name) candidates

/-- The first exported type with a name that does not stand inside another exported type. -/
def findExportedType (metadata : Metadata) («namespace» name : String) :
    Except Error (Option ExportedTypeRow) :=
  let candidates :=
    (metadata.rows ExportedTypeRow).filter fun row => row.implementation.table ≠ .exportedType
  firstWhere? (fun row => metadata.isNamed «namespace» name row.namespace row.name) candidates

def nestedTypes (metadata : Metadata) : List Nat :=
  (metadata.rows NestedClassRow).map (·.nested)

def enclosingType? (metadata : Metadata) (type : Nat) : Option Nat :=
  match metadata.table? NestedClassRow with
  | none => none
  | some table =>
    let range := table.equalRange (·.nested) type
    match table.get? range.start with
    | some row => if range.start < range.stop then some row.enclosing else none
    | none => none

def nestedTypesOf (metadata : Metadata) (enclosing : Nat) : List Nat :=
  ((metadata.rows NestedClassRow).filter (·.enclosing == enclosing)).map (·.nested)

/-- The interfaces that a type implements itself. -/
def interfaceImpls (metadata : Metadata) (type : Nat) : List InterfaceImplRow :=
  metadata.rowsWithKey (·.implementor) type

def genericParams (metadata : Metadata) (owner : Token) : List GenericParamRow :=
  ((metadata.rows GenericParamRow).filter fun row => row.owner.token == owner).mergeSort
    fun left right => left.number ≤ right.number

/-! ## Methods -/

def methodRange (metadata : Metadata) (type : Nat) : RowRange :=
  metadata.listRange TypeDefRow.methodList .methodDef type

def paramRange (metadata : Metadata) (method : Nat) : RowRange :=
  metadata.listRange MethodDefRow.paramList .param method

/-- The type that a method belongs to: the last one whose list starts at or before the method.
Types without methods share their start with the type after them. -/
def methodOwner? (metadata : Metadata) (method : Nat) : Option Nat :=
  match metadata.table? TypeDefRow with
  | none => none
  | some table =>
    if method = 0 ∨ metadata.rowCount .methodDef < method then none
    else
      let startsBefore := fun type =>
        (table.get? type).map fun row => decide (row.methodList ≤ method)
      (Bisect.last? startsBefore table.rowCount).filter
        fun type => (metadata.methodRange type).contains method

end Metadata

end CilLoader
