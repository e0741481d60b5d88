import CilLoader.Module

/-!
# Names of parameters

The names of the parameters of a method, one after another. The receiver comes first if the method
has one. Rows that describe the return value are passed over, and a damaged name is shown as empty.
-/

namespace CilLoader

structure ParameterNames where
  /-- The metadata that holds the names. Without it there are no names. -/
  metadata : Option Metadata
  /-- Whether the receiver is still to come. -/
  hasReceiver : Bool
  rows : RowRange
deriving DecidableEq, Repr

namespace ParameterNames

def receiver : String := "_this"

def empty : ParameterNames :=
  ⟨none, false, .empty⟩

def ofMethod (module : Module) (method : MethodDefinition) : ParameterNames :=
  if method.module = module.id then ⟨some module.metadata, !method.isStatic, method.params⟩
  else empty

def nameOf (metadata : Metadata) (row : ParamRow) : String :=
  (metadata.string row.name).toOption.getD ""

/-- Passes rows until one names a parameter. Answers the name and where the next row is. A missing
row ends the search. -/
def search (metadata : Metadata) : (count : Nat) → (rid : Nat) → Option String × Nat
  | 0, rid => (none, rid)
  | count + 1, rid =>
    match metadata.row? ParamRow rid with
    | none => (none, rid + 1)
    | some row =>
      if row.sequence = 0 then search metadata count (rid + 1)
      else (some (nameOf metadata row), rid + 1)

def next (names : ParameterNames) : Option String × ParameterNames :=
  match names.metadata with
  | none => (none, names)
  | some metadata =>
    if names.hasReceiver then (some receiver, { names with hasReceiver := false })
    else
      let (name, start) := search metadata (names.rows.stop - names.rows.start) names.rows.start
      (name, { names with rows.start := start })

def take : (count : Nat) → ParameterNames → List String × ParameterNames
  | 0, names => ([], names)
  | count + 1, names =>
    match names.next with
    | (none, names) => ([], names)
    | (some name, names) =>
      let (rest, names) := take count names
      (name :: rest, names)

/-- An upper bound for the number of names that are still to come. -/
def bound (names : ParameterNames) : Nat :=
  (names.rows.stop - names.rows.start) + 1

def toList (names : ParameterNames) : List String :=
  (take names.bound names).1

end ParameterNames

end CilLoader
