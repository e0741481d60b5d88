import CilLoader.Table.Row

/-!
# Kinds of rows

Which kind of row stands in which table, for the tables that the loader looks into.
-/

namespace CilLoader

structure RowKind where
  row : Type
  isRow : Row row

namespace RowKind

abbrev of (ρ : Type) [isRow : Row ρ] : RowKind :=
  ⟨ρ, isRow⟩

/-- The kinds of rows that the loader looks into. -/
def all : List RowKind := [
  of ModuleRow, of TypeRefRow, of TypeDefRow, of MethodDefRow, of ParamRow, of InterfaceImplRow,
  of TypeSpecRow, of AssemblyRow, of AssemblyRefRow, of ExportedTypeRow, of NestedClassRow,
  of GenericParamRow, of DocumentRow, of MethodDebugRow, of LocalScopeRow, of LocalVariableRow]

def table (kind : RowKind) : TableId :=
  kind.isRow.table

def ofTable? (table : TableId) : Option RowKind :=
  all.find? (·.table == table)

end RowKind

end CilLoader
