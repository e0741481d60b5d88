import CilLoader.Error
import CilLoader.Table.Id

/-!
# Coded indexes

A coded index points into one of several tables. Its lowest bits, the tag, choose the table from
the list of its kind; the bits above are the row. There are just enough tag bits for the list.
-/

namespace CilLoader

inductive CodedKind where
  | typeDefOrRef
  | hasConstant
  | hasCustomAttribute
  | hasFieldMarshal
  | hasDeclSecurity
  | memberRefParent
  | hasSemantics
  | methodDefOrRef
  | memberForwarded
  | implementation
  | customAttributeType
  | resolutionScope
  | typeOrMethodDef
  | hasCustomDebugInformation
deriving DecidableEq, Repr

namespace CodedKind

def all : List CodedKind := [
  typeDefOrRef, hasConstant, hasCustomAttribute, hasFieldMarshal, hasDeclSecurity,
  memberRefParent, hasSemantics, methodDefOrRef, memberForwarded, implementation,
  customAttributeType, resolutionScope, typeOrMethodDef, hasCustomDebugInformation]

def name : CodedKind → String
  | typeDefOrRef => "TypeDefOrRef"
  | hasConstant => "HasConstant"
  | hasCustomAttribute => "HasCustomAttribute"
  | hasFieldMarshal => "HasFieldMarshal"
  | hasDeclSecurity => "HasDeclSecurity"
  | memberRefParent => "MemberRefParent"
  | hasSemantics => "HasSemantics"
  | methodDefOrRef => "MethodDefOrRef"
  | memberForwarded => "MemberForwarded"
  | implementation => "Implementation"
  | customAttributeType => "CustomAttributeType"
  | resolutionScope => "ResolutionScope"
  | typeOrMethodDef => "TypeOrMethodDef"
  | hasCustomDebugInformation => "HasCustomDebugInformation"

/-- The tables that the tags stand for, in order of the tags. -/
def tables : CodedKind → List TableId
  | typeDefOrRef => [.typeDef, .typeRef, .typeSpec]
  | hasConstant => [.field, .param, .property]
  | hasCustomAttribute => [
    .methodDef, .field, .typeRef, .typeDef, .param, .interfaceImpl, .memberRef, .module,
    .declSecurity, .property, .event, .standAloneSig, .moduleRef, .typeSpec, .assembly,
    .assemblyRef, .file, .exportedType, .manifestResource, .genericParam, .genericParamConstraint,
    .methodSpec]
  | hasFieldMarshal => [.field, .param]
  | hasDeclSecurity => [.typeDef, .methodDef, .assembly]
  | memberRefParent => [.typeDef, .typeRef, .moduleRef, .methodDef, .typeSpec]
  | hasSemantics => [.event, .property]
  | methodDefOrRef => [.methodDef, .memberRef]
  | memberForwarded => [.field, .methodDef]
  | implementation => [.file, .assemblyRef, .exportedType]
  | customAttributeType => [.methodDef, .methodDef, .methodDef, .memberRef, .memberRef]
  | resolutionScope => [.module, .moduleRef, .assemblyRef, .typeRef]
  | typeOrMethodDef => [.typeDef, .methodDef]
  | hasCustomDebugInformation => [
    .methodDef, .field, .typeRef, .typeDef, .param, .interfaceImpl, .memberRef, .module,
    .declSecurity, .property, .event, .standAloneSig, .moduleRef, .typeSpec, .assembly,
    .assemblyRef, .file, .exportedType, .manifestResource, .genericParam, .genericParamConstraint,
    .methodSpec, .document, .localScope, .localVariable, .localConstant, .importScope]

def tagBits (kind : CodedKind) : Nat :=
  (kind.tables.length - 1).log2 + 1

theorem length_tables_le (kind : CodedKind) : kind.tables.length ≤ 1 <<< kind.tagBits := by
  cases kind <;> decide

theorem tagBits_le (kind : CodedKind) : kind.tagBits ≤ 5 := by
  cases kind <;> decide

end CodedKind

structure CodedIndex where
  table : TableId
  row : Nat
deriving DecidableEq, Repr

namespace CodedIndex

/-- The token of the row, as far as a token has room for it. -/
def token (index : CodedIndex) : Token :=
  Token.ofParts index.table.number index.row

def isNull (index : CodedIndex) : Bool :=
  index.row == 0

/-- Splits a stored value into tag and row. Fails if the tag stands for no table. -/
def decode (kind : CodedKind) (value : Nat) : Except Error CodedIndex :=
  match kind.tables[value % (1 <<< kind.tagBits)]? with
  | some table => .ok ⟨table, value >>> kind.tagBits⟩
  | none => .error .outOfBounds

/-- The value that stores a row under a tag. -/
def pack (kind : CodedKind) (tag row : Nat) : Nat :=
  row <<< kind.tagBits ||| tag

theorem decode_pack {kind : CodedKind} {tag : Nat} {table : TableId} (row : Nat)
    (found : kind.tables[tag]? = some table) :
    decode kind (pack kind tag row) = .ok ⟨table, row⟩ := by
  have bound : tag < 2 ^ kind.tagBits := by
    have below := (List.getElem?_eq_some_iff.mp found).1
    have enough := kind.length_tables_le
    rw [Nat.one_shiftLeft] at enough
    exact Nat.lt_of_lt_of_le below enough
  have sum : pack kind tag row = 2 ^ kind.tagBits * row + tag := by
    rw [pack, ← Nat.shiftLeft_add_eq_or_of_lt bound, Nat.shiftLeft_eq, Nat.mul_comm]
  have tagOf : pack kind tag row % (1 <<< kind.tagBits) = tag := by
    rw [sum, Nat.one_shiftLeft, Nat.mul_add_mod, Nat.mod_eq_of_lt bound]
  have rowOf : pack kind tag row >>> kind.tagBits = row := by
    rw [sum, Nat.shiftRight_eq_div_pow, Nat.mul_add_div (Nat.two_pow_pos _),
      Nat.div_eq_of_lt bound, Nat.add_zero]
  simp only [decode, tagOf, rowOf, found]

end CodedIndex

end CilLoader
