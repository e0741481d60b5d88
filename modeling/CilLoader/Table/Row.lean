import CilLoader.Table.Column

/-!
# Rows

The rows of the tables that the loader looks into, with a field for every column in use. A row also
knows its number in the table, counted from one, and can list its contents under the names that the
standard gives to the columns.
-/

namespace CilLoader

/-- A kind of row: the table it stands in, how it is made from its number and its cells, and what it
holds by the names of the columns. It keeps its number and its cells, except for some last ones that
it may not hold. -/
class Row (ρ : Type) where
  table : TableId
  rid : ρ → Nat
  ofCells : Nat → Cells table.columns → ρ
  named : ρ → List (String × Cell)
  rid_ofCells : ∀ number cells, rid (ofCells number cells) = number
  named_ofCells : ∀ number cells,
    (named (ofCells number cells)).map Prod.snd <+: Cells.toList cells

namespace Row

def token [Row ρ] (row : ρ) : Token :=
  Token.ofParts (Row.table ρ).number (Row.rid row)

def decoder (ρ : Type) [Row ρ] (layout : Layout) (rid : Nat) : Decoder ρ := do
  let cells ← Cells.decoder layout (Row.table ρ).columns
  return Row.ofCells rid cells

end Row

structure ModuleRow where
  rid : Nat
  generation : Nat
  name : Nat
  versionId : Nat
deriving DecidableEq, Repr

instance : Row ModuleRow where
  table := .module
  rid := ModuleRow.rid
  ofCells := fun rid (generation, name, versionId, _, _, ()) => ⟨rid, generation, name, versionId⟩
  named row := [("Generation", row.generation), ("Name", row.name), ("Mvid", row.versionId)]
  rid_ofCells _ _ := rfl
  named_ofCells _ _ := ⟨[_, _], rfl⟩

structure TypeRefRow where
  rid : Nat
  resolutionScope : CodedIndex
  name : Nat
  «namespace» : Nat
deriving DecidableEq, Repr

instance : Row TypeRefRow where
  table := .typeRef
  rid := TypeRefRow.rid
  ofCells := fun rid (scope, name, space, ()) => ⟨rid, scope, name, space⟩
  named row := [
    ("ResolutionScope", row.resolutionScope), ("TypeName", row.name),
    ("TypeNamespace", row.namespace)]
  rid_ofCells _ _ := rfl
  named_ofCells _ _ := ⟨[], rfl⟩

structure TypeDefRow where
  rid : Nat
  flags : Nat
  name : Nat
  «namespace» : Nat
  baseType : CodedIndex
  fieldList : Nat
  methodList : Nat
deriving DecidableEq, Repr

instance : Row TypeDefRow where
  table := .typeDef
  rid := TypeDefRow.rid
  ofCells := fun rid (flags, name, space, base, fields, methods, ()) =>
    ⟨rid, flags, name, space, base, fields, methods⟩
  named row := [
    ("Flags", row.flags), ("TypeName", row.name), ("TypeNamespace", row.namespace),
    ("Extends", row.baseType), ("FieldList", row.fieldList), ("MethodList", row.methodList)]
  rid_ofCells _ _ := rfl
  named_ofCells _ _ := ⟨[], rfl⟩

structure MethodDefRow where
  rid : Nat
  address : Nat
  implementationFlags : Nat
  flags : Nat
  name : Nat
  signature : Nat
  paramList : Nat
deriving DecidableEq, Repr

instance : Row MethodDefRow where
  table := .methodDef
  rid := MethodDefRow.rid
  ofCells := fun rid (address, implementationFlags, flags, name, signature, params, ()) =>
    ⟨rid, address, implementationFlags, flags, name, signature, params⟩
  named row := [
    ("RVA", row.address), ("ImplFlags", row.implementationFlags), ("Flags", row.flags),
    ("Name", row.name), ("Signature", row.signature), ("ParamList", row.paramList)]
  rid_ofCells _ _ := rfl
  named_ofCells _ _ := ⟨[], rfl⟩

structure ParamRow where
  rid : Nat
  flags : Nat
  /-- Which parameter the row describes, counted from one. Zero is the return value. -/
  sequence : Nat
  name : Nat
deriving DecidableEq, Repr

instance : Row ParamRow where
  table := .param
  rid := ParamRow.rid
  ofCells := fun rid (flags, sequence, name, ()) => ⟨rid, flags, sequence, name⟩
  named row := [("Flags", row.flags), ("Sequence", row.sequence), ("Name", row.name)]
  rid_ofCells _ _ := rfl
  named_ofCells _ _ := ⟨[], rfl⟩

structure InterfaceImplRow where
  rid : Nat
  implementor : Nat
  interface : CodedIndex
deriving DecidableEq, Repr

instance : Row InterfaceImplRow where
  table := .interfaceImpl
  rid := InterfaceImplRow.rid
  ofCells := fun rid (implementor, interface, ()) => ⟨rid, implementor, interface⟩
  named row := [("Class", row.implementor), ("Interface", row.interface)]
  rid_ofCells _ _ := rfl
  named_ofCells _ _ := ⟨[], rfl⟩

structure TypeSpecRow where
  rid : Nat
  signature : Nat
deriving DecidableEq, Repr

instance : Row TypeSpecRow where
  table := .typeSpec
  rid := TypeSpecRow.rid
  ofCells := fun rid (signature, ()) => ⟨rid, signature⟩
  named row := [("Signature", row.signature)]
  rid_ofCells _ _ := rfl
  named_ofCells _ _ := ⟨[], rfl⟩

structure AssemblyRow where
  rid : Nat
  hashAlgorithm : Nat
  major : Nat
  minor : Nat
  build : Nat
  revision : Nat
  flags : Nat
  publicKey : Nat
  name : Nat
  culture : Nat
deriving DecidableEq, Repr

instance : Row AssemblyRow where
  table := .assembly
  rid := AssemblyRow.rid
  ofCells := fun rid (hash, major, minor, build, revision, flags, key, name, culture, ()) =>
    ⟨rid, hash, major, minor, build, revision, flags, key, name, culture⟩
  named row := [
    ("HashAlgId", row.hashAlgorithm), ("MajorVersion", row.major), ("MinorVersion", row.minor),
    ("BuildNumber", row.build), ("RevisionNumber", row.revision), ("Flags", row.flags),
    ("PublicKey", row.publicKey), ("Name", row.name), ("Culture", row.culture)]
  rid_ofCells _ _ := rfl
  named_ofCells _ _ := ⟨[], rfl⟩

structure AssemblyRefRow where
  rid : Nat
  major : Nat
  minor : Nat
  build : Nat
  revision : Nat
  flags : Nat
  publicKeyOrToken : Nat
  name : Nat
  culture : Nat
  hashValue : Nat
deriving DecidableEq, Repr

instance : Row AssemblyRefRow where
  table := .assemblyRef
  rid := AssemblyRefRow.rid
  ofCells := fun rid (major, minor, build, revision, flags, key, name, culture, hash, ()) =>
    ⟨rid, major, minor, build, revision, flags, key, name, culture, hash⟩
  named row := [
    ("MajorVersion", row.major), ("MinorVersion", row.minor), ("BuildNumber", row.build),
    ("RevisionNumber", row.revision), ("Flags", row.flags),
    ("PublicKeyOrToken", row.publicKeyOrToken), ("Name", row.name), ("Culture", row.culture),
    ("HashValue", row.hashValue)]
  rid_ofCells _ _ := rfl
  named_ofCells _ _ := ⟨[], rfl⟩

structure ExportedTypeRow where
  rid : Nat
  flags : Nat
  typeDefId : Nat
  name : Nat
  «namespace» : Nat
  implementation : CodedIndex
deriving DecidableEq, Repr

instance : Row ExportedTypeRow where
  table := .exportedType
  rid := ExportedTypeRow.rid
  ofCells := fun rid (flags, typeDefId, name, space, implementation, ()) =>
    ⟨rid, flags, typeDefId, name, space, implementation⟩
  named row := [
    ("Flags", row.flags), ("TypeDefId", row.typeDefId), ("TypeName", row.name),
    ("TypeNamespace", row.namespace), ("Implementation", row.implementation)]
  rid_ofCells _ _ := rfl
  named_ofCells _ _ := ⟨[], rfl⟩

structure NestedClassRow where
  rid : Nat
  nested : Nat
  enclosing : Nat
deriving DecidableEq, Repr

instance : Row NestedClassRow where
  table := .nestedClass
  rid := NestedClassRow.rid
  ofCells := fun rid (nested, enclosing, ()) => ⟨rid, nested, enclosing⟩
  named row := [("NestedClass", row.nested), ("EnclosingClass", row.enclosing)]
  rid_ofCells _ _ := rfl
  named_ofCells _ _ := ⟨[], rfl⟩

structure GenericParamRow where
  rid : Nat
  number : Nat
  flags : Nat
  owner : CodedIndex
  name : Nat
deriving DecidableEq, Repr

instance : Row GenericParamRow where
  table := .genericParam
  rid := GenericParamRow.rid
  ofCells := fun rid (number, flags, owner, name, ()) => ⟨rid, number, flags, owner, name⟩
  named row := [
    ("Number", row.number), ("Flags", row.flags), ("Owner", row.owner), ("Name", row.name)]
  rid_ofCells _ _ := rfl
  named_ofCells _ _ := ⟨[], rfl⟩

structure DocumentRow where
  rid : Nat
  name : Nat
  hashAlgorithm : Nat
  hash : Nat
  language : Nat
deriving DecidableEq, Repr

instance : Row DocumentRow where
  table := .document
  rid := DocumentRow.rid
  ofCells := fun rid (name, hashAlgorithm, hash, language, ()) =>
    ⟨rid, name, hashAlgorithm, hash, language⟩
  named row := [
    ("Name", row.name), ("HashAlgorithm", row.hashAlgorithm), ("Hash", row.hash),
    ("Language", row.language)]
  rid_ofCells _ _ := rfl
  named_ofCells _ _ := ⟨[], rfl⟩

structure MethodDebugRow where
  rid : Nat
  document : Nat
  sequencePoints : Nat
deriving DecidableEq, Repr

instance : Row MethodDebugRow where
  table := .methodDebugInformation
  rid := MethodDebugRow.rid
  ofCells := fun rid (document, points, ()) => ⟨rid, document, points⟩
  named row := [("Document", row.document), ("SequencePoints", row.sequencePoints)]
  rid_ofCells _ _ := rfl
  named_ofCells _ _ := ⟨[], rfl⟩

structure LocalScopeRow where
  rid : Nat
  method : Nat
  importScope : Nat
  variableList : Nat
  constantList : Nat
  startOffset : Nat
  length : Nat
deriving DecidableEq, Repr

instance : Row LocalScopeRow where
  table := .localScope
  rid := LocalScopeRow.rid
  ofCells := fun rid (method, imports, locals, constants, start, length, ()) =>
    ⟨rid, method, imports, locals, constants, start, length⟩
  named row := [
    ("Method", row.method), ("ImportScope", row.importScope), ("VariableList", row.variableList),
    ("ConstantList", row.constantList), ("StartOffset", row.startOffset), ("Length", row.length)]
  rid_ofCells _ _ := rfl
  named_ofCells _ _ := ⟨[], rfl⟩

structure LocalVariableRow where
  rid : Nat
  attributes : Nat
  slot : Nat
  name : Nat
deriving DecidableEq, Repr

instance : Row LocalVariableRow where
  table := .localVariable
  rid := LocalVariableRow.rid
  ofCells := fun rid (attributes, slot, name, ()) => ⟨rid, attributes, slot, name⟩
  named row := [("Attributes", row.attributes), ("Index", row.slot), ("Name", row.name)]
  rid_ofCells _ _ := rfl
  named_ofCells _ _ := ⟨[], rfl⟩

end CilLoader
