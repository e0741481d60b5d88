import CilLoader.Metadata.Debug
import CilLoader.Proofs.Strict.Encodings
import CilLoader.Proofs.Strict.Lookup
import CilLoader.Proofs.Strict.Metadata

/-!
# Strict queries

Everything that can be asked of metadata by the number of a row or an index into a heap, answered
with strict operations throughout. Metadata that are read from data answer every such query without
a fault, and the answer is that of the library.
-/

namespace CilLoader

/-! ## Document names -/

namespace Decoder.Guarded

def namePart (blobs : BlobHeap) (size : blobs.data.size < UInt32.size) :
    Guarded (Metadata.namePart blobs) :=
  .andThen compressed fun index =>
    .andThen (outcome (Strict.blob blobs index) (Strict.blob_yields size index)) fun part =>
      match Utf8.decode? part with
      | some _ => succeed _
      | none => fail _

def documentName (blobs : BlobHeap) (size : blobs.data.size < UInt32.size) :
    Guarded (Metadata.documentNameDecoder blobs) :=
  .andThen hasMore fun _ => branch
    (.andThen byte fun _ =>
      .andThen (untilEnd (fun _ => .andThen (namePart blobs size) fun _ => succeed _) []) fun _ =>
        succeed _)
    (succeed _)

end Decoder.Guarded

/-- What can be asked of metadata by a number of 32 bits. -/
inductive Query where
  | string (index : UInt32)
  | blob (index : UInt32)
  | guid (index : UInt32)
  | methodRange (type : UInt32)
  | methodOwner (method : UInt32)
  | paramRange (method : UInt32)
  | enclosingType (type : UInt32)
  | interfaceImpls (type : UInt32)
  | methodSignature (method : UInt32)
  | typeSpecSignature (type : UInt32)
  | sequencePoints (method : UInt32)
  | documentName (document : UInt32)
  | localScopes (method : UInt32)
  | localVariables (scope : UInt32)
deriving DecidableEq, Repr

def Query.Answer : Query → Type
  | string _ | documentName _ => Except Error String
  | blob _ => Except Error Bytes
  | guid _ => Except Panic (Except Error (Option Bytes))
  | methodRange _ | paramRange _ => RowRange
  | methodOwner _ | enclosingType _ => Option Nat
  | interfaceImpls _ => List InterfaceImplRow
  | methodSignature _ => Except Error MethodSignature
  | typeSpecSignature _ => Except Error TypeSignature
  | sequencePoints _ => Except Error SequencePoints
  | localScopes _ => List LocalScopeRow
  | localVariables _ => List LocalVariableRow

def Metadata.answer (metadata : Metadata) : (query : Query) → query.Answer
  | .string index => metadata.string index.toNat
  | .blob index => metadata.blob index.toNat
  | .guid index => metadata.guid index.toNat
  | .methodRange type => metadata.methodRange type.toNat
  | .methodOwner method => metadata.methodOwner? method.toNat
  | .paramRange method => metadata.paramRange method.toNat
  | .enclosingType type => metadata.enclosingType? type.toNat
  | .interfaceImpls type => metadata.interfaceImpls type.toNat
  | .methodSignature method => metadata.methodSignature method.toNat
  | .typeSpecSignature type => metadata.typeSpecSignature type.toNat
  | .sequencePoints method => metadata.sequencePoints method.toNat
  | .documentName document => metadata.documentName document.toNat
  | .localScopes method => metadata.localScopes method.toNat
  | .localVariables scope => metadata.localVariables scope.toNat

namespace Strict

variable {ρ : Type} [Row ρ]

/-! ## Answers with strict operations -/

def rowOf? (metadata : Metadata) (ρ : Type) [Row ρ] (rid : Nat) : Strict (Option ρ) := do
  match ← table? metadata.tables ρ with
  | some table => row? table rid
  | none => return none

def requireRow (metadata : Metadata) (ρ : Type) [Row ρ] (rid : Nat) : Attempt ρ := do
  match ← rowOf? metadata ρ rid with
  | some row => return row
  | none => throw (.typeResolution (Token.ofParts (Row.table ρ).number rid))

def listRange (metadata : Metadata) (list : ρ → Nat) (target : TableId) (owner : Nat) :
    Strict RowRange := do
  match ← table? metadata.tables ρ with
  | none => return .empty
  | some table =>
    match ← row? table owner with
    | none => return .empty
    | some row =>
      let stop ← fit UInt32.size (metadata.rowCount target + 1)
      let start ← clamp 1 stop (list row)
      let next ← row? table (← fit UInt32.size (owner + 1))
      return ⟨start, ← clamp start stop (next.elim stop list)⟩

def rowsWithKey (metadata : Metadata) (key : ρ → Nat) (value : Nat) : Strict (List ρ) := do
  match ← table? metadata.tables ρ with
  | some table => getAll table (← equalRange table key value)
  | none => return []

def methodRange (metadata : Metadata) (type : Nat) : Strict RowRange :=
  listRange metadata TypeDefRow.methodList .methodDef type

def methodOwner? (metadata : Metadata) (method : Nat) : Strict (Option Nat) := do
  match ← table? metadata.tables TypeDefRow with
  | none => return none
  | some table =>
    if method = 0 ∨ metadata.rowCount .methodDef < method then return none
    else
      let startsBefore := fun type =>
        return (← row? table type).map fun row => decide (row.methodList ≤ method)
      match ← last? startsBefore table.rowCount 1 table.rowCount none with
      | none => return none
      | some type =>
        return if (← methodRange metadata type).contains method then some type else none

def enclosingType? (metadata : Metadata) (type : Nat) : Strict (Option Nat) := do
  match ← table? metadata.tables NestedClassRow with
  | none => return none
  | some table =>
    let range ← equalRange table (·.nested) type
    match ← row? table range.start with
    | some row => return if range.start < range.stop then some row.enclosing else none
    | none => return none

def methodSignature (metadata : Metadata) (method : Nat) : Attempt MethodSignature := do
  let row ← requireRow metadata MethodDefRow method
  Decoder.Guarded.methodSignature.attempt (← blob metadata.blobs row.signature) 0

def typeSpecSignature (metadata : Metadata) (type : Nat) : Attempt TypeSignature := do
  let row ← requireRow metadata TypeSpecRow type
  Decoder.Guarded.typeSignature.attempt (← blob metadata.blobs row.signature) 0

def sequencePoints (metadata : Metadata) (method : Nat) : Attempt SequencePoints := do
  match ← rowOf? metadata MethodDebugRow method with
  | none => return .none
  | some row =>
    let points ← blob metadata.blobs row.sequencePoints
    (Decoder.Guarded.sequencePoints row.document).attempt points 0

/-- A document name is read while its parts are looked up in the heap, whose size has to be a
word. -/
def documentName (metadata : Metadata) (document : Nat) : Attempt String := do
  let row ← requireRow metadata DocumentRow document
  let name ← blob metadata.blobs row.name
  if size : metadata.blobs.data.size < UInt32.size then
    (Decoder.Guarded.documentName metadata.blobs size).attempt name 0
  else throwThe Fault (.overflow UInt32.size metadata.blobs.data.size)

def localVariables (metadata : Metadata) (scope : Nat) : Strict (List LocalVariableRow) := do
  match ← table? metadata.tables LocalVariableRow with
  | some table =>
    getAll table (← listRange metadata LocalScopeRow.variableList .localVariable scope)
  | none => return []

def answer (metadata : Metadata) : (query : Query) → Strict query.Answer
  | .string index => (string metadata.strings index.toNat).run
  | .blob index => (blob metadata.blobs index.toNat).run
  | .guid index => do return .ok (← (guid metadata.guids index.toNat).run)
  | .methodRange type => methodRange metadata type.toNat
  | .methodOwner method => methodOwner? metadata method.toNat
  | .paramRange method => listRange metadata MethodDefRow.paramList .param method.toNat
  | .enclosingType type => enclosingType? metadata type.toNat
  | .interfaceImpls type => rowsWithKey metadata InterfaceImplRow.implementor type.toNat
  | .methodSignature method => (methodSignature metadata method.toNat).run
  | .typeSpecSignature type => (typeSpecSignature metadata type.toNat).run
  | .sequencePoints method => (sequencePoints metadata method.toNat).run
  | .documentName document => (documentName metadata document.toNat).run
  | .localScopes method => rowsWithKey metadata LocalScopeRow.method method.toNat
  | .localVariables scope => localVariables metadata scope.toNat

/-! ## Answers without faults -/

theorem clamp_le (low high value : Nat) : CilLoader.clamp low high value ≤ high :=
  Nat.min_le_right _ _

theorem clamp_self {low high : Nat} (ordered : low ≤ high) :
    CilLoader.clamp low high high = high := by
  rw [CilLoader.clamp, Nat.max_eq_right ordered, Nat.min_self]

section Answers

variable {metadata : Metadata} (inside : metadata.Inside)

include inside

theorem rowOf?_eq (rid : Nat) : rowOf? metadata ρ rid = .ok (metadata.row? ρ rid) := by
  rw [rowOf?, bind_of_ok (table?_eq inside.tables), Metadata.row?, Metadata.table?]
  cases found : metadata.tables.table? ρ with
  | none => rfl
  | some table => exact row?_rest (inside.tables.table found) rid

theorem requireRow_yields (rid : Nat) :
    (requireRow metadata ρ rid).Yields (metadata.requireRow ρ rid) := by
  refine .step (rowOf?_eq inside rid) ?_
  rw [Metadata.requireRow]
  cases metadata.row? ρ rid with
  | none => exact .throw _
  | some row => exact .pure row

theorem listRange_eq (list : ρ → Nat) (target : TableId) (owner : Nat) :
    listRange metadata list target owner = .ok (metadata.listRange list target owner) := by
  rw [listRange, bind_of_ok (table?_eq inside.tables), Metadata.listRange, Metadata.table?]
  cases found : metadata.tables.table? ρ with
  | none => rfl
  | some table =>
      have rows := inside.tables.table found
      refine (bind_of_ok (row?_rest rows owner) _).trans ?_
      dsimp only
      cases owned : table.get? owner with
      | none => rfl
      | some row =>
          -- The owner has a row, so its number is a row count at most.
          have ownerWord : owner + 1 < UInt32.size := by
            have bound := (Table.rid_of_get? owned).2
            exact Nat.lt_of_le_of_lt (Nat.le_trans (Nat.succ_le_succ bound) rows.rowCount)
              (by decide)
          have targetWord : metadata.rowCount target + 1 < UInt32.size :=
            Nat.lt_of_le_of_lt (inside.tables.rowCount_lt target) (by decide)
          have start := clamp_le 1 (metadata.rowCount target + 1) (list row)
          refine (bind_of_ok (fit_of_lt targetWord) _).trans ?_
          rw [bind_of_ok (clamp_of_le (Nat.le_add_left 1 _) (list row)),
            bind_of_ok (fit_of_lt ownerWord), bind_of_ok (row?_rest rows _),
            bind_of_ok (clamp_of_le start _)]
          cases table.get? (owner + 1) with
          | none =>
              rw [Option.elim_none, clamp_self start]
              rfl
          | some next => rfl

theorem rowsWithKey_eq (key : ρ → Nat) (value : Nat) :
    rowsWithKey metadata key value = .ok (metadata.rowsWithKey key value) := by
  rw [rowsWithKey, bind_of_ok (table?_eq inside.tables), Metadata.rowsWithKey, Metadata.table?]
  cases found : metadata.tables.table? ρ with
  | none => rfl
  | some table =>
      have rows := inside.tables.table found
      exact (bind_of_ok (equalRange_rest rows key value) _).trans (getAll_rest rows _)

theorem methodOwner?_eq (method : Nat) :
    methodOwner? metadata method = .ok (metadata.methodOwner? method) := by
  rw [methodOwner?, bind_of_ok (table?_eq inside.tables), Metadata.methodOwner?, Metadata.table?]
  cases found : metadata.tables.table? TypeDefRow with
  | none => rfl
  | some table =>
      have rows := inside.tables.table found
      dsimp only [Option.map_some]
      split
      · rfl
      · let startsBefore (type : Nat) : Option Bool :=
          (table.get? type).map fun row => decide (row.methodList ≤ method)
        have probe (type : Nat) :
            (do return (← row? table.rest type).map fun row => decide (row.methodList ≤ method) :
              Strict (Option Bool)) = .ok (startsBefore type) :=
          bind_of_ok (row?_rest rows type) _
        have word : table.rowCount + 1 < UInt32.size :=
          Nat.lt_of_le_of_lt rows.rowCount (by decide)
        have search : last? _ table.rest.rowCount 1 table.rest.rowCount none =
            .ok (Bisect.last? startsBefore table.rowCount) :=
          last?_eq probe (Nat.le_refl 1) word
        rw [bind_of_ok search]
        change _ = Except.ok (Option.filter _ (Bisect.last? startsBefore table.rowCount))
        cases Bisect.last? startsBefore table.rowCount with
        | none => rfl
        | some type =>
            refine (bind_of_ok (listRange_eq inside _ _ type) _).trans ?_
            rw [Option.filter_some]
            rfl

theorem enclosingType?_eq (type : Nat) :
    enclosingType? metadata type = .ok (metadata.enclosingType? type) := by
  rw [enclosingType?, bind_of_ok (table?_eq inside.tables), Metadata.enclosingType?,
    Metadata.table?]
  cases found : metadata.tables.table? NestedClassRow with
  | none => rfl
  | some table =>
      have rows := inside.tables.table found
      refine (bind_of_ok (equalRange_rest rows _ type) _).trans ?_
      refine (bind_of_ok (row?_rest rows _) _).trans ?_
      dsimp only
      cases table.get? (table.equalRange NestedClassRow.nested type).start <;> rfl

theorem localVariables_eq (scope : Nat) :
    localVariables metadata scope = .ok (metadata.localVariables scope) := by
  rw [localVariables, bind_of_ok (table?_eq inside.tables), Metadata.localVariables,
    Metadata.table?]
  cases found : metadata.tables.table? LocalVariableRow with
  | none => rfl
  | some table =>
      have rows := inside.tables.table found
      exact (bind_of_ok (listRange_eq inside _ _ scope) _).trans (getAll_rest rows _)

theorem methodSignature_yields (method : Nat) :
    (methodSignature metadata method).Yields (metadata.methodSignature method) :=
  .bind (requireRow_yields inside method) fun _ _ =>
    .bind (blob_yields inside.blobs _) fun _ _ => Decoder.Guarded.attempt_yields _ _ 0

theorem typeSpecSignature_yields (type : Nat) :
    (typeSpecSignature metadata type).Yields (metadata.typeSpecSignature type) :=
  .bind (requireRow_yields inside type) fun _ _ =>
    .bind (blob_yields inside.blobs _) fun _ _ => Decoder.Guarded.attempt_yields _ _ 0

theorem sequencePoints_yields (method : Nat) :
    (sequencePoints metadata method).Yields (metadata.sequencePoints method) := by
  refine .step (rowOf?_eq inside method) ?_
  rw [Metadata.sequencePoints]
  cases metadata.row? MethodDebugRow method with
  | none => exact .pure _
  | some row =>
      exact .bind (blob_yields inside.blobs _) fun _ _ => Decoder.Guarded.attempt_yields _ _ 0

theorem documentName_yields (document : Nat) :
    (documentName metadata document).Yields (metadata.documentName document) := by
  refine .bind (requireRow_yields inside document) fun _ _ =>
    .bind (blob_yields inside.blobs _) fun _ _ => ?_
  rw [dif_pos inside.blobs]
  exact Decoder.Guarded.attempt_yields _ _ 0

theorem answer_eq (query : Query) : answer metadata query = .ok (metadata.answer query) := by
  cases query with
  | string index => exact string_yields metadata.strings index.toNat
  | blob index => exact blob_yields inside.blobs index.toNat
  | guid index =>
      have word : index.toNat < UInt32.size := index.toNat_lt
      have room : index.toNat * 16 < UInt64.size :=
        Nat.lt_trans (Nat.mul_lt_mul_of_pos_right word (by decide)) (by decide)
      rcases guid_yields room metadata.guids with ⟨outcome, found, yields⟩
      rw [answer, Metadata.answer, Metadata.guid, found]
      exact bind_of_ok yields _
  | methodRange type => exact listRange_eq inside _ _ type.toNat
  | methodOwner method => exact methodOwner?_eq inside method.toNat
  | paramRange method => exact listRange_eq inside _ _ method.toNat
  | enclosingType type => exact enclosingType?_eq inside type.toNat
  | interfaceImpls type => exact rowsWithKey_eq inside _ type.toNat
  | methodSignature method => exact methodSignature_yields inside method.toNat
  | typeSpecSignature type => exact typeSpecSignature_yields inside type.toNat
  | sequencePoints method => exact sequencePoints_yields inside method.toNat
  | documentName document => exact documentName_yields inside document.toNat
  | localScopes method => exact rowsWithKey_eq inside _ method.toNat
  | localVariables scope => exact localVariables_eq inside scope.toNat

end Answers

end Strict

namespace Metadata

/-- No data make reading fault. If it succeeds, then all streams and tables lie where they are said
to lie, and no query makes the metadata fault. -/
theorem read_without_faults (data : Bytes) :
    (Strict.metadata data).Yields (read data) ∧
      ∀ metadata, read data = .ok metadata →
        (∀ header ∈ metadata.root.streams,
          header.offset + header.size < UInt32.size ∧ header.offset + header.size ≤ data.size) ∧
        (∃ header ∈ metadata.root.streams, metadata.tables.data = streamBytes data header ∧
          metadata.tables.data.size = header.size) ∧
        (∀ table, metadata.tables.isPresent table = true →
          metadata.tables.tableStart table +
              metadata.tables.rowCount table * metadata.tables.layout.rowSize table ≤
            metadata.tables.data.size) ∧
        ∀ query, Strict.answer metadata query = .ok (metadata.answer query) := by
  refine ⟨Strict.metadata_yields data, fun metadata found => ?_⟩
  obtain ⟨rootRead, _, ⟨header, present, tablesRead⟩, _⟩ := parts_of_read found
  have streams := MetadataRoot.inside_of_read rootRead
  have member := mem_of_tablesHeader? present
  have sameData := (TablesStream.parts_of_read tablesRead).1
  have inside := inside_of_read found
  refine ⟨streams, ⟨header, member, sameData, ?_⟩, inside.tables.tables, Strict.answer_eq inside⟩
  rw [sameData, (streams header member).size_streamBytes]

/-- Metadata with one type, whose list of methods starts far behind the end of the table of methods,
which has no rows. -/
def strayList : Bytes := #[
  -- the root and the header of the stream
  0x42, 0x53, 0x4A, 0x42, 1, 0, 1, 0, 0, 0, 0, 0, 0, 0, 0, 0, 0, 0, 1, 0,
  0x20, 0, 0, 0, 0x2A, 0, 0, 0, 0x23, 0x7E, 0, 0,
  -- one type
  0, 0, 0, 0, 2, 0, 0, 1, 4, 0, 0, 0, 0, 0, 0, 0, 0, 0, 0, 0, 0, 0, 0, 0,
  1, 0, 0, 0,
  0, 0, 0, 0, 0, 0, 0, 0, 0, 0, 0, 0, 0xFF, 0xFF]

theorem read_without_faults_strayList :
    ∃ metadata, read strayList = .ok metadata ∧
      metadata.row? TypeDefRow 1 = some ⟨1, 0, 0, 0, ⟨.typeDef, 0⟩, 0, 0xFFFF⟩ ∧
      Strict.answer metadata (.methodRange 1) = (.ok ⟨1, 1⟩ : Strict RowRange) := by
  have readable : (read strayList).toOption.any (fun metadata =>
      metadata.row? TypeDefRow 1 = some ⟨1, 0, 0, 0, ⟨.typeDef, 0⟩, 0, 0xFFFF⟩ ∧
        metadata.methodRange 1 = ⟨1, 1⟩) = true := by
    decide +kernel
  cases found : read strayList with
  | error error =>
      rw [found] at readable
      cases readable
  | ok metadata =>
      rw [found] at readable
      obtain ⟨row, range⟩ := of_decide_eq_true readable
      have answers := ((read_without_faults strayList).2 metadata found).2.2.2
      exact ⟨metadata, rfl, row, (answers (.methodRange 1)).trans (congrArg Except.ok range)⟩

end Metadata

end CilLoader
