import Mathlib.Data.List.Perm.Subperm
import CilLoader.Executable.Container
import CilLoader.Module.ParameterNames
import CilLoader.Proofs.Strict.Metadata
import CilLoader.Proofs.Stream.WrittenImage
import CilLoader.Proofs.Table.Blocks
import CilLoader.Proofs.Table.ListRanges

/-!
# Which parameter has which name

The names of the parameters of a method are those of its rows, without the return value. They are
taken row by row, so a name stands where its parameter stands as long as every row before it belongs
to an earlier parameter and none of these is left out.
-/

namespace CilLoader

/-! ## Rows without coded indices -/

section Intact

variable {ρ : Type} [Row ρ]

theorem Table.intact_of_inside {table : Table ρ}
    (plain : ∀ kind, Column.coded kind ∉ (Row.table ρ).columns)
    (inside : table.start + table.size ≤ table.data.size) : table.Intact := by
  intro rid positive within
  have bound : table.start + (rid - 1) * table.rowSize + table.rowSize ≤ table.data.size := by
    have rows := Nat.mul_le_mul_right table.rowSize within
    have size : (rid - 1) * table.rowSize + table.rowSize = rid * table.rowSize := by
      rw [← Nat.succ_mul, Nat.succ_eq_add_one, Nat.sub_add_cancel positive]
    rw [Table.size] at inside
    omega
  have tags : table.layout.TagsNamed table.data (table.start + (rid - 1) * table.rowSize)
      (Row.table ρ).columns := by
    intro before kind after split
    exact absurd (by simp [split]) (plain kind)
  rcases (Row.succeedsOn_decoder ρ table.layout rid table.data _).mpr ⟨bound, tags⟩ with
    ⟨row, stop, read⟩
  exact ⟨row, Table.get?_eq_some_iff.mpr ⟨⟨positive, within⟩, congrArg Prod.fst read⟩⟩

/-- Tables lie inside their stream, so a row is damaged only by the tag of a coded index. -/
theorem Metadata.intact_of_read {data : Bytes} {metadata : Metadata}
    (found : read data = .ok metadata)
    (plain : ∀ kind, Column.coded kind ∉ (Row.table ρ).columns) : metadata.Intact ρ := by
  intro rid positive within
  cases present : metadata.tables.isPresent (Row.table ρ) with
  | false =>
      rw [rowCount, TablesStream.rowCount, present] at within
      have noRows : rid ≤ 0 := within
      omega
  | true =>
      have table : metadata.table? ρ = some ⟨metadata.tables.data,
          metadata.tables.tableStart (Row.table ρ), metadata.tables.rowCount (Row.table ρ),
          metadata.tables.layout⟩ := if_pos present
      have inside := (inside_of_read found).tables.tables (Row.table ρ) present
      rw [row?_eq table]
      exact Table.intact_of_inside plain inside rid positive within

end Intact

theorem Image.read_of_ofBytes [ExecutableParser] {path : Path} {data : Bytes} {image : Image}
    (opened : ofBytes path data = .ok image) :
    Metadata.read image.file.metadata = .ok image.metadata := by
  rcases Error.bind_eq_ok.mp opened with ⟨file, _, opened⟩
  rcases Error.bind_eq_ok.mp opened with ⟨metadata, read, ⟨⟩⟩
  exact read

/-! ## Parameters -/

/-- The rows of a range, in the order of the table. -/
def Metadata.paramRows (metadata : Metadata) (range : RowRange) : List ParamRow :=
  range.toList.filterMap (metadata.row? ParamRow)

namespace ParameterNames

variable {metadata : Metadata} {start stop : Nat}

/-- The rows that describe parameters and not the return value. -/
def described (rows : List ParamRow) : List ParamRow :=
  rows.filter (·.sequence ≠ 0)

/-- Every row of a range is there. -/
def Present (metadata : Metadata) (start stop : Nat) : Prop :=
  ∀ rid, start ≤ rid → rid < stop → ∃ row, metadata.row? ParamRow rid = some row

/-- What is yielded name by name until the names end. -/
inductive Yields : ParameterNames → List String → Prop where
  | done {names : ParameterNames} (ended : names.next.1 = none) : Yields names []
  | more {names rest : ParameterNames} {name : String} {yielded : List String}
      (step : names.next = (some name, rest)) (others : Yields rest yielded) :
      Yields names (name :: yielded)

theorem Yields.take_eq {names : ParameterNames} {yielded : List String}
    (yields : Yields names yielded) (count : Nat) :
    (take count names).1 = yielded.take count := by
  induction yields generalizing count with
  | done ended =>
      cases count with
      | zero => rfl
      | succ count =>
          rw [take]
          split
          case _ => rfl
          case _ name rest step =>
            rw [step] at ended
            cases ended
  | more step _ induction =>
      cases count with
      | zero => rfl
      | succ count =>
          rw [take, step]
          dsimp only
          rw [induction, List.take_succ_cons]

theorem paramRows_of_le (ended : stop ≤ start) : metadata.paramRows ⟨start, stop⟩ = [] := by
  rw [Metadata.paramRows, RowRange.toList, Nat.sub_eq_zero_of_le ended]
  rfl

theorem paramRows_cons {row : ParamRow} (inside : start < stop)
    (found : metadata.row? ParamRow start = some row) :
    metadata.paramRows ⟨start, stop⟩ = row :: metadata.paramRows ⟨start + 1, stop⟩ := by
  rw [Metadata.paramRows, RowRange.toList]
  dsimp only
  have count : stop - start = stop - (start + 1) + 1 := by omega
  rw [count, List.range'_succ, List.filterMap_cons_some found]
  rfl

/-- A search passes the rows of the return value, and goes on behind the row that it has found. -/
theorem search_cases (present : Present metadata start stop) :
    ((search metadata (stop - start) start).1 = none ∧
      described (metadata.paramRows ⟨start, stop⟩) = []) ∨
    ∃ row next, search metadata (stop - start) start = (some (nameOf metadata row), next) ∧
      start < next ∧ described (metadata.paramRows ⟨start, stop⟩) =
        row :: described (metadata.paramRows ⟨next, stop⟩) := by
  induction left : stop - start generalizing start with
  | zero =>
      rw [paramRows_of_le (by omega)]
      exact .inl ⟨rfl, rfl⟩
  | succ count induction =>
      rcases present start (Nat.le_refl start) (by omega) with ⟨row, found⟩
      rw [search, found, paramRows_cons (by omega) found]
      by_cases isReturn : row.sequence = 0
      · have passed : described (row :: metadata.paramRows ⟨start + 1, stop⟩) =
            described (metadata.paramRows ⟨start + 1, stop⟩) := by simp [described, isReturn]
        simp only [if_pos isReturn, passed]
        have behindRow :=
          @induction (start + 1) (fun rid after => present rid (by omega)) (by omega)
        rcases behindRow with ended | ⟨other, next, step, behind, rows⟩
        · exact .inl ended
        · exact .inr ⟨other, next, step, by omega, rows⟩
      · simp only [if_neg isReturn]
        exact .inr ⟨row, start + 1, rfl, Nat.lt_succ_self start, by simp [described, isReturn]⟩

theorem yields_rows (present : Present metadata start stop) :
    Yields ⟨some metadata, false, ⟨start, stop⟩⟩
      ((described (metadata.paramRows ⟨start, stop⟩)).map (nameOf metadata)) := by
  -- By induction on the rows that are left: a search that finds a name uses up one of them.
  induction rows : described (metadata.paramRows ⟨start, stop⟩) generalizing start with
  | nil =>
      rcases search_cases present with ⟨ended, _⟩ | ⟨row, next, _, _, more⟩
      · exact .done ended
      · cases rows.symm.trans more
  | cons row rest induction =>
      rcases search_cases present with ⟨_, ended⟩ | ⟨found, next, step, behind, more⟩
      · cases rows.symm.trans ended
      · cases rows.symm.trans more
        have others := induction (fun rid after => present rid (by omega)) rfl
        refine .more ?_ others
        rw [ParameterNames.next]
        simp [step]

theorem length_described_le :
    (described (metadata.paramRows ⟨start, stop⟩)).length ≤ stop - start :=
  calc (described (metadata.paramRows ⟨start, stop⟩)).length
    _ ≤ (metadata.paramRows ⟨start, stop⟩).length := List.length_filter_le _ _
    _ ≤ (RowRange.toList ⟨start, stop⟩).length := List.length_filterMap_le _ _
    _ = stop - start := List.length_range'

/-- The names of a method: that of the receiver, and one for each row of a parameter. -/
theorem yields_ofMethod {module : Module} {method : MethodDefinition}
    (same : method.module = module.id)
    (present : Present module.metadata method.params.start method.params.stop) :
    let names := (described (module.metadata.paramRows method.params)).map (nameOf module.metadata)
    Yields (ofMethod module method) ((if method.isStatic then [] else [receiver]) ++ names) ∧
      (ofMethod module method).toList = (if method.isStatic then [] else [receiver]) ++ names := by
  intro names
  have rows : Yields ⟨some module.metadata, false, method.params⟩ names := yields_rows present
  have few : names.length ≤ method.params.stop - method.params.start := by
    rw [List.length_map]
    exact length_described_le
  have yields :
      Yields (ofMethod module method) ((if method.isStatic then [] else [receiver]) ++ names) := by
    rw [ofMethod, if_pos same]
    cases method.isStatic with
    | true => exact rows
    | false => exact .more rfl rows
  refine ⟨yields, ?_⟩
  rw [toList, yields.take_eq, List.take_of_length_le]
  rw [ofMethod, if_pos same, bound, List.length_append]
  split <;> simp <;> omega

/-! ## Places -/

/-- Exactly one row has a number, and its name can be read. -/
def HasName (metadata : Metadata) (rows : List ParamRow) (number : Nat) (name : String) : Prop :=
  ∃ row, rows.filter (·.sequence = number) = [row] ∧ metadata.string row.name = .ok name

/-- How many rows of parameters stand before the one with a number. -/
def namedBefore (rows : List ParamRow) (number : Nat) : Nat :=
  (described (rows.takeWhile (·.sequence ≠ number))).length

variable {rows : List ParamRow} {number : Nat}

theorem exists_split {row : ParamRow} (single : rows.filter (·.sequence = number) = [row]) :
    row.sequence = number ∧
      ∃ after, rows = rows.takeWhile (·.sequence ≠ number) ++ row :: after := by
  induction rows with
  | nil => cases single
  | cons first rows induction =>
      by_cases same : first.sequence = number
      · rw [List.filter_cons_of_pos (by simpa using same)] at single
        rcases List.cons.inj single with ⟨rfl, _⟩
        exact ⟨same, rows, by simp [same]⟩
      · rw [List.filter_cons_of_neg (by simpa using same)] at single
        rcases induction single with ⟨hasNumber, after, split⟩
        refine ⟨hasNumber, after, ?_⟩
        rw [List.takeWhile_cons_of_pos (by simpa using same), List.cons_append, ← split]

theorem described_split {row : ParamRow} (positive : 1 ≤ number)
    (single : rows.filter (·.sequence = number) = [row]) :
    ∃ after, described rows =
      described (rows.takeWhile (·.sequence ≠ number)) ++ row :: described after := by
  rcases exists_split single with ⟨hasNumber, after, split⟩
  refine ⟨after, ?_⟩
  have isParameter : row.sequence ≠ 0 := by omega
  calc described rows
    _ = described (rows.takeWhile (·.sequence ≠ number) ++ row :: after) := congrArg described split
    _ = described (rows.takeWhile (·.sequence ≠ number)) ++ row :: described after := by
      simp [described, isParameter]

theorem getElem?_namedBefore {name : String} (positive : 1 ≤ number)
    (hasName : HasName metadata rows number name) :
    ((described rows).map (nameOf metadata))[namedBefore rows number]? = some name := by
  rcases hasName with ⟨row, single, readable⟩
  rcases described_split positive single with ⟨after, split⟩
  have named : nameOf metadata row = name := by
    rw [nameOf, readable]
    rfl
  rw [split, List.map_append, namedBefore, List.getElem?_append_right (by simp)]
  simp [named]

theorem length_add_one_eq_iff {numbers : List Nat} {limit : Nat} (positive : 1 ≤ limit)
    (distinct : numbers.Nodup) (bounds : ∀ number ∈ numbers, 1 ≤ number ∧ number < limit) :
    numbers.length + 1 = limit ↔ ∀ number, 1 ≤ number → number < limit → number ∈ numbers := by
  -- The numbers are some of those below the limit, so they are all of them if there are as many.
  have inRange : ∀ number, number ∈ List.range' 1 (limit - 1) ↔ 1 ≤ number ∧ number < limit := by
    intro number
    rw [List.mem_range'_1]
    omega
  have inside : numbers.Subperm (List.range' 1 (limit - 1)) :=
    List.subperm_of_subset distinct fun number member => (inRange number).mpr (bounds number member)
  constructor
  · intro length number atLeast below
    have all : numbers.Perm (List.range' 1 (limit - 1)) :=
      inside.perm_of_length_le (by rw [List.length_range']; omega)
    exact all.mem_iff.mpr ((inRange number).mpr ⟨atLeast, below⟩)
  · intro all
    have covers : (List.range' 1 (limit - 1)).Subperm numbers :=
      List.subperm_of_subset List.nodup_range' fun number member =>
        all number ((inRange number).mp member).1 ((inRange number).mp member).2
    have atMost := inside.length_le
    have atLeast := covers.length_le
    rw [List.length_range'] at atMost atLeast
    omega

/-- Where rows ascend, those that stand before a parameter are those of earlier parameters. -/
theorem mem_before_iff {row other : ParamRow} (positive : 1 ≤ number)
    (single : rows.filter (·.sequence = number) = [row])
    (ascending : (described rows).Pairwise (·.sequence < ·.sequence)) :
    other ∈ described (rows.takeWhile (·.sequence ≠ number)) ↔
      other ∈ rows ∧ 1 ≤ other.sequence ∧ other.sequence < number := by
  have hasNumber := (exists_split single).1
  have mem_described : other ∈ described rows ↔ other ∈ rows ∧ 1 ≤ other.sequence := by
    simp [described, Nat.one_le_iff_ne_zero]
  rcases described_split positive single with ⟨after, split⟩
  rw [split, List.pairwise_append] at ascending
  rw [split, List.mem_append, List.mem_cons] at mem_described
  constructor
  · intro isBefore
    have member := mem_described.mp (.inl isBefore)
    have below := ascending.2.2 other isBefore row List.mem_cons_self
    exact ⟨member.1, member.2, hasNumber ▸ below⟩
  · rintro ⟨member, atLeast, below⟩
    rcases mem_described.mpr ⟨member, atLeast⟩ with isBefore | rfl | isAfter
    · exact isBefore
    · omega
    · have above := (List.pairwise_cons.mp ascending.2.1).1 other isAfter
      omega

/-- Where rows ascend, those before a parameter are as many as the earlier parameters exactly if
every earlier parameter has one. -/
theorem namedBefore_add_one_iff {row : ParamRow} (positive : 1 ≤ number)
    (single : rows.filter (·.sequence = number) = [row])
    (ascending : (described rows).Pairwise (·.sequence < ·.sequence)) :
    namedBefore rows number + 1 = number ↔
      ∀ earlier, 1 ≤ earlier → earlier < number → ∃ other ∈ rows, other.sequence = earlier := by
  let before := described (rows.takeWhile (·.sequence ≠ number))
  have distinct : (before.map (·.sequence)).Nodup := by
    rcases described_split positive single with ⟨after, split⟩
    rw [split, List.pairwise_append] at ascending
    rw [List.Nodup, List.pairwise_map]
    exact ascending.1.imp Nat.ne_of_lt
  have mem_numbers (earlier : Nat) : earlier ∈ before.map (·.sequence) ↔
      (∃ other ∈ rows, other.sequence = earlier) ∧ 1 ≤ earlier ∧ earlier < number := by
    simp only [List.mem_map, before, mem_before_iff positive single ascending]
    constructor
    · rintro ⟨other, ⟨member, bounds⟩, rfl⟩
      exact ⟨⟨other, member, rfl⟩, bounds⟩
    · rintro ⟨⟨other, member, rfl⟩, bounds⟩
      exact ⟨other, ⟨member, bounds⟩, rfl⟩
  have count : (before.map (·.sequence)).length = namedBefore rows number := List.length_map _
  rw [← count, length_add_one_eq_iff positive distinct fun earlier member =>
    ((mem_numbers earlier).mp member).2]
  constructor
  · intro all earlier atLeast below
    exact ((mem_numbers earlier).mp (all earlier atLeast below)).1
  · intro all earlier atLeast below
    exact (mem_numbers earlier).mpr ⟨all earlier atLeast below, atLeast, below⟩

theorem params_of_methodByToken {module : Module} {token : Token} {method : MethodDefinition}
    (handle : module.methodByToken token = .ok method) :
    method.module = module.id ∧ method.params = module.metadata.paramRange token.row := by
  rw [Module.methodByToken] at handle
  split at handle
  · cases handle
  · split at handle
    case _ row owner _ _ =>
      rcases Error.bind_eq_ok.mp handle with ⟨name, _, handle⟩
      rcases Error.bind_eq_ok.mp handle with ⟨signature, _, ⟨⟩⟩
      exact ⟨rfl, rfl⟩
    case _ => cases handle

theorem present_paramRange {data : Bytes} (read : Metadata.read data = .ok metadata)
    (method : Nat) :
    Present metadata (metadata.paramRange method).start (metadata.paramRange method).stop := by
  have plain : ∀ kind, Column.coded kind ∉ TableId.param.columns := by
    simp [TableId.columns]
  have intact : metadata.Intact ParamRow := Metadata.intact_of_read read plain
  intro rid atLeast below
  have contains : (metadata.paramRange method).contains rid = true := by
    simp [RowRange.contains, atLeast, below]
  rcases Metadata.contains_listRange_iff.mp contains with ⟨positive, inside, _⟩
  exact intact rid positive inside

/-- Names are yielded for the rows of parameters, and none else, in the order of the rows where
these ascend. The name of a parameter stands at its place if as many rows of parameters stand before
its own as there are earlier parameters. In rows that ascend, these are as many exactly if no
earlier parameter lacks its row. -/
theorem names_at_places [ExecutableParser] {path : Path} {data : Bytes} {module : Module}
    {token : Token} {method : MethodDefinition}
    (opened : Image.ofBytes path data = .ok module.image)
    (handle : module.methodByToken token = .ok method) :
    ∃ names,
      Yields (ofMethod module method) ((if method.isStatic then [] else [receiver]) ++ names) ∧
      (ofMethod module method).toList = (if method.isStatic then [] else [receiver]) ++ names ∧
      let rows := module.metadata.paramRows (module.metadata.paramRange token.row)
      names.Perm ((described rows).map (nameOf module.metadata)) ∧
      ((described rows).Pairwise (·.sequence < ·.sequence) →
        names = (described rows).map (nameOf module.metadata)) ∧
      ∀ number name, 1 ≤ number → HasName module.metadata rows number name →
        (namedBefore rows number + 1 = number → names[number - 1]? = some name) ∧
        ((described rows).Pairwise (·.sequence < ·.sequence) →
          (namedBefore rows number + 1 = number ↔
            ∀ earlier, 1 ≤ earlier → earlier < number → ∃ row ∈ rows, row.sequence = earlier)) := by
  rcases params_of_methodByToken handle with ⟨same, params⟩
  have present : Present module.metadata method.params.start method.params.stop := by
    rw [params]
    exact present_paramRange (Image.read_of_ofBytes opened) token.row
  rcases yields_ofMethod same present with ⟨yields, collected⟩
  refine ⟨_, yields, collected, ?_⟩
  rw [params]
  refine ⟨.refl _, fun _ => rfl, ?_⟩
  intro number name positive hasName
  constructor
  · intro behind
    rw [← getElem?_namedBefore positive hasName]
    congr 1
    omega
  · rcases hasName with ⟨row, single, _⟩
    exact namedBefore_add_one_iff positive single

/-! ## An image with names -/

open scoped Container

/-- An assembly with two methods of two parameters. The first is static, and only its second
parameter has a row. The second has rows for the return value and both parameters. -/
def namedContents : ImageContents where
  tables := {
    major := 2
    minor := 0
    heapSizes := 0
    sorted := 0
    reserved := (0, 1)
    tables
      | .typeDef => some (.rows [(0, 1, 0, (Fin.last 2, 0), 1, 1, ())])
      | .methodDef => some (.rows [(0, 0, 0x10, 3, 1, 1, ()), (0, 0, 0, 5, 7, 2, ())])
      | .param => some (.rows [(0, 2, 9, ()), (0, 0, 0, ()), (0, 1, 7, ()), (0, 2, 9, ())])
      | .assembly => some (.rows [(0x8004, 1, 0, 0, 0, 0, 0, 1, 0, ())])
      | _ => none }
  names := ["A", "F", "G", "a", "b"]
  blobs := [5, 0, 2, 1, 8, 8, 5, 0x20, 2, 1, 8, 8]

theorem fits_namedContents : namedContents.Fits where
  root := {
    version := by decide +kernel
    someStreams := by decide
    fewStreams := by decide
    headers := by decide +kernel }
  tables := by
    constructor
    · intro table count found
      cases table <;> cases found <;> decide +kernel
    · intro table tableContents found
      cases table <;> cases found <;> decide +kernel
  names := by decide +kernel

def namedModule : Module where
  id := 1
  identity := ⟨"A", ⟨1, 0, 0, 0⟩, none, none⟩
  image := ⟨⟨"/A"⟩, namedContents.file, namedContents.metadata⟩

theorem opened_namedModule :
    Image.ofBytes ⟨"/A"⟩ namedContents.encode = .ok namedModule.image ∧
      Module.ofImage 1 namedModule.image none = .ok namedModule := by
  have identity : namedModule.image.metadata.identity? = .ok (some namedModule.identity) :=
    Error.toOption_eq_some.mp (by decide +kernel)
  refine ⟨ImageContents.ofBytes_encode ⟨"/A"⟩ fits_namedContents, ?_⟩
  rw [Module.ofImage, identity]
  rfl

theorem names_at_places_named :
    ∃ method, namedModule.methodByToken (Module.methodToken 2) = .ok method ∧
      ∃ names, (ofMethod namedModule method).toList = receiver :: names ∧
        names[0]? = some "a" ∧ names[1]? = some "b" := by
  have evaluated : (namedModule.methodByToken (Module.methodToken 2)).toOption.any
      (fun method => decide (method.isStatic = false)) = true := by
    decide +kernel
  simp only [Option.any_eq_true, decide_eq_true_eq] at evaluated
  rcases evaluated with ⟨method, handle, hasReceiver⟩
  have handle := Error.toOption_eq_some.mp handle
  rcases names_at_places opened_namedModule.1 handle with ⟨names, _, collected, _, _, places⟩
  rw [hasReceiver] at collected
  have second := places 2 "b" (by decide)
    ⟨⟨4, 0, 2, 9⟩, by decide +kernel, Error.toOption_eq_some.mp (by decide +kernel)⟩
  have first := places 1 "a" (by decide)
    ⟨⟨3, 0, 1, 7⟩, by decide +kernel, Error.toOption_eq_some.mp (by decide +kernel)⟩
  have noneLacks : ∀ earlier, 1 ≤ earlier → earlier < 2 → ∃ row ∈ namedModule.metadata.paramRows
      (namedModule.metadata.paramRange (Module.methodToken 2).row), row.sequence = earlier := by
    intro earlier atLeast below
    exact ⟨⟨3, 0, 1, 7⟩, by decide +kernel, by dsimp only; omega⟩
  refine ⟨method, handle, names, collected, first.1 (by decide +kernel), ?_⟩
  exact second.1 ((second.2 (by decide +kernel)).mpr noneLacks)

/-- The second parameter of the first method is named first. -/
theorem not_names_at_all_places :
    ¬∀ (path : Path) (data : Bytes) (module : Module) (token : Token) (method : MethodDefinition),
      Image.ofBytes path data = .ok module.image → module.methodByToken token = .ok method →
      ∀ number name, 1 ≤ number → number ≤ method.signature.parameters.length →
        HasName module.metadata (module.metadata.paramRows (module.metadata.paramRange token.row))
          number name →
        ((ofMethod module method).toList.drop (if method.isStatic then 0 else 1))[number - 1]? =
          some name := by
  intro always
  have evaluated : (namedModule.methodByToken (Module.methodToken 1)).toOption.any (fun method =>
      decide (method.isStatic = true ∧ method.signature.parameters.length = 2 ∧
        (ofMethod namedModule method).toList = ["b"])) = true := by
    decide +kernel
  have hasName : HasName namedModule.metadata (namedModule.metadata.paramRows
      (namedModule.metadata.paramRange (Module.methodToken 1).row)) 2 "b" :=
    ⟨⟨1, 0, 2, 9⟩, by decide +kernel, Error.toOption_eq_some.mp (by decide +kernel)⟩
  simp only [Option.any_eq_true, decide_eq_true_eq] at evaluated
  rcases evaluated with ⟨method, handle, isStatic, parameters, names⟩
  have second := always _ _ namedModule _ method opened_namedModule.1
    (Error.toOption_eq_some.mp handle) 2 "b" (by decide) (Nat.le_of_eq parameters.symm) hasName
  rw [isStatic, names] at second
  cases second

end ParameterNames

end CilLoader
