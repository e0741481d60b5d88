import CilLoader.Proofs.Bytes.CompressedForms
import CilLoader.Proofs.Table.Blocks
import CilLoader.Proofs.Table.Entries
import CilLoader.Table.Kind

/-!
# Walks that are asked again

A walk that has given no row can be asked again. If a damaged row has stopped it, it reads on where
that row has stopped, but counts from before it, so that what it gives is not the row with that
number. A row that is cut off by the end of the data does no harm: reading on does not get away from
the end, and nothing is given any more. Hence walks can be asked again without harm in just those
tables in which every tag of a coded index stands for a table, so that only the end of the data can
damage a row.
-/

namespace CilLoader

open Decoder

/-! ## Columns that are always read -/

theorem CodedKind.tables_pos (kind : CodedKind) : 0 < kind.tables.length := by
  cases kind <;> decide

/-- No tag that fits its bits is without a table. -/
def Column.Complete : Column → Prop
  | number _ => True
  | coded kind => kind.tables.length = 1 <<< kind.tagBits

instance : (column : Column) → Decidable column.Complete
  | .number _ => .isTrue trivial
  | .coded kind => inferInstanceAs (Decidable (kind.tables.length = 1 <<< kind.tagBits))

theorem Column.Complete.tagNamed {column : Column} (complete : column.Complete) (layout : Layout)
    (data : Bytes) (position : Nat) : column.TagNamed layout data position := by
  cases column with
  | number storage => trivial
  | coded kind =>
      have allTags : kind.tables.length = 1 <<< kind.tagBits := complete
      rw [TagNamed, allTags]
      exact Nat.mod_lt _ (by rw [Nat.one_shiftLeft]; exact Nat.two_pow_pos _)

theorem Row.exists_read {ρ : Type} [Row ρ] {layout : Layout} {data : Bytes} {position : Nat}
    (complete : ∀ column ∈ (Row.table ρ).columns, column.Complete)
    (inside : position + layout.rowSize (Row.table ρ) ≤ data.size) (rid : Nat) :
    ∃ row stop, Row.decoder ρ layout rid data position = (.ok row, stop) := by
  refine (Row.succeedsOn_decoder ρ layout rid data position).mpr ⟨inside, ?_⟩
  intro before kind after split
  exact (complete (.coded kind) (by simp [split])).tagNamed layout data _

namespace Table

section Answers

variable {α : Type}

/-- Where nothing has been given, nothing is given later. -/
def EndsForGood (answers : List (Option α)) : Prop :=
  answers.Pairwise fun earlier later => earlier = none → later = none

theorem endsForGood_none_cons {answers : List (Option α)} :
    EndsForGood (none :: answers) ↔ ∀ answer ∈ answers, answer = none := by
  rw [EndsForGood, List.pairwise_cons]
  constructor
  · intro ends answer member
    exact ends.1 answer member rfl
  · intro nothing
    exact ⟨fun answer member _ => nothing answer member,
      List.pairwise_of_forall_mem_list fun _ _ later member _ => nothing later member⟩

theorem endsForGood_some_cons {value : α} {answers : List (Option α)} :
    EndsForGood (some value :: answers) ↔ EndsForGood answers := by
  rw [EndsForGood, List.pairwise_cons]
  exact and_iff_right fun _ _ given => nomatch given

end Answers

variable {ρ : Type} [Row ρ] {table : Table ρ}

/-! ## Calls -/

/-- What so many calls give, one after the other. -/
def Iterator.answers : (count : Nat) → Iterator ρ → List (Option ρ)
  | 0, _ => []
  | count + 1, iterator => iterator.next.1 :: answers count iterator.next.2

namespace Iterator

variable {iterator : Iterator ρ}

theorem next_of_ok {row : ρ} {stop : Nat} (left : iterator.passed < iterator.table.rowCount)
    (read : Row.decoder ρ iterator.table.layout (iterator.passed + 1) iterator.table.data
      iterator.position = (.ok row, stop)) :
    iterator.next = (some row, ⟨iterator.table, iterator.passed + 1, stop⟩) := by
  rw [next, if_neg (Nat.not_le.mpr left)]
  simp only [read]

theorem next_of_error {error : Error} {stop : Nat}
    (left : iterator.passed < iterator.table.rowCount)
    (failed : Row.decoder ρ iterator.table.layout (iterator.passed + 1) iterator.table.data
      iterator.position = (.error error, stop)) :
    iterator.next = (none, ⟨iterator.table, iterator.passed, stop⟩) := by
  rw [next, if_neg (Nat.not_le.mpr left)]
  simp only [failed]

/-- A call gives a row under the next number, or none, and then the number stays. -/
theorem next_cases (iterator : Iterator ρ) :
    (∃ row stop,
      Row.decoder ρ iterator.table.layout (iterator.passed + 1) iterator.table.data
        iterator.position = (.ok row, stop) ∧
      iterator.next = (some row, ⟨iterator.table, iterator.passed + 1, stop⟩)) ∨
    (iterator.table.rowCount ≤ iterator.passed ∧ iterator.next = (none, iterator)) ∨
    ∃ error stop,
      Row.decoder ρ iterator.table.layout (iterator.passed + 1) iterator.table.data
        iterator.position = (.error error, stop) ∧
      iterator.next = (none, ⟨iterator.table, iterator.passed, stop⟩) := by
  rcases Nat.lt_or_ge iterator.passed iterator.table.rowCount with left | passedAll
  · rcases outcome : Row.decoder ρ iterator.table.layout (iterator.passed + 1)
      iterator.table.data iterator.position with ⟨error | row, stop⟩
    · exact .inr (.inr ⟨error, stop, rfl, next_of_error left outcome⟩)
    · exact .inl ⟨row, stop, rfl, next_of_ok left outcome⟩
  · exact .inr (.inl ⟨passedAll, if_pos passedAll⟩)

theorem passed_of_next_eq_none (ended : iterator.next.1 = none) :
    iterator.next.2.passed = iterator.passed := by
  rcases iterator.next_cases with ⟨row, stop, _, step⟩ | ⟨_, step⟩ | ⟨error, stop, _, step⟩
  · rw [step] at ended
    cases ended
  · rw [step]
  · rw [step]

theorem rid_of_next_eq_some {row : ρ} (given : iterator.next.1 = some row) :
    Row.rid row = iterator.passed + 1 := by
  rcases iterator.next_cases with ⟨_, stop, read, step⟩ | ⟨_, step⟩ | ⟨error, stop, _, step⟩
  all_goals
    rw [step] at given
    cases given
  exact Row.rid_of_decoder read

/-- The first row that is given has the next number, whatever comes before it. -/
theorem exists_next_of_mem_answers {count : Nat} {row : ρ}
    (given : some row ∈ iterator.answers count) :
    ∃ first, some first ∈ iterator.answers count ∧ Row.rid first = iterator.passed + 1 := by
  induction count generalizing iterator with
  | zero => cases given
  | succ count induction =>
      rw [answers] at given ⊢
      cases answer : iterator.next.1 with
      | none =>
          rw [answer] at given
          have later := (List.mem_cons.mp given).resolve_left (Option.some_ne_none row)
          rcases induction later with ⟨first, member, number⟩
          rw [passed_of_next_eq_none answer] at number
          exact ⟨first, List.mem_cons_of_mem _ member, number⟩
      | some first => exact ⟨first, List.mem_cons_self, rid_of_next_eq_some answer⟩

end Iterator

/-- Up to the first damaged row a walk gives what is asked for. What it gives next, if anything, has
the number of that row, under which nothing can be asked for. -/
theorem answers_iteratorAt_iff (count passed : Nat) :
    (∀ row, some row ∈ (table.iteratorAt passed).answers count →
      table.get? (Row.rid row) = some row) ↔
      EndsForGood ((table.iteratorAt passed).answers count) := by
  induction count generalizing passed with
  | zero => simp [Iterator.answers, EndsForGood]
  | succ count induction =>
      cases found : table.get? (passed + 1) with
      | some row =>
          have asked : table.get? (Row.rid row) = some row := by rwa [rid_eq_of_get? found]
          rw [Iterator.answers, next_iteratorAt found, endsForGood_some_cons, ← induction]
          simp [asked]
      | none =>
          have ended := (fst_next_iteratorAt passed).trans found
          have number := Iterator.passed_of_next_eq_none ended
          rw [Iterator.answers, ended, endsForGood_none_cons]
          constructor
          · intro agrees answer member
            by_contra given
            rcases Option.ne_none_iff_exists'.mp given with ⟨row, rfl⟩
            rcases Iterator.exists_next_of_mem_answers member with ⟨first, firstMember, firstNumber⟩
            have asked := agrees first (List.mem_cons_of_mem _ firstMember)
            rw [firstNumber, number] at asked
            cases found.symm.trans asked
          · intro nothing row member
            have later := (List.mem_cons.mp member).resolve_left (Option.some_ne_none row)
            cases nothing _ later

theorem answers_agree_iff (table : Table ρ) (count : Nat) :
    (∀ row, some row ∈ table.iterator.answers count → table.get? (Row.rid row) = some row) ↔
      EndsForGood (table.iterator.answers count) := by
  rw [iterator_eq_iteratorAt]
  exact answers_iteratorAt_iff count 0

/-! ## The end of the data -/

namespace Iterator

variable {iterator : Iterator ρ}

/-- All rows have been passed, or there is no room for another one. -/
def Exhausted (iterator : Iterator ρ) : Prop :=
  iterator.table.rowCount ≤ iterator.passed ∨
    iterator.table.data.size < iterator.position + iterator.table.rowSize

theorem Exhausted.next (exhausted : iterator.Exhausted) :
    iterator.next.1 = none ∧ iterator.next.2.Exhausted := by
  rcases exhausted with passedAll | cutOff
  · rw [Iterator.next, if_pos passedAll]
    exact ⟨rfl, .inl passedAll⟩
  · rcases iterator.next_cases with ⟨row, stop, read, _⟩ | ⟨_, step⟩ | ⟨error, stop, read, step⟩
    · have inside := ((Row.succeedsOn_decoder ρ _ _ _ _).mp ⟨row, stop, read⟩).1
      rw [rowSize] at cutOff
      omega
    · rw [step]
      exact ⟨rfl, .inr cutOff⟩
    · have onward := (Guarded.row ρ iterator.table.layout (iterator.passed + 1)).le_stop
        iterator.table.data iterator.position
      rw [read] at onward
      rw [step]
      exact ⟨rfl, .inr (Nat.lt_of_lt_of_le cutOff (Nat.add_le_add_right onward _))⟩

/-- If every tag stands for a table, only the end of the data can damage a row. -/
theorem exhausted_of_next_eq_none (complete : ∀ column ∈ (Row.table ρ).columns, column.Complete)
    (ended : iterator.next.1 = none) : iterator.Exhausted := by
  rcases iterator.next_cases with ⟨row, _, _, step⟩ | ⟨passedAll, _⟩ | ⟨_, _, failed, _⟩
  · rw [step] at ended
    cases ended
  · exact .inl passedAll
  · apply Or.inr
    apply Nat.lt_of_not_le
    intro inside
    rcases Row.exists_read complete inside (iterator.passed + 1) with ⟨row, stop, read⟩
    cases failed.symm.trans read

theorem Exhausted.answers (exhausted : iterator.Exhausted) {count : Nat} {answer : Option ρ}
    (member : answer ∈ iterator.answers count) : answer = none := by
  induction count generalizing iterator with
  | zero => cases member
  | succ count induction =>
      rcases List.mem_cons.mp member with rfl | later
      · exact exhausted.next.1
      · exact induction exhausted.next.2 later

theorem endsForGood_answers (complete : ∀ column ∈ (Row.table ρ).columns, column.Complete)
    (iterator : Iterator ρ) (count : Nat) : EndsForGood (iterator.answers count) := by
  induction count generalizing iterator with
  | zero => exact List.Pairwise.nil
  | succ count induction =>
      rw [Iterator.answers]
      cases answer : iterator.next.1 with
      | some row => exact endsForGood_some_cons.mpr (induction iterator.next.2)
      | none =>
          have exhausted := (exhausted_of_next_eq_none complete answer).next.2
          exact endsForGood_none_cons.mpr fun _ later => exhausted.answers later

end Iterator

end Table

/-! ## Damage in front of a whole row -/

/-- Zero, which as a coded index names no row of the first table. -/
def Column.blank : (column : Column) → column.Entry
  | number _ => (0 : Nat)
  | coded kind => (⟨0, kind.tables_pos⟩, 0)

theorem Column.stored_blank (column : Column) : column.stored column.blank = 0 := by
  cases column with
  | number storage => rfl
  | coded kind =>
      show 0 <<< kind.tagBits ||| 0 = 0
      rw [Nat.zero_shiftLeft, Nat.or_zero]

def Entries.blank : (columns : List Column) → Entries columns
  | [] => ()
  | column :: columns => (column.blank, blank columns)

theorem Entries.fit_blank (layout : Layout) (columns : List Column) :
    (Entries.blank columns).Fit layout := by
  induction columns with
  | nil => trivial
  | cons column columns induction =>
      refine ⟨?_, induction⟩
      rw [Column.Fits, column.stored_blank]
      exact Bytes.limit_pos _

/-- The number behind the last tag is read, but not decoded. -/
theorem Column.decoder_of_untagged {kind : CodedKind}
    (incomplete : ¬(Column.coded kind).Complete) {layout : Layout} {data : Bytes} {position : Nat}
    (holds : data.HoldsAt position
      (Bytes.ofNumber (layout.codedWidth kind) kind.tables.length)) :
    (Column.coded kind).decoder layout data position =
      (.error .outOfBounds, position + layout.codedWidth kind) := by
  have untagged : kind.tables.length < 1 <<< kind.tagBits :=
    Nat.lt_of_le_of_ne kind.length_tables_le incomplete
  have refused : CodedIndex.decode kind kind.tables.length = .error .outOfBounds := by
    rw [CodedIndex.decode, Nat.mod_eq_of_lt untagged, List.getElem?_eq_none (Nat.le_refl _)]
  have fits : kind.tables.length < Bytes.limit (layout.codedWidth kind) := by
    have fitsTwo : kind.tables.length < Bytes.limit 2 := by cases kind <;> decide
    rcases Layout.width_eq_or (16 < layout.codedBits kind) with two | four
    · rwa [Layout.codedWidth, two]
    · rw [Layout.codedWidth, four]
      exact Nat.lt_trans fitsTwo (by decide)
  have stored := Decoder.recovers_number fits data position holds
  rw [Bytes.length_ofNumber] at stored
  refine (bind_of_ok stored).trans ?_
  rw [refused]
  rfl

/-- Columns are read up to the first that is damaged. -/
theorem Cells.decoder_of_error {layout : Layout} {data : Bytes} {before after : List Column}
    {column : Column} {cells : Cells before} {error : Error} {position middle stop : Nat}
    (read : Cells.decoder layout before data position = (.ok cells, middle))
    (failed : column.decoder layout data middle = (.error error, stop)) :
    Cells.decoder layout (before ++ column :: after) data position = (.error error, stop) := by
  induction before generalizing position with
  | nil =>
      cases read
      exact bind_of_error failed
  | cons first before induction =>
      rcases bind_eq_ok.mp read with ⟨value, next, begun, read⟩
      rcases bind_eq_ok.mp read with ⟨values, _, rest, ⟨⟩⟩
      exact (bind_of_ok begun).trans (bind_of_error (induction rest))

theorem Row.decoder_of_error {ρ : Type} [Row ρ] {layout : Layout} {data : Bytes}
    {before after : List Column} {column : Column} {cells : Cells before} {error : Error}
    {position middle stop : Nat} (split : (Row.table ρ).columns = before ++ column :: after)
    (read : Cells.decoder layout before data position = (.ok cells, middle))
    (failed : column.decoder layout data middle = (.error error, stop)) (rid : Nat) :
    Row.decoder ρ layout rid data position = (.error error, stop) := by
  apply bind_of_error
  rw [split]
  exact Cells.decoder_of_error read failed

namespace Table

variable {ρ : Type} [Row ρ]

/-- A row that is damaged in one of its coded indexes, with a whole row behind the damage. -/
def spoiled (ρ : Type) [Row ρ] (layout : Layout) (before : List Column) (kind : CodedKind) :
    Table ρ where
  data := ((Entries.blank before).encode layout ++
    Bytes.ofNumber (layout.codedWidth kind) kind.tables.length ++
    (Entries.blank (Row.table ρ).columns).encode layout).toArray
  start := 0
  rowCount := 1
  layout := layout

/-- The damaged row is not read, but where it stops there is a row. -/
theorem decoder_spoiled {before after : List Column} {kind : CodedKind}
    (split : (Row.table ρ).columns = before ++ .coded kind :: after)
    (incomplete : ¬(Column.coded kind).Complete) (layout : Layout) (rid : Nat) :
    ∃ stop, Row.decoder ρ layout rid (spoiled ρ layout before kind).data 0 =
        (.error .outOfBounds, stop) ∧
      ∃ row behind, Row.decoder ρ layout rid (spoiled ρ layout before kind).data stop =
        (.ok row, behind) := by
  have holds : (spoiled ρ layout before kind).data.HoldsAt 0 _ := Bytes.holdsAt_toArray [] _
  rcases Bytes.holdsAt_append.mp holds with ⟨damaged, whole⟩
  rcases Bytes.holdsAt_append.mp damaged with ⟨blank, tag⟩
  have reached := Entries.recovers_decoder (Entries.fit_blank layout before) _ _ blank
  have refused := Column.decoder_of_untagged incomplete tag
  rw [List.length_append, Bytes.length_ofNumber, ← Nat.add_assoc] at whole
  have resumed := Row.recovers_decoder (Entries.fit_blank layout _) rid _ _ whole
  exact ⟨_, Row.decoder_of_error split reached refused rid, _, _, resumed⟩

theorem answers_spoiled {before after : List Column} {kind : CodedKind}
    (split : (Row.table ρ).columns = before ++ .coded kind :: after)
    (incomplete : ¬(Column.coded kind).Complete) (layout : Layout) :
    ∃ row, (spoiled ρ layout before kind).iterator.answers 2 = [none, some row] := by
  rcases decoder_spoiled split incomplete layout 1 with ⟨stop, failed, row, behind, read⟩
  have stopped : (spoiled ρ layout before kind).iterator.next =
      (none, ⟨spoiled ρ layout before kind, 0, stop⟩) := Iterator.next_of_error Nat.one_pos failed
  have resumed : Iterator.next ⟨spoiled ρ layout before kind, 0, stop⟩ =
      (some row, ⟨spoiled ρ layout before kind, 1, behind⟩) := Iterator.next_of_ok Nat.one_pos read
  refine ⟨row, ?_⟩
  rw [Iterator.answers, stopped, Iterator.answers, resumed, Iterator.answers]

/-- Walks through rows of one kind can be asked again exactly if every tag in them stands for a
table. -/
theorem answers_agree_iff_complete (ρ : Type) [Row ρ] :
    (∀ (table : Table ρ) (count : Nat) (row : ρ), some row ∈ table.iterator.answers count →
      table.get? (Row.rid row) = some row) ↔
      ∀ column ∈ (Row.table ρ).columns, column.Complete := by
  constructor
  · intro agree column member
    by_contra incomplete
    cases column with
    | number storage => exact incomplete trivial
    | coded kind =>
        rcases List.append_of_mem member with ⟨before, after, split⟩
        rcases answers_spoiled split incomplete ⟨0, .none⟩ with ⟨row, given⟩
        have ends := (answers_agree_iff _ 2).mp (agree (spoiled ρ ⟨0, .none⟩ before kind) 2)
        rw [given] at ends
        have nothing := endsForGood_none_cons.mp ends (some row) List.mem_cons_self
        cases nothing
  · intro complete table count
    exact (answers_agree_iff table count).mpr (table.iterator.endsForGood_answers complete count)

end Table

/-- However often a walk is asked, it gives what is asked for by number exactly if it gives nothing
behind a row that it could not give. It does so in every table of a kind exactly if no tag of a
coded index is without a table. -/
theorem walkedOn_eq_asked_iff (ρ : Type) [Row ρ] :
    (∀ (table : Table ρ) (count : Nat),
      (∀ row, some row ∈ table.iterator.answers count → table.get? (Row.rid row) = some row) ↔
        Table.EndsForGood (table.iterator.answers count)) ∧
    ((∀ (table : Table ρ) (count : Nat) (row : ρ), some row ∈ table.iterator.answers count →
        table.get? (Row.rid row) = some row) ↔
      ∀ column ∈ (Row.table ρ).columns, column.Complete) :=
  ⟨Table.answers_agree_iff, Table.answers_agree_iff_complete ρ⟩

/-- The kinds of rows that walks may give under a wrong number. -/
example :
    ((RowKind.all.map (·.table)).filter fun table => ¬∀ column ∈ table.columns, column.Complete) =
      [.typeDef, .interfaceImpl, .exportedType] := by decide

/-- The second call reads the second row, which it takes for the first one. -/
theorem not_walkedOn_eq_asked :
    ¬∀ (table : Table InterfaceImplRow) (count : Nat) (row : InterfaceImplRow),
      some row ∈ table.iterator.answers count → table.get? (Row.rid row) = some row :=
  fun agree => absurd (agree Table.behindDamaged 2 ⟨1, 1, ⟨.typeDef, 1⟩⟩ (by decide)) (by decide)

end CilLoader
