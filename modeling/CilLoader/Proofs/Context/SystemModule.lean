import CilLoader.Executable.Container
import CilLoader.Proofs.Context.Agreement
import CilLoader.Proofs.Context.Symbols
import CilLoader.Proofs.Module.Names
import CilLoader.Proofs.Stream.WrittenImage

/-!
# The system module is bound once and as a whole

Binding fails without a trace, or it publishes all well-known types of a module and tags each of
them as what it is. Afterwards neither the binding nor a tag changes any more. No other call binds
or tags anything.
-/

namespace CilLoader

namespace WellKnownType

theorem name_injective {left right : WellKnownType} (same : left.name = right.name) :
    left = right := by
  have distinct : ∀ left ∈ all, ∀ right ∈ all, left.name = right.name → left = right := by
    decide
  exact distinct left (mem_all left) right (mem_all right) same

theorem getElem?_all_iff {index : Nat} {kind : WellKnownType} :
    all[index]? = some kind ↔ kind.slot = index := by
  constructor
  · intro found
    have inside : index < all.length := (List.getElem?_eq_some_iff.mp found).1
    have slots : all.map slot = List.range all.length := by decide
    have atIndex := congrArg (·[index]?) slots
    simpa only [List.getElem?_map, found, Option.map_some, List.getElem?_range inside,
      Option.some.injEq] using atIndex
  · rintro rfl
    cases kind <;> rfl

end WellKnownType

/-! ## Tags -/

namespace Tags

/-- The first tag of a type counts. -/
theorem lookup_add (tags : Tags) (type other : TypeDefinition) (kind : WellKnownType) :
    (tags.add type kind).lookup other =
      (tags.lookup other).or (if other = type then some kind else none) := by
  rw [add]
  split
  · rename_i tagged
    by_cases same : other = type
    · rw [same, tagged, Option.some_or]
    · rw [if_neg same, Option.or_none]
  · rename_i untagged
    by_cases same : other = type
    · rw [same, untagged, if_pos rfl, Option.none_or, List.lookup_cons_self]
    · rw [if_neg same, Option.or_none, List.lookup_cons, beq_false_of_ne same]

theorem lookup_addAll (tags added : Tags) (type : TypeDefinition) :
    (tags.addAll added).lookup type = (tags.lookup type).or (added.lookup type) := by
  induction added generalizing tags with
  | nil => rw [addAll, List.foldl_nil, List.lookup_nil, Option.or_none]
  | cons entry added induction =>
      rcases entry with ⟨tagged, kind⟩
      have first : tags.addAll ((tagged, kind) :: added) = (tags.add tagged kind).addAll added :=
        rfl
      rw [first, induction, lookup_add, Option.or_assoc, List.lookup_cons]
      by_cases same : type = tagged
      · simp [same]
      · simp [same, beq_false_of_ne same]

end Tags

/-! ## The types of a module -/

namespace Module

variable {module : Module}

theorem wellKnownType_eq_ok {kind : WellKnownType} {type : TypeDefinition} :
    module.wellKnownType kind = .ok type ↔
      module.getType? WellKnownType.namespace kind.name = .ok (some type) := by
  rw [wellKnownType]
  cases module.getType? WellKnownType.namespace kind.name with
  | error error => simp
  | ok found => cases found <;> simp [pure, Except.pure]

theorem getElem?_slot {types : List TypeDefinition}
    (found : WellKnownType.all.mapM module.wellKnownType = .ok types) (kind : WellKnownType)
    (type : TypeDefinition) :
    types[kind.slot]? = some type ↔
      module.getType? WellKnownType.namespace kind.name = .ok (some type) := by
  have sameSlots := congrArg (·[kind.slot]?) (Error.mapM_eq_ok.mp found)
  simp only [List.getElem?_map, WellKnownType.getElem?_all_iff.mpr rfl,
    Option.map_some] at sameSlots
  rw [← wellKnownType_eq_ok]
  cases atSlot : types[kind.slot]? with
  | none => simp [atSlot] at sameSlots
  | some other =>
      simp only [atSlot, Option.map_some, Option.some.injEq] at sameSlots
      rw [sameSlots, Option.some.injEq, Except.ok.injEq]

theorem exists_getElem?_slot {types : List TypeDefinition}
    (found : WellKnownType.all.mapM module.wellKnownType = .ok types) (kind : WellKnownType) :
    ∃ type, types[kind.slot]? = some type := by
  have length := congrArg List.length (Error.mapM_eq_ok.mp found)
  rw [List.length_map, List.length_map] at length
  have inside : kind.slot < types.length := by
    rw [← length]
    exact (List.getElem?_eq_some_iff.mp (WellKnownType.getElem?_all_iff.mpr rfl)).1
  exact ⟨types[kind.slot], List.getElem?_eq_getElem inside⟩

/-- The types are found together if each of them is found. -/
theorem exists_types_iff :
    (∃ types, WellKnownType.all.mapM module.wellKnownType = .ok types) ↔
      ∀ kind : WellKnownType, ∃ type,
        module.getType? WellKnownType.namespace kind.name = .ok (some type) := by
  constructor
  · rintro ⟨types, found⟩ kind
    rcases exists_getElem?_slot found kind with ⟨type, atSlot⟩
    exact ⟨type, (getElem?_slot found kind type).mp atSlot⟩
  · intro each
    apply Error.exists_mapM_eq_ok
    intro kind _
    rcases each kind with ⟨type, found⟩
    exact ⟨type, wellKnownType_eq_ok.mpr found⟩

/-- A type stands in the slot of one kind only, since it has only one name. -/
theorem lookup_zip_eq_some_iff {types : List TypeDefinition}
    (found : WellKnownType.all.mapM module.wellKnownType = .ok types) {kind : WellKnownType}
    {type : TypeDefinition} :
    (types.zip WellKnownType.all).lookup type = some kind ↔ types[kind.slot]? = some type := by
  have inSlot : ∀ {kind}, (type, kind) ∈ types.zip WellKnownType.all ↔
      types[kind.slot]? = some type := by
    intro kind
    rw [List.mem_iff_getElem?]
    constructor
    · rintro ⟨index, entry⟩
      rcases List.getElem?_zip_eq_some.mp entry with ⟨atIndex, kindAtIndex⟩
      rwa [WellKnownType.getElem?_all_iff.mp kindAtIndex]
    · intro atSlot
      exact ⟨kind.slot, List.getElem?_zip_eq_some.mpr
        ⟨atSlot, WellKnownType.getElem?_all_iff.mpr rfl⟩⟩
  constructor
  · intro entry
    rcases List.lookup_eq_some_iff.mp entry with ⟨before, after, split, _⟩
    have member : (type, kind) ∈ types.zip WellKnownType.all := by simp [split]
    exact inSlot.mp member
  · intro atSlot
    have member := inSlot.mpr atSlot
    cases entry : (types.zip WellKnownType.all).lookup type with
    | none =>
        have absent := List.lookup_eq_none_iff.mp entry _ member
        simp at absent
    | some other =>
        rcases List.lookup_eq_some_iff.mp entry with ⟨before, after, split, _⟩
        have otherMember : (type, other) ∈ types.zip WellKnownType.all := by simp [split]
        have named := named_of_getType? ((getElem?_slot found kind type).mp atSlot)
        have otherNamed :=
          named_of_getType? ((getElem?_slot found other type).mp (inSlot.mp otherMember))
        rw [WellKnownType.name_injective (named.2.1.symm.trans otherNamed.2.1)]

end Module

/-- The module that a call has bound as the system module, going by its answer. -/
def Call.bound? : Call → Except Error Answer → Option Module
  | .bindSystemModule module, .ok _ => some module
  | _, _ => none

/-! ## What every context keeps -/

open CilLoader.Action

namespace Context

/-- What has been published are the types of the system module, and these types are tagged. -/
structure SystemTagged (context : Context) : Prop where
  found : ∀ bound, context.system = some bound →
    WellKnownType.all.mapM bound.module.wellKnownType = .ok bound.types
  tags : context.tags = match context.system with
    | some bound => Tags.addAll [] (bound.types.zip WellKnownType.all)
    | none => []

variable {system : FileSystem} {context after : Context}

theorem systemTagged_of_fresh {config : Configuration}
    (fresh : ofConfiguration config = .ok context) : context.SystemTagged := by
  rw [eq_of_fresh fresh]
  exact ⟨by rintro bound ⟨⟩, rfl⟩

/-- A type is tagged as what it is published as. -/
theorem SystemTagged.kindOf?_eq_some_iff (tagged : context.SystemTagged) {type : TypeDefinition}
    {kind : WellKnownType} :
    context.kindOf? type = some kind ↔ context.wellKnown? kind = some type := by
  rw [kindOf?, tagged.tags, wellKnown?]
  cases bound : context.system with
  | none => simp
  | some binding =>
      dsimp only
      rw [Tags.lookup_addAll, List.lookup_nil, Option.none_or, Option.bind_some,
        Module.lookup_zip_eq_some_iff (tagged.found binding bound)]

theorem SystemTagged.wellKnown?_eq_some_iff (tagged : context.SystemTagged)
    {binding : SystemBinding} (bound : context.system = some binding) {kind : WellKnownType}
    {type : TypeDefinition} :
    context.wellKnown? kind = some type ↔
      binding.module.getType? WellKnownType.namespace kind.name = .ok (some type) := by
  rw [wellKnown?, bound, Option.bind_some,
    Module.getElem?_slot (tagged.found binding bound) kind type]

/-- All well-known types have been found, so no slot is empty. -/
theorem SystemTagged.exists_wellKnown? (tagged : context.SystemTagged) {binding : SystemBinding}
    (bound : context.system = some binding) (kind : WellKnownType) :
    ∃ type, context.wellKnown? kind = some type := by
  rw [wellKnown?, bound, Option.bind_some]
  exact Module.exists_getElem?_slot (tagged.found binding bound) kind

def systemModules (context : Context) : List Module :=
  (context.system.map (·.module)).toList

theorem systemModules_of_fresh {config : Configuration}
    (fresh : ofConfiguration config = .ok context) : context.systemModules = [] := by
  rw [eq_of_fresh fresh]
  rfl

/-! ## Runs -/

section

variable [ExecutableParser]

theorem SystemTagged.change (tagged : context.SystemTagged) (change : Change system context after) :
    after.SystemTagged := by
  cases change with
  | opened paths => exact ⟨tagged.found, tagged.tags⟩
  | numbered => exact ⟨tagged.found, tagged.tags⟩
  | registered module found source number freshName => exact ⟨tagged.found, tagged.tags⟩
  | bound module types unbound found =>
      have untagged := tagged.tags
      rw [unbound] at untagged
      refine ⟨?_, ?_⟩
      · rintro bound ⟨⟩
        exact found
      · show context.tags.addAll (types.zip WellKnownType.all) = _
        rw [untagged]
        rfl
  | remembered type => exact ⟨tagged.found, tagged.tags⟩

theorem SystemTagged.changes (tagged : context.SystemTagged)
    (changes : Changes system context after) : after.SystemTagged := by
  induction changes with
  | refl => exact tagged
  | tail _ change induction => exact induction.change change

/-- No other call than binding the system module binds one. -/
theorem system_after {call : Call} (otherCall : ∀ module, call ≠ .bindSystemModule module)
    (system : FileSystem) (context : Context) :
    (context.after system call).system = context.system := by
  have agreement : Agreement fun left right =>
      left.SameButSymbols right ∧ left.system = context.system :=
    agreement_sameButSymbols.restrict (fun kept _ => kept) (fun kept => kept) fun kept _ _ => kept
  have remembering : ArrayClassAgreement fun left right =>
      left.SameButSymbols right ∧ left.system = context.system :=
    ⟨fun alike => arrayClassAgreement_sameButSymbols.arrayClass alike.1,
      fun alike type =>
        ⟨arrayClassAgreement_sameButSymbols.remembered alike.1 type, alike.2⟩⟩
  have preserves := call.preserves_perform agreement
    (fun module binding => absurd binding (otherCall module))
    fun type _ => Action.preserves_runtimeInterfaces agreement remembering type
  exact (preserves system context context ⟨rfl, rfl⟩).2.2

theorem perform_bindSystemModule (module : Module) (system : FileSystem) (context : Context) :
    (context.system = none ∧ ∃ types,
      (Call.bindSystemModule module).perform system context =
        (.ok .done, context.withSystem module types)) ∨
    ∃ error, (Call.bindSystemModule module).perform system context = (.error error, context) := by
  rw [Call.perform, bind_apply, bindSystemModule_eq]
  cases unbound : context.system with
  | some bound => exact .inr ⟨_, rfl⟩
  | none =>
      cases WellKnownType.all.mapM module.wellKnownType with
      | error error => exact .inr ⟨error, rfl⟩
      | ok types => exact .inl ⟨rfl, types, rfl⟩

/-- The modules that the calls of a history bind as the system module, one after another. -/
def boundBy (context : Context) : List (FileSystem × Call) → List Module
  | [] => []
  | (system, call) :: history =>
    (call.bound? (call.perform system context).1).toList ++
      (context.after system call).boundBy history

theorem systemModules_after (system : FileSystem) (context : Context) (call : Call) :
    (context.after system call).systemModules =
      context.systemModules ++ (call.bound? (call.perform system context).1).toList := by
  cases call with
  | bindSystemModule module =>
      rcases perform_bindSystemModule module system context with
        ⟨unbound, types, outcome⟩ | ⟨error, outcome⟩
      · rw [after, outcome, systemModules, systemModules, unbound]
        rfl
      · rw [after, outcome]
        exact (List.append_nil _).symm
  | _ =>
      rw [systemModules, system_after (by rintro module ⟨⟩), ← systemModules]
      exact (List.append_nil _).symm

theorem systemModules_afterHistory (context : Context) (history : List (FileSystem × Call)) :
    (context.afterHistory history).systemModules =
      context.systemModules ++ context.boundBy history := by
  induction history generalizing context with
  | nil => exact (List.append_nil _).symm
  | cons entry history induction =>
      rw [afterHistory_cons, induction, systemModules_after, List.append_assoc, boundBy]

theorem SystemTagged.afterHistory (tagged : context.SystemTagged)
    (history : List (FileSystem × Call)) : (context.afterHistory history).SystemTagged :=
  afterHistory_induction
    (fun system call tagged => tagged.changes (changes_after system _ call)) tagged history

theorem Evolved.systemTagged (evolved : context.Evolved) : context.SystemTagged := by
  rcases evolved with ⟨config, start, history, fresh, rfl⟩
  exact (systemTagged_of_fresh fresh).afterHistory history

/-- Whatever is called, and whatever becomes of the files in between. -/
theorem bindSystemModule_once {config : Configuration} {start : Context}
    (fresh : ofConfiguration config = .ok start) (history : List (FileSystem × Call)) :
    let context := start.afterHistory history
    -- At most one of the calls has bound a module, and this one is the system module.
    start.boundBy history = (context.system.map (·.module)).toList ∧
    -- A type is tagged exactly if it has been published, and as what it has been published.
    (∀ type kind, context.kindOf? type = some kind ↔ context.wellKnown? kind = some type) ∧
    (context.system = none → ∀ kind, context.wellKnown? kind = none) ∧
    (∀ bound, context.system = some bound → ∀ later,
      let after := context.afterHistory later
      after.system = some bound ∧ after.tags = context.tags ∧
        ∀ kind : WellKnownType, ∃ type,
          after.wellKnown? kind = some type ∧ after.kindOf? type = some kind ∧
            bound.module.getType? WellKnownType.namespace kind.name = .ok (some type)) ∧
    -- What one more attempt does.
    ∀ system module,
      let outcome := bindSystemModule module system context
      (∀ error, outcome.1 = .error error → outcome.2 = context) ∧
      (∀ bound, context.system = some bound →
        outcome.1 = .error (.systemModuleAlreadyBound bound.module.simpleName)) ∧
      (outcome.1 = .ok () ↔ context.system = none ∧ ∀ kind : WellKnownType, ∃ type,
        module.getType? WellKnownType.namespace kind.name = .ok (some type)) ∧
      (outcome.1 = .ok () → outcome.2.system.map (·.module) = some module) := by
  intro context
  have tagged : context.SystemTagged := (systemTagged_of_fresh fresh).afterHistory history
  have settled : context.Settled := (settled_of_fresh fresh).afterHistory history
  refine ⟨?_, fun type kind => tagged.kindOf?_eq_some_iff, ?_, ?_, ?_⟩
  · have bound := systemModules_afterHistory start history
    rw [systemModules_of_fresh fresh, List.nil_append] at bound
    exact bound.symm
  · intro unbound kind
    rw [wellKnown?, unbound]
    rfl
  · intro bound isBound later after
    have taggedLater : after.SystemTagged := tagged.afterHistory later
    have stillBound : after.system = some bound :=
      (settled.extends_afterHistory later).system bound isBound
    refine ⟨stillBound, ?_, ?_⟩
    · rw [taggedLater.tags, tagged.tags, stillBound, isBound]
    · intro kind
      rcases taggedLater.exists_wellKnown? stillBound kind with ⟨type, published⟩
      exact ⟨type, published, taggedLater.kindOf?_eq_some_iff.mpr published,
        (taggedLater.wellKnown?_eq_some_iff stillBound).mp published⟩
  · intro system module outcome
    have outcome_eq : outcome = _ := bindSystemModule_eq module system context
    rw [← Module.exists_types_iff, outcome_eq]
    cases isBound : context.system with
    | some bound => simp
    | none =>
        cases WellKnownType.all.mapM module.wellKnownType with
        | error error => simp
        | ok types => simp [withSystem]

end

/-! ## A written system module -/

open scoped Container

/-- The names of the types of a system module. -/
def systemNames : List String :=
  WellKnownType.all.map (·.name) ++ ["Array`1", "IList`1"]

/-- The positions of these names, behind the name of the assembly. -/
def systemStarts : List Nat :=
  StringHeap.startsFrom 8 systemNames

def systemEntries (start : Nat) : Entries TableId.typeDef.columns :=
  (1, start, 1, (Fin.mk 0 (Nat.zero_lt_succ 2), 0), 1, 1, ())

/-- An assembly with the name `System`. Its generic array class implements a list of the element. -/
def systemContents : ImageContents where
  tables := {
    major := 2
    minor := 0
    heapSizes := 0
    sorted := 0
    reserved := (0, 1)
    tables
      | .typeDef => some (.rows (systemStarts.map systemEntries))
      | .interfaceImpl => some (.rows [(27, (Fin.last 2, 1), ())])
      | .typeSpec => some (.rows [(1, ())])
      | .assembly => some (.rows [(0x8004, 1, 0, 0, 0, 0, 0, 1, 0, ())])
      | _ => none }
  names := "System" :: systemNames
  blobs := [6, 0x15, 0x12, 112, 1, 0x13, 0]

theorem fits_systemContents : systemContents.Fits where
  root := {
    version := by decide +kernel
    someStreams := by decide
    fewStreams := by decide
    headers := by decide +kernel }
  tables := by
    constructor
    · intro table count found
      cases table <;> cases found <;> decide +kernel
    · intro table tableContents found
      cases table <;> cases found <;> decide +kernel
  names := by decide +kernel

def systemFiles : FileSystem where
  files := [([['S']], systemContents.encode)]
  directories := []

def systemModule : Module where
  id := 1
  identity := ⟨"System", ⟨1, 0, 0, 0⟩, none, none⟩
  image := ⟨⟨"/S"⟩, systemContents.file, systemContents.metadata⟩

def systemType (name : String) (rid : Nat) : TypeDefinition where
  module := 1
  token := Module.typeToken rid
  «namespace» := "System"
  name := name
  flags := 1
  baseType := none
  genericParams := []

theorem strings_systemContents : systemContents.metadata.string 1 = .ok "System" ∧
    systemStarts.map systemContents.metadata.string = systemNames.map .ok := by
  have strings := Error.mapM_eq_ok.mp (ImageContents.mapM_string_metadata fits_systemContents)
  exact List.cons.inj strings

theorem atPath_systemModule : Module.atPath systemFiles 1 ⟨"/S"⟩ none = .ok systemModule := by
  have canonical : systemFiles.canonicalize ⟨"/S"⟩ = .ok ⟨"/S"⟩ := by decide +kernel
  have read : systemFiles.read ⟨"/S"⟩ = .ok systemContents.encode := rfl
  have assembly : systemContents.metadata.row? AssemblyRow 1 = some _ :=
    ImageContents.row?_metadata fits_systemContents rfl rfl
  have identity : systemContents.metadata.identity? = .ok (some systemModule.identity) := by
    rw [Metadata.identity?, assembly]
    show (do
      let name ← systemContents.metadata.string 1
      _) = _
    rw [strings_systemContents.1]
    rfl
  rw [Module.atPath, canonical, Error.ok_bind, read, Error.ok_bind,
    ImageContents.ofBytes_encode _ fits_systemContents, Error.ok_bind, Module.ofImage, identity]
  rfl

theorem exists_start_of_name {name : String} {index : Nat}
    (named : systemNames[index]? = some name) :
    ∃ start, systemStarts[index]? = some start ∧
      systemContents.metadata.string start = .ok name := by
  have same := congrArg (·[index]?) strings_systemContents.2
  simp only [List.getElem?_map, named, Option.map_some, Option.map_eq_some_iff] at same
  exact same

theorem typeAt_systemModule {name : String} {index : Nat}
    (named : systemNames[index]? = some name) :
    systemModule.typeAt (index + 1) = .ok (systemType name (index + 1)) := by
  rcases exists_start_of_name named with ⟨start, atIndex, string⟩
  have entries : (systemStarts.map systemEntries)[index]? = some (systemEntries start) := by
    rw [List.getElem?_map, atIndex, Option.map_some]
  have written : systemContents.metadata.row? TypeDefRow (index + 1) = some _ :=
    ImageContents.row?_metadata fits_systemContents rfl entries
  have row : systemContents.metadata.row? TypeDefRow (index + 1) =
      some ⟨index + 1, 1, start, 1, ⟨.typeDef, 0⟩, 1, 1⟩ := written
  have noParams : systemContents.metadata.rows GenericParamRow = [] :=
    ImageContents.rows_metadata_of_absent fits_systemContents rfl
  simp only [Module.typeAt, systemModule, Module.metadata, Metadata.requireRow, row, Error.ok_bind,
    Metadata.genericParams, noParams, List.filter_nil, List.mergeSort_nil,
    strings_systemContents.1, string]
  rfl

theorem typeIndex_systemModule : systemModule.typeIndex =
    .ok (systemNames.zipIdx.map fun entry => (("System", entry.1), entry.2 + 1)) := by
  have outer : ((systemModule.metadata.rows TypeDefRow).filter fun row =>
      !TypeAttributes.isNested row.flags) =
        systemStarts.zipIdx.map fun entry => ⟨entry.2 + 1, 1, entry.1, 1, ⟨.typeDef, 0⟩, 1, 1⟩ := by
    rw [systemModule, Module.metadata, ImageContents.rows_metadata fits_systemContents rfl]
    decide +kernel
  rw [Module.typeIndex, outer, Error.mapM_eq_ok, List.map_map, List.map_map]
  apply List.ext_getElem?
  intro index
  simp only [List.getElem?_map, List.getElem?_zipIdx, Option.map_map]
  cases named : systemNames[index]? with
  | some name =>
      rcases exists_start_of_name named with ⟨start, atIndex, string⟩
      rw [atIndex, Option.map_some, Option.map_some]
      show some (systemContents.metadata.string 1 >>= fun «namespace» =>
        systemContents.metadata.string start >>= fun name => _) = _
      rw [strings_systemContents.1, Error.ok_bind, string, Error.ok_bind]
      rfl
  | none =>
      have same := congrArg (·[index]?) strings_systemContents.2
      simp only [List.getElem?_map, named, Option.map_none, Option.map_eq_none_iff] at same
      rw [same]
      rfl

theorem getType?_systemModule {name : String} {index : Nat}
    (named : systemNames[index]? = some name) :
    systemModule.getType? "System" name = .ok (some (systemType name (index + 1))) := by
  have entries : ∀ entry ∈ systemNames.zipIdx,
      (systemNames.zipIdx.map fun entry => (("System", entry.1), entry.2 + 1)).lookup
        ("System", entry.1) = some (entry.2 + 1) := by
    decide +kernel
  have entry := entries (name, index) (List.mk_mem_zipIdx_iff_getElem?.mpr named)
  rw [Module.getType?, typeIndex_systemModule, Error.ok_bind, entry]
  dsimp only
  rw [typeAt_systemModule named]
  rfl

theorem exists_types_systemModule :
    ∃ types, WellKnownType.all.mapM systemModule.wellKnownType = .ok types := by
  apply Module.exists_types_iff.mpr
  intro kind
  have named : systemNames[kind.slot]? = some kind.name := by cases kind <;> rfl
  exact ⟨_, getType?_systemModule named⟩

def systemHistory : List (FileSystem × Call) := [
  (systemFiles, .addModule ⟨"/S"⟩ none),
  (systemFiles, .bindSystemModule systemModule)]

def systemBound : Context :=
  twinStart.afterHistory systemHistory

theorem exists_system_systemBound : systemBound.registry.get? 1 = some systemModule ∧
    systemBound.config.interfaceSource = .metadata ∧
    ∃ types, systemBound.system = some ⟨systemModule, types⟩ := by
  rcases exists_types_systemModule with ⟨types, found⟩
  rcases addModule_eq ⟨"/S"⟩ none systemFiles twinStart with ⟨symbols, opened, more, added⟩
  have made : Module.atPath systemFiles twinStart.nextId ⟨"/S"⟩ none = .ok systemModule :=
    atPath_systemModule
  have inserted : (twinStart.registry.commit systemModule).1 = .ok (.inserted systemModule) := rfl
  simp only [made, inserted] at added
  have loaded : twinStart.after systemFiles (.addModule ⟨"/S"⟩ none) =
      ((twinStart.withOpened opened).withNumberUsed.withOpened more).withModule systemModule
        symbols := by
    rw [Context.after, Call.perform, after_bind fun _ _ _ => rfl, added]
  have bound : systemBound =
      (((twinStart.withOpened opened).withNumberUsed.withOpened more).withModule systemModule
        symbols).withSystem systemModule types := by
    rw [systemBound, systemHistory, afterHistory_cons, afterHistory_cons, afterHistory_nil, loaded,
      Context.after, Call.perform, after_bind fun _ _ _ => rfl, bindSystemModule_eq, found]
    rfl
  rw [bound]
  exact ⟨rfl, rfl, types, rfl⟩

/-- All well-known types of the module are published and tagged for good, its other types are not,
and no module is bound after it. -/
theorem bindSystemModule_once_system :
    ofConfiguration twinConfiguration = .ok twinStart ∧
    twinStart.boundBy systemHistory = [systemModule] ∧
    (∀ later kind,
      let after := systemBound.afterHistory later
      let type := systemType (WellKnownType.name kind) (kind.slot + 1)
      after.wellKnown? kind = some type ∧ after.kindOf? type = some kind) ∧
    systemBound.kindOf? (systemType "Array`1" 27) = none ∧
    ∀ module, bindSystemModule module .empty systemBound =
      (.error (.systemModuleAlreadyBound "System"), systemBound) := by
  have fresh : ofConfiguration twinConfiguration = .ok twinStart := rfl
  rcases exists_system_systemBound with ⟨_, _, types, isBound⟩
  rw [systemBound] at isBound ⊢
  rcases bindSystemModule_once fresh systemHistory with
    ⟨bound, tagged, _, forever, attempts⟩
  rw [isBound] at bound
  refine ⟨fresh, bound, ?_, ?_, ?_⟩
  · intro later kind after type
    rcases (forever _ isBound later).2.2 kind with ⟨found, published, isTagged, defined⟩
    have named : systemNames[kind.slot]? = some kind.name := by cases kind <;> rfl
    have same := defined.symm.trans (getType?_systemModule named)
    cases same
    exact ⟨published, isTagged⟩
  · cases kind : (twinStart.afterHistory systemHistory).kindOf? (systemType "Array`1" 27) with
    | none => rfl
    | some other =>
        have published := (tagged _ other).mp kind
        rcases (forever _ isBound []).2.2 other with ⟨found, publishedOther, _, defined⟩
        rw [afterHistory_nil, published] at publishedOther
        cases publishedOther
        have named := (Module.named_of_getType? defined).2.1
        have listed : "Array`1" ∈ WellKnownType.all.map (·.name) :=
          List.mem_map.mpr ⟨other, WellKnownType.mem_all other, named.symm⟩
        exact absurd listed (by decide +kernel)
  · intro module
    rcases attempts .empty module with ⟨untouched, refused, _⟩
    have named : systemModule.simpleName = "System" := rfl
    have answer := refused _ isBound
    dsimp only at answer
    rw [named] at answer
    have unchanged := untouched _ answer
    rw [Prod.ext_iff]
    dsimp only
    exact ⟨answer, unchanged⟩

end Context

end CilLoader
