import CilLoader.Context.Configuration
import CilLoader.Proofs.Registry.Indexes

/-!
# What a configuration is offered

A configuration is built by calls, and every call offers files: input files, or files to refer to.
The tables of the configuration say no more than these offers do. The input files are entered one
by one, under names that differ. Of the reference files, the first one with a name is entered, and a
directory offers its assemblies in ascending order.
-/

namespace CilLoader

/-! ## Names in a directory -/

namespace FileSystem

variable {system : FileSystem}

theorem mem_namesIn {place : Place} {name : String} :
    name ∈ system.namesIn place ↔ place ++ [name.toList] ∈ system.places := by
  rw [namesIn, List.mem_mergeSort, List.mem_filterMap]
  constructor
  · rintro ⟨found, member, named⟩
    rw [nameIn?] at named
    split at named
    · rename_i last ended
      split at named
      · rename_i parent
        cases named
        rcases List.getLast?_eq_some_iff.mp ended with ⟨before, rfl⟩
        rw [List.dropLast_concat] at parent
        rw [String.toList_ofList, ← parent]
        exact member
      · cases named
    · cases named
  · intro member
    refine ⟨_, member, ?_⟩
    rw [nameIn?, List.getLast?_concat, List.dropLast_concat]
    simp

theorem notBelow_iff {left right : String} : !decide (right < left) ↔ left ≤ right := by
  rw [Bool.not_eq_true', decide_eq_false_iff_not, String.not_lt]

theorem ascending_namesIn (place : Place) : (system.namesIn place).Pairwise (· ≤ ·) := by
  have sorted : (system.namesIn place).Pairwise fun left right => !decide (right < left) := by
    apply List.pairwise_mergeSort
    · intro left middle right first second
      exact notBelow_iff.mpr (String.le_trans (notBelow_iff.mp first) (notBelow_iff.mp second))
    · intro left right
      rw [Bool.or_eq_true, notBelow_iff, notBelow_iff]
      exact String.le_total left right
  exact sorted.imp notBelow_iff.mp

end FileSystem

/-- In ascending order, the first member that passes a test is the least one. -/
theorem le_of_find? {names : List String} (ascending : names.Pairwise (· ≤ ·))
    {fits : String → Bool} {name other : String} (found : names.find? fits = some name)
    (member : other ∈ names) (fitsOther : fits other = true) : name ≤ other := by
  rcases List.find?_eq_some_iff_append.mp found with ⟨_, before, behind, rfl, unfit⟩
  rcases List.mem_append.mp member with early | late
  · simpa [fitsOther] using unfit other early
  · rcases List.mem_cons.mp late with rfl | late
    · exact String.le_refl _
    · exact (List.pairwise_cons.mp (List.pairwise_append.mp ascending).2.1).1 other late

/-- Two lists in ascending order that have the same members differ at most in how often they have
them, so the first member that passes a test is the same one. -/
theorem find?_eq_of_ascending {left right : List String} (ascendingLeft : left.Pairwise (· ≤ ·))
    (ascendingRight : right.Pairwise (· ≤ ·)) (sameMembers : ∀ name, name ∈ left ↔ name ∈ right)
    (fits : String → Bool) : left.find? fits = right.find? fits := by
  cases foundLeft : left.find? fits with
  | none =>
      rw [List.find?_eq_none] at foundLeft
      exact (List.find?_eq_none.mpr fun name member =>
        foundLeft name ((sameMembers name).mpr member)).symm
  | some name =>
      have memberLeft := List.mem_of_find?_eq_some foundLeft
      cases foundRight : right.find? fits with
      | none =>
          exact absurd (List.find?_some foundLeft)
            (List.find?_eq_none.mp foundRight name ((sameMembers name).mp memberLeft))
      | some other =>
          have memberRight := List.mem_of_find?_eq_some foundRight
          have below := le_of_find? ascendingLeft foundLeft ((sameMembers other).mpr memberRight)
            (List.find?_some foundRight)
          have above := le_of_find? ascendingRight foundRight ((sameMembers name).mp memberLeft)
            (List.find?_some foundLeft)
          rw [String.le_antisymm below above]

namespace Configuration

inductive Call where
  | input (path : Path)
  | inputs (paths : List Path)
  | reference (path : Path)
  | referenceDirectory (path : Path)

def Call.perform (system : FileSystem) (config : Configuration) :
    Call → Except Error Configuration
  | input path => config.addInput system path
  | inputs paths => config.addInputs system paths
  | reference path => config.addReference system path
  | referenceDirectory path => config.addReferenceDirectory system path

def performAll (system : FileSystem) (config : Configuration) (calls : List Call) :
    Except Error Configuration :=
  calls.foldlM (Call.perform system) config

/-- Something in the directory has the name. -/
def HasEntry (system : FileSystem) (directory : Path) (name : String) : Prop :=
  ∃ place, system.find directory = .ok place ∧ place ++ [name.toList] ∈ system.places

/-- The names of the assemblies in a directory, in ascending order. -/
structure Lists (system : FileSystem) (directory : Path) (names : List String) : Prop where
  ascending : names.Pairwise (· ≤ ·)
  complete : ∀ name, name ∈ names ↔ HasEntry system directory name ∧
    isAssemblyPath (directory.join name) = true ∧ system.isFile (directory.join name) = true

/-- The input files and the reference files that a call offers, in order. -/
inductive Offers (system : FileSystem) : Call → List Path → List Path → Prop
  | input (path : Path) : Offers system (.input path) [path] []
  | inputs (paths : List Path) : Offers system (.inputs paths) paths []
  | reference (path : Path) : Offers system (.reference path) [] [path]
  | referenceDirectory {directory : Path} {names : List String}
      (listed : Lists system directory names) :
      Offers system (.referenceDirectory directory) [] (names.map directory.join)

inductive OffersAll (system : FileSystem) : List Call → List Path → List Path → Prop
  | nil : OffersAll system [] [] []
  | cons {call : Call} {calls : List Call} {inputs moreInputs references moreReferences : List Path}
      (first : Offers system call inputs references)
      (rest : OffersAll system calls moreInputs moreReferences) :
      OffersAll system (call :: calls) (inputs ++ moreInputs) (references ++ moreReferences)

/-- The stem of the file name folds to the key. -/
def Suits (key : String) (path : Path) : Prop :=
  path.fileStem?.map foldName = some key

instance (key : String) : DecidablePred (Suits key) := fun path =>
  inferInstanceAs (Decidable (path.fileStem?.map foldName = some key))

variable {system : FileSystem} {path : Path}

/-! ## Files -/

theorem assemblyFile_eq_ok {file : AssemblyFile} :
    assemblyFile system path = .ok file ↔ system.isFile path = true ∧
      path.fileStem? = some file.name ∧ system.canonicalize path = .ok file.path := by
  rw [assemblyFile]
  cases system.isFile path with
  | false => simp
  | true =>
      cases path.fileStem? with
      | none => simp
      | some name =>
          cases canonical : system.canonicalize path with
          | error error => simp
          | ok canonicalPath =>
              rcases file with ⟨fileName, filePath⟩
              simp [pure, Except.pure]

theorem suits_iff {file : AssemblyFile} (found : assemblyFile system path = .ok file)
    {key : String} : Suits key path ↔ foldName file.name = key := by
  rw [Suits, (assemblyFile_eq_ok.mp found).2.1, Option.map_some, Option.some_inj]

/-- How a file is entered in a table. -/
def entryAt (system : FileSystem) (path : Path) : Except Error (String × AssemblyFile) := do
  let file ← assemblyFile system path
  return (foldName file.name, file)

theorem entryAt_eq_ok {entry : String × AssemblyFile} :
    entryAt system path = .ok entry ↔
      assemblyFile system path = .ok entry.2 ∧ entry.1 = foldName entry.2.name := by
  rw [entryAt, Error.bind_eq_ok]
  constructor
  · rintro ⟨file, found, ⟨rfl⟩⟩
    exact ⟨found, rfl⟩
  · rintro ⟨found, key⟩
    exact ⟨entry.2, found, congrArg Except.ok (Prod.ext key.symm rfl)⟩

/-- A table in which files have been entered in order gives the first one that suits. -/
theorem lookup_eq_find? {paths : List Path} {entries : List (String × AssemblyFile)}
    (entered : paths.mapM (entryAt system) = .ok entries) (key : String) :
    entries.lookup key =
      (paths.find? (Suits key)).bind fun path => (assemblyFile system path).toOption := by
  induction paths generalizing entries with
  | nil =>
      cases entered
      rfl
  | cons path paths induction =>
      rw [List.mapM_cons, Error.bind_eq_ok] at entered
      rcases entered with ⟨entry, first, entered⟩
      rcases Error.bind_eq_ok.mp entered with ⟨others, rest, ⟨rfl⟩⟩
      rcases entry with ⟨entryKey, file⟩
      rcases entryAt_eq_ok.mp first with ⟨found, sameKey⟩
      dsimp only at found sameKey
      rw [List.lookup_cons, List.find?_cons, sameKey]
      by_cases suits : Suits key path
      · have equal : key = foldName file.name := ((suits_iff found).mp suits).symm
        simp [equal, suits_iff found, found, Except.toOption]
      · have different : (key == foldName file.name) = false :=
          beq_eq_false_iff_ne.mpr fun equal => suits ((suits_iff found).mpr equal.symm)
        simp only [different, suits, decide_false]
        exact induction rest

/-! ## Tables and offers -/

/-- The tables of a configuration are those that the files offered to it come to. -/
structure Holds (system : FileSystem) (config : Configuration) (inputs references : List Path) :
    Prop where
  inputs : inputs.mapM (entryAt system) = .ok config.inputs
  distinct : (config.inputs.map Prod.fst).Nodup
  references : ∃ entries, references.mapM (entryAt system) = .ok entries ∧
    ∀ key, config.references.lookup key = entries.lookup key

theorem holds_nothing {config : Configuration} (noInputs : config.inputs = [])
    (noReferences : config.references = []) : config.Holds system [] [] where
  inputs := by
    rw [noInputs]
    rfl
  distinct := by simp [noInputs]
  references := ⟨[], rfl, fun key => by rw [noReferences]⟩

theorem mapM_concat {paths : List Path} {entries : List (String × AssemblyFile)}
    {file : AssemblyFile} (entered : paths.mapM (entryAt system) = .ok entries)
    (found : assemblyFile system path = .ok file) :
    (paths ++ [path]).mapM (entryAt system) = .ok (addFile entries file) := by
  have entry : entryAt system path = .ok (foldName file.name, file) :=
    entryAt_eq_ok.mpr ⟨found, rfl⟩
  rw [Error.mapM_eq_ok] at entered ⊢
  rw [List.map_append, entered, List.map_singleton, entry, addFile, List.map_append,
    List.map_singleton]

variable {config after : Configuration} {inputs references : List Path}

theorem Holds.addInput (holds : config.Holds system inputs references)
    (added : config.addInput system path = .ok after) :
    after.Holds system (inputs ++ [path]) references := by
  rcases Error.bind_eq_ok.mp added with ⟨file, found, added⟩
  split at added
  · cases added
  · rename_i free
    cases added
    refine ⟨mapM_concat holds.inputs found, ?_, holds.references⟩
    have fresh : foldName file.name ∉ config.inputs.map Prod.fst := by
      intro member
      rcases List.mem_map.mp member with ⟨⟨key, taken⟩, member, rfl⟩
      rw [(Registry.lookup_eq_some_iff holds.distinct).mpr member] at free
      cases free
    show ((config.inputs ++ [(foldName file.name, file)]).map Prod.fst).Nodup
    rw [List.map_append, List.nodup_append]
    refine ⟨holds.distinct, by simp, ?_⟩
    intro key member other isNew equal
    rw [List.map_singleton, List.mem_singleton] at isNew
    exact fresh (by rwa [equal, isNew] at member)

theorem Holds.addInputs {paths : List Path} (holds : config.Holds system inputs references)
    (added : config.addInputs system paths = .ok after) :
    after.Holds system (inputs ++ paths) references := by
  induction paths generalizing config inputs with
  | nil =>
      cases added
      rw [List.append_nil]
      exact holds
  | cons path paths induction =>
      rw [Configuration.addInputs, List.foldlM_cons, Error.bind_eq_ok] at added
      rcases added with ⟨middle, first, rest⟩
      rw [List.append_cons]
      exact induction (holds.addInput first) rest

theorem Holds.addReference (holds : config.Holds system inputs references)
    (added : config.addReference system path = .ok after) :
    after.Holds system inputs (references ++ [path]) := by
  rcases Error.bind_eq_ok.mp added with ⟨file, found, ⟨rfl⟩⟩
  rcases holds.references with ⟨entries, entered, sameLookup⟩
  have enteredAfter := mapM_concat entered found
  rw [offerReference]
  split
  · rename_i existing taken
    refine ⟨holds.inputs, holds.distinct, _, enteredAfter, ?_⟩
    intro key
    rw [addFile, List.lookup_append, ← sameLookup]
    by_cases equal : key = foldName file.name
    · rw [equal, taken]
      rfl
    · have different : (key == foldName file.name) = false := beq_eq_false_iff_ne.mpr equal
      simp [List.lookup_cons, different]
  · refine ⟨holds.inputs, holds.distinct, _, enteredAfter, ?_⟩
    intro key
    show (addFile config.references file).lookup key = (addFile entries file).lookup key
    rw [addFile, addFile, List.lookup_append, List.lookup_append, sameLookup]

theorem Holds.addReferences {paths : List Path} (holds : config.Holds system inputs references)
    (added : paths.foldlM (fun config path => config.addReference system path) config = .ok after) :
    after.Holds system inputs (references ++ paths) := by
  induction paths generalizing config references with
  | nil =>
      cases added
      rw [List.append_nil]
      exact holds
  | cons path paths induction =>
      rw [List.foldlM_cons, Error.bind_eq_ok] at added
      rcases added with ⟨middle, first, rest⟩
      rw [List.append_cons]
      exact induction (holds.addReference first) rest

/-! ## Directories -/

theorem lists_of_find {directory : Path} {place : Place}
    (found : system.find directory = .ok place) :
    Lists system directory ((system.namesIn place).filter fun name =>
      isAssemblyPath (directory.join name) && system.isFile (directory.join name)) where
  ascending := (FileSystem.ascending_namesIn place).filter _
  complete := by
    intro name
    rw [List.mem_filter, FileSystem.mem_namesIn, HasEntry]
    simp [found]

/-- The assemblies in a directory can always be listed, and the configuration is offered them. -/
theorem addReferenceDirectory_eq_ok {directory : Path}
    (added : config.addReferenceDirectory system directory = .ok after) :
    ∃ names, Lists system directory names ∧
      (names.map directory.join).foldlM (fun config path => config.addReference system path)
        config = .ok after := by
  rw [addReferenceDirectory] at added
  split at added
  · cases added
  · rcases Error.bind_eq_ok.mp added with ⟨paths, listed, added⟩
    rcases Error.bind_eq_ok.mp listed with ⟨place, found, ⟨rfl⟩⟩
    refine ⟨_, lists_of_find found, ?_⟩
    rw [List.filter_map] at added
    exact added

/-- All listings of a directory have the same first file that suits. -/
theorem Lists.lookup_eq {directory : Path} {names others : List String}
    {entries otherEntries : List (String × AssemblyFile)} (listed : Lists system directory names)
    (otherListed : Lists system directory others)
    (entered : (names.map directory.join).mapM (entryAt system) = .ok entries)
    (otherEntered : (others.map directory.join).mapM (entryAt system) = .ok otherEntries)
    (key : String) : entries.lookup key = otherEntries.lookup key := by
  have sameMembers : ∀ name, name ∈ names ↔ name ∈ others := fun name =>
    (listed.complete name).trans (otherListed.complete name).symm
  rw [lookup_eq_find? entered, lookup_eq_find? otherEntered, List.find?_map, List.find?_map,
    find?_eq_of_ascending listed.ascending otherListed.ascending sameMembers]

theorem Lists.exists_entries {directory : Path} {names others : List String}
    {entries : List (String × AssemblyFile)} (listed : Lists system directory names)
    (otherListed : Lists system directory others)
    (entered : (names.map directory.join).mapM (entryAt system) = .ok entries) :
    ∃ otherEntries, (others.map directory.join).mapM (entryAt system) = .ok otherEntries := by
  apply Error.exists_mapM_eq_ok
  intro path member
  rcases List.mem_map.mp member with ⟨name, memberOther, rfl⟩
  have memberHere := (listed.complete name).mpr ((otherListed.complete name).mp memberOther)
  rcases Error.exists_value_of_mem entered (List.mem_map_of_mem memberHere) with ⟨entry, _, found⟩
  exact ⟨entry, found⟩

theorem mapM_append_eq_ok {paths morePaths : List Path}
    {entries : List (String × AssemblyFile)} :
    (paths ++ morePaths).mapM (entryAt system) = .ok entries ↔
      ∃ first rest, paths.mapM (entryAt system) = .ok first ∧
        morePaths.mapM (entryAt system) = .ok rest ∧ entries = first ++ rest := by
  rw [List.mapM_append, Error.bind_eq_ok]
  constructor
  · rintro ⟨first, entered, more⟩
    rcases Error.bind_eq_ok.mp more with ⟨rest, enteredRest, ⟨rfl⟩⟩
    exact ⟨first, rest, entered, enteredRest, rfl⟩
  · rintro ⟨first, rest, entered, enteredRest, rfl⟩
    exact ⟨first, entered, by rw [enteredRest, Error.ok_bind]; rfl⟩

theorem Holds.addReferenceDirectory {directory : Path} {names : List String}
    (holds : config.Holds system inputs references) (listed : Lists system directory names)
    (added : config.addReferenceDirectory system directory = .ok after) :
    after.Holds system inputs (references ++ names.map directory.join) := by
  rcases addReferenceDirectory_eq_ok added with ⟨found, foundListed, added⟩
  have holdsFound := holds.addReferences added
  rcases holdsFound.references with ⟨entries, entered, sameLookup⟩
  rcases mapM_append_eq_ok.mp entered with ⟨before, foundEntries, enteredBefore, enteredFound, rfl⟩
  rcases foundListed.exists_entries listed enteredFound with ⟨listedEntries, enteredListed⟩
  refine ⟨holdsFound.inputs, holdsFound.distinct, before ++ listedEntries,
    mapM_append_eq_ok.mpr ⟨before, listedEntries, enteredBefore, enteredListed, rfl⟩, ?_⟩
  intro key
  rw [sameLookup, List.lookup_append, List.lookup_append,
    foundListed.lookup_eq listed enteredFound enteredListed]

/-! ## Calls -/

theorem Holds.perform {call : Call} {moreInputs moreReferences : List Path}
    (holds : config.Holds system inputs references)
    (offers : Offers system call moreInputs moreReferences)
    (performed : call.perform system config = .ok after) :
    after.Holds system (inputs ++ moreInputs) (references ++ moreReferences) := by
  cases offers with
  | input path => simpa using holds.addInput performed
  | inputs paths => simpa using holds.addInputs performed
  | reference path => simpa using holds.addReference performed
  | referenceDirectory listed => simpa using holds.addReferenceDirectory listed performed

theorem Holds.performAll {calls : List Call} {moreInputs moreReferences : List Path}
    (holds : config.Holds system inputs references)
    (offers : OffersAll system calls moreInputs moreReferences)
    (performed : config.performAll system calls = .ok after) :
    after.Holds system (inputs ++ moreInputs) (references ++ moreReferences) := by
  induction offers generalizing config inputs references with
  | nil =>
      cases performed
      simpa using holds
  | cons first _ induction =>
      rw [Configuration.performAll, List.foldlM_cons, Error.bind_eq_ok] at performed
      rcases performed with ⟨middle, performedFirst, performedRest⟩
      rw [← List.append_assoc, ← List.append_assoc]
      exact induction (holds.perform first performedFirst) performedRest

/-- Calls that succeed have offered something, so there is always an answer to what. -/
theorem exists_offersAll {calls : List Call}
    (performed : config.performAll system calls = .ok after) :
    ∃ inputs references, OffersAll system calls inputs references := by
  induction calls generalizing config with
  | nil => exact ⟨[], [], .nil⟩
  | cons call calls induction =>
      rw [performAll, List.foldlM_cons, Error.bind_eq_ok] at performed
      rcases performed with ⟨middle, first, rest⟩
      rcases induction rest with ⟨inputs, references, offers⟩
      cases call with
      | input path => exact ⟨_, _, .cons (.input path) offers⟩
      | inputs paths => exact ⟨_, _, .cons (.inputs paths) offers⟩
      | reference path => exact ⟨_, _, .cons (.reference path) offers⟩
      | referenceDirectory directory =>
          rcases addReferenceDirectory_eq_ok first with ⟨names, listed, _⟩
          exact ⟨_, _, .cons (.referenceDirectory listed) offers⟩

/-! ## Sources -/

theorem exists_file_of_mem {paths : List Path} {entries : List (String × AssemblyFile)}
    (entered : paths.mapM (entryAt system) = .ok entries) (member : path ∈ paths) :
    ∃ file, assemblyFile system path = .ok file ∧ (foldName file.name, file) ∈ entries := by
  rcases Error.exists_value_of_mem entered member with ⟨⟨key, file⟩, enteredHere, same⟩
  rcases entryAt_eq_ok.mp same with ⟨found, sameKey⟩
  dsimp only at found sameKey
  rw [sameKey] at enteredHere
  exact ⟨file, found, enteredHere⟩

theorem Holds.source?_of_input (holds : config.Holds system inputs references) {name : String}
    (member : path ∈ inputs) (suits : Suits (foldName name) path) :
    ∃ file, assemblyFile system path = .ok file ∧ config.source? name = some file := by
  rcases exists_file_of_mem holds.inputs member with ⟨file, found, entered⟩
  refine ⟨file, found, ?_⟩
  rw [(suits_iff found).mp suits, ← Registry.lookup_eq_some_iff holds.distinct] at entered
  rw [source?, input?, entered]
  rfl

/-- The tables lead to the first file that suits, the input files before the reference files. -/
theorem Holds.source?_eq_find? (holds : config.Holds system inputs references) (name : String) :
    config.source? name =
      ((inputs ++ references).find? (Suits (foldName name))).bind fun path =>
        (assemblyFile system path).toOption := by
  rcases holds.references with ⟨entries, entered, sameLookup⟩
  rw [source?, input?, reference?, sameLookup, lookup_eq_find? holds.inputs,
    lookup_eq_find? entered, List.find?_append]
  cases first : inputs.find? (Suits (foldName name)) with
  | none => rfl
  | some path =>
      rcases exists_file_of_mem holds.inputs (List.mem_of_find?_eq_some first) with ⟨file, found, _⟩
      rw [Option.some_or, Option.bind_some, found]
      rfl

/-- Every file that has been offered could be entered. -/
theorem Holds.exists_file (holds : config.Holds system inputs references)
    (member : path ∈ inputs ++ references) : ∃ file, assemblyFile system path = .ok file := by
  rcases holds.references with ⟨entries, entered, _⟩
  rcases List.mem_append.mp member with member | member
  · rcases exists_file_of_mem holds.inputs member with ⟨file, found, _⟩
    exact ⟨file, found⟩
  · rcases exists_file_of_mem entered member with ⟨file, found, _⟩
    exact ⟨file, found⟩

theorem Holds.source?_of_find? (holds : config.Holds system inputs references) {name : String}
    (first : (inputs ++ references).find? (Suits (foldName name)) = some path) :
    ∃ file, assemblyFile system path = .ok file ∧ config.source? name = some file := by
  rcases holds.exists_file (List.mem_of_find?_eq_some first) with ⟨file, found⟩
  refine ⟨file, found, ?_⟩
  rw [holds.source?_eq_find?, first, Option.bind_some, found]
  rfl

theorem Holds.source?_of_reference {name : String} {before behind : List Path}
    (holds : config.Holds system inputs (before ++ path :: behind))
    (unsuited : ∀ other ∈ inputs ++ before, ¬Suits (foldName name) other)
    (suits : Suits (foldName name) path) :
    ∃ file, assemblyFile system path = .ok file ∧ config.source? name = some file := by
  apply holds.source?_of_find?
  rw [← List.append_assoc, List.find?_append, List.find?_eq_none.mpr fun other member => by
    simpa using unsuited other member, Option.none_or,
    List.find?_cons_of_pos (by simpa using suits)]

/-- What the tables lead to has been offered. -/
theorem Holds.of_source? (holds : config.Holds system inputs references) {name : String}
    {file : AssemblyFile} (source : config.source? name = some file) :
    ∃ path ∈ inputs ++ references,
      assemblyFile system path = .ok file ∧ Suits (foldName name) path := by
  rw [holds.source?_eq_find?, Option.bind_eq_some_iff] at source
  rcases source with ⟨path, first, found⟩
  have suits : Suits (foldName name) path := by simpa using List.find?_some first
  exact ⟨path, List.mem_of_find?_eq_some first, Error.toOption_eq_some.mp found, suits⟩

theorem Holds.source?_eq_none_iff (holds : config.Holds system inputs references)
    {name : String} : config.source? name = none ↔
      ∀ path ∈ inputs ++ references, ¬Suits (foldName name) path := by
  constructor
  · intro none path member suits
    cases first : (inputs ++ references).find? (Suits (foldName name)) with
    | none => exact absurd (decide_eq_true suits) (List.find?_eq_none.mp first path member)
    | some other =>
        rcases holds.source?_of_find? first with ⟨file, _, source⟩
        rw [none] at source
        cases source
  · intro unsuited
    have noFile : (inputs ++ references).find? (Suits (foldName name)) = none :=
      List.find?_eq_none.mpr fun path member => by simpa using unsuited path member
    rw [holds.source?_eq_find?, noFile]
    rfl

end Configuration

end CilLoader
