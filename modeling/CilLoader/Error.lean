import CilLoader.Path
import CilLoader.Text.Number
import CilLoader.Token

/-!
# Errors

Every way in which loading an image or resolving a type can fail, as a value that says what went
wrong, and the wording of each. Damage to the bytes of an image is a `Malformation`.
-/

namespace CilLoader

inductive Malformation where
  /-- The first byte of a compressed number announces no width. -/
  | compressedNumber (first : Nat)
  | compressedTokenTag (tag : Nat)
  | assemblyVersion (text : String)
  | emptyAssemblyName
  | keyTokenLength (text : String)
  | keyTokenDigits (text : String)
  | elementType (code : Nat)
  | genericHead (code : Nat)
  | genericWithoutArguments
  | ilOffsetOverflow
  | endLineOverflow
  | startColumn (column : Nat)
  | endColumn (column : Int)
  | pointDelta (value : Nat) (delta : Int)
  | metadataMagic (value : Nat)
  | streamCount (count : Nat)
  | streamExtent (offset size : Nat)
  | streamNameUnterminated (name : String)
  | streamNameUnknown (name : String)
  | stringHeapStart
  | blobHeapStart
  | stringEncoding (index : Nat)
  | stringUnterminated (index : Nat)
  | unknownTables (mask : Nat)
  | noTablesStream
  | noModuleRow
  | documentNameEncoding
  | noOptionalHeader
  | noRuntimeHeader
  | emptyMetadataDirectory
  | addressTooLarge (address : Nat)
  | sectionExtent (address size : Nat)
  | addressUnmapped (address : Nat)
deriving DecidableEq, Repr

namespace Malformation

def message : Malformation → String
  | compressedNumber first => s!"Invalid compressed uint - {first}"
  | compressedTokenTag tag => s!"Invalid compressed token tag - {tag}"
  | assemblyVersion text => "Invalid assembly version - " ++ text
  | emptyAssemblyName => "Assembly name cannot be empty"
  | keyTokenLength text => "PublicKeyToken must be 16 hex characters - " ++ text
  | keyTokenDigits text => "Invalid hex in PublicKeyToken - " ++ text
  | elementType code =>
    "Unsupported element type in signature - 0x" ++ Hexadecimal.padded 2 code
  | genericHead code => s!"GENERICINST - Next byte is not CLASS or VALUETYPE - {code}"
  | genericWithoutArguments => "GENERICINST - No type arguments"
  | ilOffsetOverflow => "IL offset overflow in sequence points"
  | endLineOverflow => "End line overflow in sequence points"
  | startColumn column => s!"Start column out of range - {column}"
  | endColumn column => "End column out of range - " ++ Number.signedText column
  | pointDelta value delta =>
    s!"Sequence point delta out of range - {value} + " ++ Number.signedText delta
  | metadataMagic value => s!"METADATA_MAGIC does not match - {value}"
  | streamCount count => s!"Invalid stream count - {count}"
  | streamExtent offset size =>
    s!"Stream offset and size cause integer overflow - {offset} + {size}"
  | streamNameUnterminated name => "Unterminated stream header name - " ++ name
  | streamNameUnknown name => "Invalid stream header name - " ++ name
  | stringHeapStart => "Provided #Strings heap has no leading null"
  | blobHeapStart => "Invalid memory for #Blob heap"
  | stringEncoding index => s!"Invalid string at index - {index}"
  | stringUnterminated index => s!"Unterminated string at index - {index}"
  | unknownTables mask => "Tables stream flags unknown tables - " ++ Hexadecimal.padded 16 mask
  | noTablesStream => "Metadata has no tables stream"
  | noModuleRow => "Metadata has no Module row"
  | documentNameEncoding => "Document name part is not UTF-8"
  | noOptionalHeader => "File does not have an OptionalHeader"
  | noRuntimeHeader => "File does not have a CLR runtime header directory"
  | emptyMetadataDirectory => "CLI header has an empty metadata directory"
  | addressTooLarge address => s!"RVA too large to fit in u32: {address}"
  | sectionExtent address size =>
    s!"Section malformed, causing integer overflow - {address} + {size}"
  | addressUnmapped address => s!"RVA could not be converted to offset - {address}"

end Malformation

inductive TypeFault where
  /-- A type of the system module is needed before that module is known. -/
  | systemTypeUnbound (name : String)
  /-- A generic instantiation is built over something that is not a type definition. -/
  | genericHeadNotDefinition (token : Token)
  /-- Only definitions and their instantiations have a field layout. -/
  | noFieldLayout (type : String)
deriving DecidableEq, Repr

namespace TypeFault

def message : TypeFault → String
  | systemTypeUnbound name => "System." ++ name ++ " used before the system module is bound"
  | genericHeadNotDefinition token =>
    "Generic instantiation over " ++ token.text ++ " which is not a type definition"
  | noFieldLayout type => type ++ " has no field layout"

end TypeFault

inductive ConfigurationFault where
  | inputMissing (path : Path)
  | nameUnderivable (path : Path)
  | inputDuplicated (name : String) (first second : Path)
  | referenceDirectoryMissing (path : Path)
  | layoutMissing
deriving DecidableEq, Repr

namespace ConfigurationFault

def message : ConfigurationFault → String
  | inputMissing path => "Assembly file does not exist: " ++ path.text
  | nameUnderivable path => "Cannot derive an assembly name from " ++ path.text
  | inputDuplicated name first second =>
    "Duplicate input assembly '" ++ name ++ "' - " ++ first.text ++ " and " ++ second.text
  | referenceDirectoryMissing path =>
    "Reference directory does not exist or is not a directory: " ++ path.text
  | layoutMissing => "No field layout algorithm specified. Use field_layout() to set one."

end ConfigurationFault

inductive Error where
  | malformed (cause : Malformation)
  | outOfBounds
  | notSupported
  | empty
  | fileNotFound
  | notADirectory
  | isADirectory
  | tooManyLinks
  /-- The structure around the metadata of an executable image is damaged. -/
  | damagedContainer
  | assemblyNotFound (name : String)
  | nameMismatch (declared expected : String) (path : Path)
  | duplicateSimpleName (name : String) (existing rejected : Path)
  | notAnAssembly (path : Path)
  | missingWellKnownType (module name : String)
  | systemModuleAlreadyBound (module : String)
  | typeNotFound (module «namespace» name : String)
  | typeResolution (token : Token)
  | typeFault (cause : TypeFault)
  /-- A type specification contains itself and so denotes no type. -/
  | endlessType
  | recursionLimit (limit : Nat)
  | configuration (cause : ConfigurationFault)
deriving DecidableEq, Repr

namespace Error

def kind : Error → String
  | malformed _ => "Malformed"
  | outOfBounds => "OutOfBounds"
  | notSupported => "NotSupported"
  | empty => "Empty"
  | fileNotFound => "FileError"
  | notADirectory => "FileError"
  | isADirectory => "FileError"
  | tooManyLinks => "FileError"
  | damagedContainer => "DamagedContainer"
  | assemblyNotFound _ => "AssemblyNotFound"
  | nameMismatch .. => "NameMismatch"
  | duplicateSimpleName .. => "DuplicateSimpleName"
  | notAnAssembly _ => "NotAnAssembly"
  | missingWellKnownType .. => "MissingWellKnownType"
  | systemModuleAlreadyBound _ => "SystemModuleAlreadyBound"
  | typeNotFound .. => "TypeNotFound"
  | typeResolution _ => "TypeResolution"
  | typeFault _ => "TypeError"
  | endlessType => "EndlessType"
  | recursionLimit _ => "RecursionLimit"
  | configuration _ => "Configuration"

def message : Error → String
  | malformed cause => cause.message
  | outOfBounds => "Out of Bound read would have occurred!"
  | notSupported => "This file type is not supported"
  | empty => "Provided input was empty"
  | fileNotFound => "No such file or directory"
  | notADirectory => "Not a directory"
  | isADirectory => "Is a directory"
  | tooManyLinks => "Too many levels of symbolic links"
  | damagedContainer => "Malformed executable image"
  | assemblyNotFound name =>
    "Assembly '" ++ name ++ "' could not be found in the input or reference paths"
  | nameMismatch declared expected path =>
    "Assembly name '" ++ declared ++ "' does not match the expected name '" ++ expected ++ "' - " ++
      path.text
  | duplicateSimpleName name existing rejected =>
    "Module with simple name '" ++ name ++ "' already exists at " ++ existing.text ++
      " - rejected " ++ rejected.text
  | notAnAssembly path => "Image has no assembly manifest - " ++ path.text
  | missingWellKnownType module name =>
    "System module '" ++ module ++ "' does not define well-known type 'System." ++ name ++ "'"
  | systemModuleAlreadyBound module =>
    "The system module has already been bound to '" ++ module ++ "'"
  | typeNotFound module «namespace» name =>
    "Type '" ++ «namespace» ++ "." ++ name ++ "' not found in module '" ++ module ++ "'"
  | typeResolution token => "Failed to resolve type token " ++ token.text
  | typeFault cause => cause.message
  | endlessType => "A type specification contains itself"
  | recursionLimit limit => s!"Reach the maximum recursion level allowed - {limit}"
  | configuration cause => "Invalid configuration - " ++ cause.message

@[simp]
theorem ok_bind (value : α) (next : α → Except Error β) :
    (Except.ok value >>= next) = next value := rfl

@[simp]
theorem error_bind (error : Error) (next : α → Except Error β) :
    (Except.error error >>= next) = .error error := rfl

theorem bind_eq_ok {first : Except Error α} {next : α → Except Error β} {result : β} :
    (first >>= next) = .ok result ↔ ∃ value, first = .ok value ∧ next value = .ok result := by
  cases first <;> simp

theorem bind_eq_error {first : Except Error α} {next : α → Except Error β} {error : Error} :
    (first >>= next) = .error error ↔
      first = .error error ∨ ∃ value, first = .ok value ∧ next value = .error error := by
  cases first <;> simp

theorem toOption_eq_some {result : Except Error α} {value : α} :
    result.toOption = some value ↔ result = .ok value := by
  cases result <;> simp [Except.toOption]

theorem map_bind (first : Except Error α) (next : α → Except Error β) (change : β → γ) :
    (first >>= next).map change = first >>= fun value => (next value).map change := by
  cases first <;> rfl

/-- What is made of the answers of all steps can be made in each step. -/
theorem map_mapM (act : α → Except Error β) (change : β → γ) (items : List α) :
    (items.mapM act).map (List.map change) = items.mapM fun item => (act item).map change := by
  induction items with
  | nil => rfl
  | cons item items induction =>
      rw [List.mapM_cons, List.mapM_cons, ← induction]
      cases act item with
      | error error => rfl
      | ok value => cases items.mapM act <;> rfl

/-- Steps that all succeed give a list. -/
theorem exists_mapM_eq_ok {act : α → Except Error β} {items : List α}
    (succeeds : ∀ item ∈ items, ∃ value, act item = .ok value) :
    ∃ values, items.mapM act = .ok values := by
  induction items with
  | nil => exact ⟨[], rfl⟩
  | cons item items induction =>
      rcases succeeds item List.mem_cons_self with ⟨value, first⟩
      rcases induction fun other member => succeeds other (List.mem_cons_of_mem item member) with
        ⟨values, rest⟩
      refine ⟨value :: values, ?_⟩
      rw [List.mapM_cons, first, ok_bind, rest, ok_bind]
      rfl

theorem mapM_eq_ok {act : α → Except Error β} {items : List α} {values : List β} :
    items.mapM act = .ok values ↔ items.map act = values.map .ok := by
  induction items generalizing values with
  | nil => cases values <;> simp [pure, Except.pure]
  | cons item items induction =>
      rw [List.mapM_cons, bind_eq_ok, List.map_cons]
      constructor
      · rintro ⟨value, first, succeeded⟩
        rcases bind_eq_ok.mp succeeded with ⟨others, rest, same⟩
        cases same
        rw [List.map_cons, first, induction.mp rest]
      · intro same
        cases values with
        | nil => cases same
        | cons value values =>
            rw [List.map_cons, List.cons.injEq] at same
            exact ⟨value, same.1, by rw [induction.mpr same.2, ok_bind]; rfl⟩

theorem exists_of_mem_mapM {act : α → Except Error β} {items : List α} {values : List β}
    (succeeded : items.mapM act = .ok values) {value : β} (member : value ∈ values) :
    ∃ item ∈ items, act item = .ok value := by
  have mapped : Except.ok value ∈ items.map act := by
    rw [mapM_eq_ok.mp succeeded]
    exact List.mem_map_of_mem member
  exact List.mem_map.mp mapped

theorem exists_value_of_mem {act : α → Except Error β} {items : List α} {values : List β}
    (succeeded : items.mapM act = .ok values) {item : α} (member : item ∈ items) :
    ∃ value ∈ values, act item = .ok value := by
  have mapped : act item ∈ values.map Except.ok := by
    rw [← mapM_eq_ok.mp succeeded]
    exact List.mem_map_of_mem member
  rcases List.mem_map.mp mapped with ⟨value, member, same⟩
  exact ⟨value, member, same.symm⟩

/-- The error of a list of steps is the error of one of them. -/
theorem exists_of_mapM_eq_error {act : α → Except Error β} {items : List α} {error : Error}
    (failed : items.mapM act = .error error) : ∃ item ∈ items, act item = .error error := by
  induction items with
  | nil => cases failed
  | cons item items induction =>
      rw [List.mapM_cons, bind_eq_error] at failed
      rcases failed with first | ⟨value, _, failed⟩
      · exact ⟨item, List.mem_cons_self, first⟩
      · rcases bind_eq_error.mp failed with rest | ⟨values, _, impossible⟩
        · rcases induction rest with ⟨other, member, failed⟩
          exact ⟨other, List.mem_cons_of_mem item member, failed⟩
        · cases impossible

end Error

end CilLoader
