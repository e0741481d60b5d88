import CilLoader.Digest.Sha1
import CilLoader.Proofs.Identity.DisplayParts

/-!
# Display names read back

A display name is made of four parts that have no comma in them and no blank at their ends, so
reading it finds these parts again. What is read is what the identity says, except that a strong
name comes back as its key token, and a culture that spells the word for neutral as none. Identities
that were read themselves have nothing else to lose: their display names are a normal form.
-/

namespace CilLoader

namespace Identity

/-! ## Reading in parts -/

/-- The identity that a name stands for by itself. -/
def plain (name : String) : Identity where
  name := name
  version := .zero
  culture := none
  strongName := none

def IsNeutral (culture : List Char) : Prop :=
  Text.sameLetters culture "neutral".toList = true

def IsNull (keyToken : List Char) : Prop :=
  Text.sameLetters keyToken "null".toList = true

instance (culture : List Char) : Decidable (IsNeutral culture) :=
  inferInstanceAs (Decidable (_ = true))

instance (keyToken : List Char) : Decidable (IsNull keyToken) :=
  inferInstanceAs (Decidable (_ = true))

theorem addComponent_trim (identity : Identity) (component : List Char) :
    addComponent identity (Blank.trim component) = addComponent identity component := by
  cases parts : Text.cutOnce? '=' component with
  | none =>
      have absent : '=' ∉ Blank.trim component := by
        intro member
        have inside := (Blank.trim_sublist component).subset member
        exact Text.cutOnce?_eq_none_iff.mp parts inside
      rw [addComponent, addComponent, parts, Text.cutOnce?_eq_none_iff.mpr absent]
  | some parted =>
      obtain ⟨key, value⟩ := parted
      obtain ⟨undivided, rfl⟩ := Text.cutOnce?_eq_some_iff.mp parts
      have undividedRest : '=' ∉ key.dropWhile Blank.isBlank := by
        intro member
        exact undivided ((List.dropWhile_sublist Blank.isBlank).subset member)
      rw [addComponent, addComponent, parts, Blank.trim_append_cons (by decide),
        Text.cutOnce?_append undividedRest]
      dsimp only
      rw [Blank.trim_dropWhile, Blank.trim_rdropWhile]

theorem parse_of_cut {text : String} {name : List Char} {components : List (List Char)}
    (parts : Text.cut ',' text.toList = name :: components) :
    parse text =
      if Blank.trim name = [] then .error (.malformed .emptyAssemblyName)
      else components.foldlM addComponent (plain (String.ofList (Blank.trim name))) := by
  rw [parse, parts, List.map_cons]
  cases Blank.trim name with
  | nil => rfl
  | cons first rest =>
      rw [if_neg (List.cons_ne_nil first rest)]
      dsimp only
      rw [List.foldlM_map]
      simp only [addComponent_trim]
      rfl

section Components

variable {identity : Identity} {key value : List Char} (undivided : '=' ∉ key)
include undivided

theorem addComponent_of_version (named : Blank.trim key = "Version".toList) :
    addComponent identity (key ++ '=' :: value) =
      (Version.parse (Blank.trim value)).map fun version => { identity with version } := by
  rw [addComponent, Text.cutOnce?_append undivided]
  dsimp only
  rw [if_pos named]
  cases Version.parse (Blank.trim value) <;> rfl

theorem addComponent_of_culture (named : Blank.trim key = "Culture".toList) :
    addComponent identity (key ++ '=' :: value) =
      .ok { identity with
        culture := if IsNeutral (Blank.trim value) then none
          else some (String.ofList (Blank.trim value)) } := by
  rw [addComponent, Text.cutOnce?_append undivided]
  dsimp only
  rw [named, if_neg (by decide), if_pos rfl]
  rfl

theorem addComponent_of_null (named : Blank.trim key = "PublicKeyToken".toList)
    (null : IsNull (Blank.trim value)) :
    addComponent identity (key ++ '=' :: value) = .ok identity := by
  rw [IsNull] at null
  rw [addComponent, Text.cutOnce?_append undivided]
  dsimp only
  rw [named, if_neg (by decide), if_neg (by decide), null, if_neg (by decide)]

theorem addComponent_of_keyToken (named : Blank.trim key = "PublicKeyToken".toList)
    (given : ¬IsNull (Blank.trim value)) :
    addComponent identity (key ++ '=' :: value) =
      (KeyToken.parse (Blank.trim value)).map fun token =>
        { identity with strongName := some (.token token) } := by
  rw [IsNull, Bool.not_eq_true] at given
  rw [addComponent, Text.cutOnce?_append undivided]
  dsimp only
  rw [named, if_neg (by decide), if_neg (by decide), given, if_pos (by decide)]
  cases KeyToken.parse (Blank.trim value) <;> rfl

theorem addComponent_of_other (notVersion : Blank.trim key ≠ "Version".toList)
    (notCulture : Blank.trim key ≠ "Culture".toList)
    (notKeyToken : Blank.trim key ≠ "PublicKeyToken".toList) :
    addComponent identity (key ++ '=' :: value) = .ok identity := by
  rw [addComponent, Text.cutOnce?_append undivided]
  dsimp only
  rw [if_neg notVersion, if_neg notCulture, decide_eq_false notKeyToken, Bool.false_and,
    if_neg Bool.false_ne_true]

end Components

/-- What a component makes of an identity, if it can be read. -/
inductive Adds (identity : Identity) (component : List Char) : Identity → Prop where
  | nothing : Adds identity component identity
  | version (version : Version) : Adds identity component { identity with version }
  | neutral : Adds identity component { identity with culture := none }
  | culture {value : List Char} (sublist : value.Sublist component)
      (notNeutral : ¬IsNeutral (Blank.trim value)) :
      Adds identity component
        { identity with culture := some (String.ofList (Blank.trim value)) }
  | keyToken (token : KeyToken) :
      Adds identity component { identity with strongName := some (.token token) }

theorem adds_of_addComponent {identity next : Identity} {component : List Char}
    (added : addComponent identity component = .ok next) : Adds identity component next := by
  cases parts : Text.cutOnce? '=' component with
  | none =>
      rw [addComponent, parts] at added
      cases added
      exact .nothing
  | some parted =>
      obtain ⟨key, value⟩ := parted
      obtain ⟨undivided, rfl⟩ := Text.cutOnce?_eq_some_iff.mp parts
      by_cases isVersion : Blank.trim key = "Version".toList
      · rw [addComponent_of_version undivided isVersion] at added
        cases read : Version.parse (Blank.trim value) with
        | error error =>
            rw [read] at added
            cases added
        | ok version =>
            rw [read] at added
            cases added
            exact .version version
      by_cases isCulture : Blank.trim key = "Culture".toList
      · rw [addComponent_of_culture undivided isCulture] at added
        cases added
        split
        case isTrue => exact .neutral
        case isFalse notNeutral =>
          have sublist : value.Sublist (key ++ '=' :: value) :=
            (List.sublist_cons_self '=' value).trans (List.sublist_append_right key _)
          exact .culture sublist notNeutral
      by_cases isKeyToken : Blank.trim key = "PublicKeyToken".toList
      · by_cases null : IsNull (Blank.trim value)
        · rw [addComponent_of_null undivided isKeyToken null] at added
          cases added
          exact .nothing
        · rw [addComponent_of_keyToken undivided isKeyToken null] at added
          cases read : KeyToken.parse (Blank.trim value) with
          | error error =>
              rw [read] at added
              cases added
          | ok token =>
              rw [read] at added
              cases added
              exact .keyToken token
      · rw [addComponent_of_other undivided isVersion isCulture isKeyToken] at added
        cases added
        exact .nothing

/-! ## Parts that a display name is made of -/

theorem bare_culture {identity : Identity} (bare : ∀ culture ∈ identity.culture, Bare culture) :
    Bare (identity.culture.getD "neutral") := by
  cases culture : identity.culture with
  | none => exact simpleNameOf_eq_self_iff.mp (by decide +kernel)
  | some culture' => exact bare culture' culture

theorem undivided_append {key : List Char} {value : String} (undivided : ',' ∉ key)
    (bare : Bare value) : ',' ∉ key ++ '=' :: value.toList := by
  simp [undivided, bare.undivided]

theorem addComponent_versionText (identity : Identity) (version : Version) :
    addComponent identity (" Version".toList ++ '=' :: version.text.toList) =
      .ok { identity with version } := by
  have undivided : '=' ∉ " Version".toList := by decide
  have named : Blank.trim " Version".toList = "Version".toList := by decide
  rw [addComponent_of_version undivided named, version.bare_text.trim_eq, Version.parse_text]
  rfl

theorem addComponent_cultureText (identity : Identity) {culture : String} (bare : Bare culture) :
    addComponent identity (" Culture".toList ++ '=' :: culture.toList) =
      .ok { identity with
        culture := if IsNeutral culture.toList then none else some culture } := by
  have undivided : '=' ∉ " Culture".toList := by decide
  have named : Blank.trim " Culture".toList = "Culture".toList := by decide
  rw [addComponent_of_culture undivided named, bare.trim_eq, String.ofList_toList]

/-! ## Reading a display name -/

section Displayed

variable [KeyDigest]

/-- The text of the key token of a display name. -/
def keyTokenText (identity : Identity) : String :=
  match identity.strongName with
  | some strongName => strongName.keyToken.text
  | none => "null"

/-- The identity with the key token in place of its strong name. -/
def withKeyToken (identity : Identity) : Identity :=
  { identity with
    strongName := identity.strongName.map fun strongName => .token strongName.keyToken }

/-- What the display name says of an identity. -/
def displayed (identity : Identity) : Identity :=
  { identity.withKeyToken with
    culture := identity.culture.filter fun culture => !decide (IsNeutral culture.toList) }

theorem toList_displayName (identity : Identity) :
    identity.displayName.toList = [','].intercalate [identity.name.toList,
      " Version".toList ++ '=' :: identity.version.text.toList,
      " Culture".toList ++ '=' :: (identity.culture.getD "neutral").toList,
      " PublicKeyToken".toList ++ '=' :: identity.keyTokenText.toList] := by
  have version : ", Version=".toList = ',' :: (" Version".toList ++ ['=']) := by decide
  have culture : ", Culture=".toList = ',' :: (" Culture".toList ++ ['=']) := by decide
  have keyToken : ", PublicKeyToken=".toList = ',' :: (" PublicKeyToken".toList ++ ['=']) := by
    decide
  have written : identity.displayName =
      identity.name ++ ", Version=" ++ identity.version.text ++
        ", Culture=" ++ identity.culture.getD "neutral" ++
          ", PublicKeyToken=" ++ identity.keyTokenText := rfl
  simp only [written, String.toList_append, version, culture, keyToken,
    List.intercalate_cons_cons, List.intercalate_singleton, List.append_assoc, List.cons_append,
    List.nil_append]

theorem bare_keyTokenText (identity : Identity) : Bare identity.keyTokenText := by
  rw [keyTokenText]
  cases identity.strongName with
  | none =>
      have bare : Bare "null" := simpleNameOf_eq_self_iff.mp (by decide +kernel)
      exact bare
  | some strongName => exact strongName.keyToken.bare_text

theorem cut_displayName {identity : Identity} (bareName : Bare identity.name)
    (bareCulture : ∀ culture ∈ identity.culture, Bare culture) :
    Text.cut ',' identity.displayName.toList = [identity.name.toList,
      " Version".toList ++ '=' :: identity.version.text.toList,
      " Culture".toList ++ '=' :: (identity.culture.getD "neutral").toList,
      " PublicKeyToken".toList ++ '=' :: identity.keyTokenText.toList] := by
  rw [toList_displayName]
  apply Text.cut_intercalate (List.cons_ne_nil _ _)
  simp only [List.forall_mem_cons]
  refine ⟨bareName.undivided, undivided_append (by decide) identity.version.bare_text,
    undivided_append (by decide) (bare_culture bareCulture),
    undivided_append (by decide) identity.bare_keyTokenText, ?_⟩
  exact fun part member => absurd member List.not_mem_nil

/-- The culture that is read back. -/
theorem displayed_culture (identity : Identity) :
    (if IsNeutral (identity.culture.getD "neutral").toList then none
      else some (identity.culture.getD "neutral")) = identity.displayed.culture := by
  rw [displayed]
  cases identity.culture with
  | none => rfl
  | some culture =>
      by_cases neutral : IsNeutral culture.toList <;> simp [neutral, Option.filter]

/-- The component with the key token gives the strong name, or leaves none. -/
theorem addComponent_keyTokenText {identity read : Identity} (unsigned : read.strongName = none) :
    addComponent read (" PublicKeyToken".toList ++ '=' :: identity.keyTokenText.toList) =
      .ok { read with strongName := identity.displayed.strongName } := by
  have undivided : '=' ∉ " PublicKeyToken".toList := by decide
  have named : Blank.trim " PublicKeyToken".toList = "PublicKeyToken".toList := by decide
  have trimmed := identity.bare_keyTokenText.trim_eq
  cases given : identity.strongName with
  | none =>
      have text : identity.keyTokenText = "null" := by rw [keyTokenText, given]
      have null : IsNull (Blank.trim identity.keyTokenText.toList) := by
        rw [trimmed, text]
        decide
      rw [addComponent_of_null undivided named null, displayed, withKeyToken, given,
        Option.map_none, ← unsigned]
  | some strongName =>
      have text : identity.keyTokenText = strongName.keyToken.text := by rw [keyTokenText, given]
      rw [text] at trimmed ⊢
      have notNull : ¬IsNull (Blank.trim strongName.keyToken.text.toList) := by
        intro null
        have sameLength := congrArg List.length (eq_of_beq null)
        rw [List.length_map, trimmed, strongName.keyToken.length_text] at sameLength
        exact absurd sameLength (by decide)
      rw [addComponent_of_keyToken undivided named notNull, trimmed, KeyToken.parse_text,
        displayed, withKeyToken, given, Option.map_some]
      rfl

theorem parse_displayName_eq {identity : Identity} (nonempty : identity.name ≠ "")
    (bareName : Bare identity.name) (bareCulture : ∀ culture ∈ identity.culture, Bare culture) :
    parse identity.displayName = .ok identity.displayed := by
  have some : identity.name.toList ≠ [] := by simpa using nonempty
  rw [parse_of_cut (cut_displayName bareName bareCulture), bareName.trim_eq, if_neg some,
    String.ofList_toList, List.foldlM_cons, addComponent_versionText, Error.ok_bind,
    List.foldlM_cons, addComponent_cultureText _ (bare_culture bareCulture), displayed_culture,
    Error.ok_bind, List.foldlM_cons, addComponent_keyTokenText rfl, Error.ok_bind]
  rfl

theorem displayed_eq_withKeyToken_iff {identity : Identity} :
    identity.displayed = identity.withKeyToken ↔
      ∀ culture ∈ identity.culture, ¬IsNeutral culture.toList := by
  constructor
  · intro same culture given neutral
    have kept : identity.displayed.culture = identity.withKeyToken.culture :=
      congrArg Identity.culture same
    rw [Option.mem_def] at given
    simp [displayed, withKeyToken, given, neutral, Option.filter] at kept
  · intro notNeutral
    have kept : (identity.culture.filter fun culture => !decide (IsNeutral culture.toList)) =
        identity.culture := by
      cases given : identity.culture with
      | none => rfl
      | some culture => simp [Option.filter, notNeutral culture given]
    rw [displayed, kept]
    rfl

end Displayed

/-! ## Identities that were read -/

/-- An identity that a display name can say everything of. -/
structure Normal (identity : Identity) : Prop where
  nonempty : identity.name ≠ ""
  bareName : Bare identity.name
  bareCulture : ∀ culture ∈ identity.culture, Bare culture
  notNeutral : ∀ culture ∈ identity.culture, ¬IsNeutral culture.toList
  token : ∀ strongName ∈ identity.strongName, ∃ keyToken, strongName = .token keyToken

theorem Normal.displayed_eq [KeyDigest] {identity : Identity} (normal : Normal identity) :
    identity.displayed = identity := by
  have kept : (identity.strongName.map fun strongName => .token strongName.keyToken) =
      identity.strongName := by
    cases given : identity.strongName with
    | none => rfl
    | some strongName =>
        rcases normal.token strongName given with ⟨keyToken, rfl⟩
        rfl
  rw [displayed_eq_withKeyToken_iff.mpr normal.notNeutral, withKeyToken, kept]

theorem bare_ofList_trim {text : List Char} (undivided : ',' ∉ text) :
    Bare (String.ofList (Blank.trim text)) := by
  have ends := Blank.trim_eq_self_iff.mp (Blank.trim_trim text)
  have undividedTrim : ',' ∉ Blank.trim text := fun comma =>
    undivided ((Blank.trim_sublist text).subset comma)
  exact ⟨by simpa using undividedTrim, by simpa using ends.1, by simpa using ends.2⟩

theorem normal_plain {name : List Char} (nonempty : Blank.trim name ≠ []) (undivided : ',' ∉ name) :
    Normal (plain (String.ofList (Blank.trim name))) where
  nonempty := by simpa [plain] using nonempty
  bareName := bare_ofList_trim undivided
  bareCulture := by simp [plain]
  notNeutral := by simp [plain]
  token := by simp [plain]

/-- No component can spoil an identity, as long as there is no comma in it. -/
theorem Normal.adds {identity next : Identity} (normal : Normal identity) {component : List Char}
    (undivided : ',' ∉ component) (adds : Adds identity component next) : Normal next := by
  obtain ⟨nonempty, bareName, bareCulture, notNeutral, token⟩ := normal
  cases adds with
  | nothing => exact ⟨nonempty, bareName, bareCulture, notNeutral, token⟩
  | version => exact ⟨nonempty, bareName, bareCulture, notNeutral, token⟩
  | neutral => exact ⟨nonempty, bareName, by simp, by simp, token⟩
  | @culture value sublist given =>
      have bare : Bare (String.ofList (Blank.trim value)) :=
        bare_ofList_trim fun comma => undivided (sublist.subset comma)
      exact ⟨nonempty, bareName, by simpa using bare, by simpa using given, token⟩
  | keyToken =>
      exact ⟨nonempty, bareName, bareCulture, notNeutral, by simp⟩

theorem normal_of_foldlM {identity result : Identity} (normal : Normal identity)
    {components : List (List Char)} (undivided : ∀ component ∈ components, ',' ∉ component)
    (added : components.foldlM Identity.addComponent identity = .ok result) : Normal result := by
  induction components generalizing identity with
  | nil =>
      cases added
      exact normal
  | cons component components induction =>
      rw [List.foldlM_cons] at added
      obtain ⟨next, addedFirst, addedRest⟩ := Error.bind_eq_ok.mp added
      have normalNext := normal.adds (undivided component List.mem_cons_self)
        (adds_of_addComponent addedFirst)
      exact induction normalNext
        (fun other member => undivided other (List.mem_cons_of_mem component member)) addedRest

theorem normal_of_parse {text : String} {identity : Identity} (parsed : parse text = .ok identity) :
    Normal identity := by
  cases parts : Text.cut ',' text.toList with
  | nil => exact absurd parts (Text.cut_ne_nil ',' text.toList)
  | cons name components =>
      have undivided : ∀ part ∈ name :: components, ',' ∉ part := by
        rw [← parts]
        exact fun part => Text.not_mem_of_mem_cut
      rw [List.forall_mem_cons] at undivided
      rw [parse_of_cut parts] at parsed
      split at parsed
      case isTrue => cases parsed
      case isFalse nonempty =>
        exact normal_of_foldlM (normal_plain nonempty undivided.1) undivided.2 parsed

/-- The display name of what was read is read as the same. -/
theorem parse_displayName_of_parse [KeyDigest] {text : String} {identity : Identity}
    (parsed : parse text = .ok identity) : parse identity.displayName = .ok identity := by
  have normal := normal_of_parse parsed
  rw [parse_displayName_eq normal.nonempty normal.bareName normal.bareCulture, normal.displayed_eq]

/-- A display name with its components in disorder, some of them repeated or unknown, a value with
an equals sign, and plus signs in front of numbers. -/
def disorderedName : String :=
  "\té=B ,,Retargetable=Yes, Culture = q,PublicKeyToken=+1+2+3+4+5+6+7Ab, Culture=x = y\u2003," ++
    "version=1,PublicKeyToken=NULL, Version = 9.9,Version=+1.002"

def disorderedIdentity : Identity where
  name := "é=B"
  version := ⟨1, 2, 0, 0⟩
  culture := some "x = y"
  strongName := some (.token ⟨[1, 2, 3, 4, 5, 6, 7, 0xAB], rfl⟩)

open scoped Sha1

theorem parse_displayName_of_parse_disordered :
    parse disorderedName = .ok disorderedIdentity ∧
      disorderedIdentity.displayName =
        "é=B, Version=1.2.0.0, Culture=x = y, PublicKeyToken=01020304050607ab" ∧
      parse disorderedIdentity.displayName = .ok disorderedIdentity := by
  have parsed : parse disorderedName = .ok disorderedIdentity := by decide +kernel
  exact ⟨parsed, by decide +kernel, parse_displayName_of_parse parsed⟩

/-! ## Identities of rows -/

theorem culture_ofRow (name : String) (version : Version) (culture : String) (key : Bytes)
    (isFullKey : Bool) : (ofRow name version culture key isFullKey).culture =
      if culture = "" ∨ culture = "neutral" then none else some culture := rfl

theorem mem_culture_ofRow_iff {name : String} {version : Version} {culture other : String}
    {key : Bytes} {isFullKey : Bool} :
    other ∈ (ofRow name version culture key isFullKey).culture ↔
      culture ≠ "" ∧ culture ≠ "neutral" ∧ other = culture := by
  rw [culture_ofRow]
  split
  case isTrue named => rcases named with rfl | rfl <;> simp
  case isFalse other => simp_all [eq_comm]

theorem parse_culture {name culture : String} (nonempty : name ≠ "") (bareName : Bare name)
    (bareCulture : Bare culture) :
    parse (name ++ ", Culture=" ++ culture) =
      .ok { plain name with
        culture := if IsNeutral culture.toList then none else some culture } := by
  have joined : (name ++ ", Culture=" ++ culture).toList =
      [','].intercalate [name.toList, " Culture".toList ++ '=' :: culture.toList] := by
    simp only [String.toList_append, List.intercalate_cons_cons, List.intercalate_singleton,
      List.append_assoc]
    rfl
  have undivided : ∀ part ∈ [name.toList, " Culture".toList ++ '=' :: culture.toList],
      ',' ∉ part := by
    simp only [List.forall_mem_cons]
    exact ⟨bareName.undivided, undivided_append (by decide) bareCulture,
      fun part member => absurd member List.not_mem_nil⟩
  have parts := Text.cut_intercalate (List.cons_ne_nil _ _) undivided
  rw [← joined] at parts
  have some : name.toList ≠ [] := by simpa using nonempty
  rw [parse_of_cut parts, bareName.trim_eq, if_neg some, String.ofList_toList, List.foldlM_cons,
    addComponent_cultureText _ bareCulture]
  rfl

/-- Written as a display name, the identity of a row is read back up to its key token exactly if its
culture spells the word for neutral in small letters or not at all. Only of such cultures do rows
and display names agree whether they are neutral, the empty one apart, which is so for rows alone.
-/
theorem parse_displayName_ofRow_iff [KeyDigest] {name culture : String} (nonempty : name ≠ "")
    (bareName : Bare name) (bareCulture : Bare culture) (version : Version) (key : Bytes)
    (isFullKey : Bool) :
    (parse (ofRow name version culture key isFullKey).displayName =
        .ok (ofRow name version culture key isFullKey).withKeyToken ↔
      (IsNeutral culture.toList → culture = "neutral")) ∧
    ∃ read, parse (name ++ ", Culture=" ++ culture) = .ok read ∧
      ((read.culture = none ↔ (ofRow name version culture key isFullKey).culture = none) ↔
        culture ≠ "" ∧ (IsNeutral culture.toList → culture = "neutral")) := by
  have neutral : IsNeutral "neutral".toList := by decide
  have notNeutral : ¬IsNeutral "".toList := by decide
  constructor
  · have bare : ∀ other ∈ (ofRow name version culture key isFullKey).culture, Bare other := by
      intro other given
      rw [(mem_culture_ofRow_iff.mp given).2.2]
      exact bareCulture
    rw [parse_displayName_eq nonempty bareName bare, Except.ok.injEq,
      displayed_eq_withKeyToken_iff]
    constructor
    · intro kept spelled
      by_contra other
      have given : culture ≠ "" := by
        rintro rfl
        exact notNeutral spelled
      exact kept culture (mem_culture_ofRow_iff.mpr ⟨given, other, rfl⟩) spelled
    · intro only other given spelled
      obtain ⟨_, different, rfl⟩ := mem_culture_ofRow_iff.mp given
      exact different (only spelled)
  · refine ⟨_, parse_culture nonempty bareName bareCulture, ?_⟩
    rw [culture_ofRow]
    by_cases empty : culture = ""
    · subst empty
      simp only [if_neg notNeutral]
      simp
    · by_cases named : culture = "neutral"
      · subst named
        simp only [if_pos neutral]
        simp
      · simp [empty, named]

/-- A public key of sixteen bytes. -/
def standardKey : Bytes :=
  #[0, 0, 0, 0, 0, 0, 0, 0, 4, 0, 0, 0, 0, 0, 0, 0]

theorem parse_displayName_ofRow_iff_cultures :
    "A" ≠ "" ∧ Bare "A" ∧ Bare "de" ∧ Bare "NEUTRAL" ∧
      parse (ofRow "A" ⟨1, 2, 3, 4⟩ "de" standardKey true).displayName =
        .ok (ofRow "A" ⟨1, 2, 3, 4⟩ "de" standardKey true).withKeyToken ∧
      parse (ofRow "A" ⟨1, 2, 3, 4⟩ "NEUTRAL" standardKey true).displayName ≠
        .ok (ofRow "A" ⟨1, 2, 3, 4⟩ "NEUTRAL" standardKey true).withKeyToken := by
  have nonempty : "A" ≠ "" := by decide
  have bareName : Bare "A" := simpleNameOf_eq_self_iff.mp (by decide +kernel)
  have bareGerman : Bare "de" := simpleNameOf_eq_self_iff.mp (by decide +kernel)
  have bareCapitals : Bare "NEUTRAL" := simpleNameOf_eq_self_iff.mp (by decide +kernel)
  have german := parse_displayName_ofRow_iff nonempty bareName bareGerman ⟨1, 2, 3, 4⟩
    standardKey true
  have capitals := parse_displayName_ofRow_iff nonempty bareName bareCapitals ⟨1, 2, 3, 4⟩
    standardKey true
  exact ⟨nonempty, bareName, bareGerman, bareCapitals, german.1.mpr (by decide),
    fun kept => absurd (capitals.1.mp kept (by decide)) (by decide)⟩

/-- A row with the culture `Neutral` has that culture, and its display name has none. -/
theorem not_parse_displayName_ofRow :
    ¬∀ name culture : String, name ≠ "" → Bare name → Bare culture →
      ∀ version key isFullKey, parse (ofRow name version culture key isFullKey).displayName =
        .ok (ofRow name version culture key isFullKey).withKeyToken := by
  intro readBack
  have bareName : Bare "A" := simpleNameOf_eq_self_iff.mp (by decide +kernel)
  have bareCulture : Bare "Neutral" := simpleNameOf_eq_self_iff.mp (by decide +kernel)
  have same := readBack "A" "Neutral" (by decide) bareName bareCulture ⟨1, 0, 0, 0⟩ #[] false
  exact absurd same (by decide +kernel)

end Identity

end CilLoader
