import CilLoader.Proofs.Identity.DisplayNames

/-!
# The grammar of display names

Which texts are read as display names depends on three things only: there is a name, the values of
the versions are numbers with dots between them, and the values of the key tokens are bytes or the
word for none. The numbers and bytes may have plus signs in front. A text without such signs is read
exactly if it is one of the grammar that knows digits only.
-/

namespace CilLoader

namespace KeyToken

/-- Sixteen hexadecimal digits. -/
def IsDigits (text : List Char) : Prop :=
  text.length = 16 ∧ ∀ character ∈ text, Hexadecimal.IsDigit character

/-- Eight bytes of two characters, which may have a plus sign for their first digit. -/
def IsSignedDigits (text : List Char) : Prop :=
  text.length = 16 ∧ Hexadecimal.IsSignedBytes text

theorem isDigits_iff {text : List Char} : IsDigits text ↔ IsSignedDigits text ∧ '+' ∉ text := by
  rw [IsDigits, IsSignedDigits, and_assoc]
  apply and_congr_right
  intro sixteen
  exact Hexadecimal.isSignedBytes_iff (by rw [sixteen])

end KeyToken

namespace Identity

open Number

/-- Behind the first comma of a text there is a part, between commas or up to the end, that has an
equals sign in it, with the key before the first one and the value behind it, up to blanks. -/
def HasComponent (text key : String) (value : List Char) : Prop :=
  ∃ name components before after,
    text.toList = [','].intercalate (name :: components) ∧
      (∀ part ∈ name :: components, ',' ∉ part) ∧
      before ++ '=' :: after ∈ components ∧ '=' ∉ before ∧
      Blank.trim before = key.toList ∧ Blank.trim after = value

structure Grammatical (isVersion isKeyToken : List Char → Prop) (text : String) : Prop where
  named : simpleNameOf text ≠ ""
  versions : ∀ value, HasComponent text "Version" value → isVersion value
  keyTokens : ∀ value, HasComponent text "PublicKeyToken" value → IsNull value ∨ isKeyToken value

/-- No number of the text has a plus sign. -/
def Unsigned (text : String) : Prop :=
  ∀ key ∈ ["Version", "PublicKeyToken"], ∀ value, HasComponent text key value → '+' ∉ value

theorem hasComponent_iff {text key : String} {value name : List Char}
    {components : List (List Char)} (parts : Text.cut ',' text.toList = name :: components) :
    HasComponent text key value ↔
      ∃ before after, before ++ '=' :: after ∈ components ∧ '=' ∉ before ∧
        Blank.trim before = key.toList ∧ Blank.trim after = value := by
  constructor
  · rintro ⟨other, others, before, after, whole, undivided, member, keyed⟩
    have same : Text.cut ',' text.toList = other :: others :=
      Text.cut_eq_iff.mpr ⟨List.cons_ne_nil _ _, undivided, whole⟩
    have sameRest : components = others := (List.cons.inj (parts.symm.trans same)).2
    exact ⟨before, after, sameRest ▸ member, keyed⟩
  · rintro ⟨before, after, member, keyed⟩
    have made := Text.cut_eq_iff.mp parts
    exact ⟨name, components, before, after, made.2.2, made.2.1, member, keyed⟩

theorem simpleNameOf_of_cut {text : String} {name : List Char} {components : List (List Char)}
    (parts : Text.cut ',' text.toList = name :: components) :
    simpleNameOf text = String.ofList (Blank.trim name) := by
  obtain ⟨_, undivided, whole⟩ := Text.cut_eq_iff.mp parts
  have before : ∀ character ∈ name, (character != ',') = true := by
    intro character member
    rw [bne_iff_ne]
    rintro rfl
    exact undivided name List.mem_cons_self member
  have first : text.toList.takeWhile (· != ',') = name := by
    rw [whole]
    cases components with
    | nil => rw [List.intercalate_singleton, List.takeWhile_eq_self_iff.mpr before]
    | cons next rest =>
        rw [List.intercalate_cons_cons, List.append_assoc, List.takeWhile_append_of_pos before]
        simp
  rw [simpleNameOf, first]

/-! ## Single components -/

/-- A component that says nothing of a version or of a key token, or says it in a way that can be
read. -/
def Acceptable (component : List Char) : Prop :=
  ∀ before after, component = before ++ '=' :: after → '=' ∉ before →
    (Blank.trim before = "Version".toList →
      Version.IsDotted (MaySign IsWord) (Blank.trim after)) ∧
    (Blank.trim before = "PublicKeyToken".toList →
      IsNull (Blank.trim after) ∨ KeyToken.IsSignedDigits (Blank.trim after))

/-- A component has one key and one value. -/
theorem acceptable_iff {before after : List Char} (undivided : '=' ∉ before) :
    Acceptable (before ++ '=' :: after) ↔
      (Blank.trim before = "Version".toList →
        Version.IsDotted (MaySign IsWord) (Blank.trim after)) ∧
      (Blank.trim before = "PublicKeyToken".toList →
        IsNull (Blank.trim after) ∨ KeyToken.IsSignedDigits (Blank.trim after)) := by
  constructor
  · intro acceptable
    exact acceptable before after rfl undivided
  · intro readable other rest same otherUndivided
    have parts := Text.cutOnce?_append undivided after
    rw [same, Text.cutOnce?_append otherUndivided] at parts
    cases parts
    exact readable

theorem exists_addComponent_iff {identity : Identity} {component : List Char} :
    (∃ next, addComponent identity component = .ok next) ↔ Acceptable component := by
  cases parts : Text.cutOnce? '=' component with
  | none =>
      rw [addComponent, parts]
      constructor
      · rintro _ before after rfl _
        exact absurd (Text.cutOnce?_eq_none_iff.mp parts) (by simp)
      · exact fun _ => ⟨identity, rfl⟩
  | some parted =>
      obtain ⟨key, value⟩ := parted
      obtain ⟨undivided, rfl⟩ := Text.cutOnce?_eq_some_iff.mp parts
      have version : _ ↔ Version.IsDotted _ (Blank.trim (Blank.trim value)) :=
        Version.exists_parse_iff
      have keyToken : _ ↔ KeyToken.IsSignedDigits (Blank.trim value) := KeyToken.exists_parse_iff
      rw [Blank.trim_trim] at version
      rw [acceptable_iff undivided, ← version, ← keyToken]
      by_cases isVersion : Blank.trim key = "Version".toList
      · rw [addComponent_of_version undivided isVersion, isVersion]
        cases Version.parse (Blank.trim value) <;> simp [Except.map]
      by_cases isKeyToken : Blank.trim key = "PublicKeyToken".toList
      · rw [and_iff_right fun named => absurd named isVersion]
        by_cases null : IsNull (Blank.trim value)
        · rw [addComponent_of_null undivided isKeyToken null]
          exact iff_of_true ⟨identity, rfl⟩ fun _ => .inl null
        · rw [addComponent_of_keyToken undivided isKeyToken null]
          cases KeyToken.parse (Blank.trim value) <;> simp [Except.map, isKeyToken, null]
      -- Whatever else the key is, there is nothing to read.
      refine iff_of_true ?_
        ⟨fun named => absurd named isVersion, fun named => absurd named isKeyToken⟩
      by_cases isCulture : Blank.trim key = "Culture".toList
      · exact ⟨_, addComponent_of_culture undivided isCulture⟩
      · exact ⟨identity, addComponent_of_other undivided isVersion isCulture isKeyToken⟩

theorem exists_foldlM_iff {identity : Identity} {components : List (List Char)} :
    (∃ result, components.foldlM addComponent identity = .ok result) ↔
      ∀ component ∈ components, Acceptable component := by
  induction components generalizing identity with
  | nil => exact iff_of_true ⟨identity, rfl⟩ fun _ member => absurd member List.not_mem_nil
  | cons component components induction =>
      have first : (∃ next, addComponent identity component = .ok next) ↔ Acceptable component :=
        exists_addComponent_iff
      rw [List.forall_mem_cons, ← first, List.foldlM_cons]
      cases added : addComponent identity component with
      | error error => simp [Error.error_bind]
      | ok next =>
          rw [Error.ok_bind, induction]
          simp

/-! ## Whole texts -/

theorem grammatical_of_cut {text : String} {name : List Char} {components : List (List Char)}
    (parts : Text.cut ',' text.toList = name :: components) :
    Grammatical (Version.IsDotted (MaySign IsWord)) KeyToken.IsSignedDigits text ↔
      Blank.trim name ≠ [] ∧ ∀ component ∈ components, Acceptable component := by
  have nonempty : simpleNameOf text ≠ "" ↔ Blank.trim name ≠ [] := by
    rw [simpleNameOf_of_cut parts]
    simp
  constructor
  · intro grammatical
    refine ⟨nonempty.mp grammatical.named, ?_⟩
    rintro component member before after rfl undivided
    constructor
    · intro key
      exact grammatical.versions _
        ((hasComponent_iff parts).mpr ⟨before, after, member, undivided, key, rfl⟩)
    · intro key
      exact grammatical.keyTokens _
        ((hasComponent_iff parts).mpr ⟨before, after, member, undivided, key, rfl⟩)
  · rintro ⟨named, acceptable⟩
    refine ⟨nonempty.mpr named, ?_, ?_⟩
    · intro value present
      obtain ⟨before, after, member, undivided, key, rfl⟩ := (hasComponent_iff parts).mp present
      exact (acceptable _ member before after rfl undivided).1 key
    · intro value present
      obtain ⟨before, after, member, undivided, key, rfl⟩ := (hasComponent_iff parts).mp present
      exact (acceptable _ member before after rfl undivided).2 key

theorem exists_parse_iff {text : String} :
    (∃ identity, parse text = .ok identity) ↔
      Grammatical (Version.IsDotted (MaySign IsWord)) KeyToken.IsSignedDigits text := by
  cases parts : Text.cut ',' text.toList with
  | nil => exact absurd parts (Text.cut_ne_nil ',' text.toList)
  | cons name components =>
      rw [grammatical_of_cut parts, parse_of_cut parts]
      split
      case isTrue empty => simp [empty]
      case isFalse named =>
        rw [exists_foldlM_iff]
        exact (and_iff_right named).symm

theorem IsNull.unsigned {value : List Char} (null : IsNull value) : '+' ∉ value := by
  intro sign
  have lower : '+'.toLower ∈ value.map Char.toLower := List.mem_map_of_mem sign
  rw [eq_of_beq null] at lower
  exact absurd lower (by decide)

theorem grammatical_iff {text : String} :
    Grammatical (Version.IsDotted IsWord) KeyToken.IsDigits text ↔
      Grammatical (Version.IsDotted (MaySign IsWord)) KeyToken.IsSignedDigits text ∧
        Unsigned text := by
  constructor
  · rintro ⟨named, versions, keyTokens⟩
    refine ⟨⟨named, ?_, ?_⟩, ?_⟩
    · intro value present
      exact (Version.isDotted_iff.mp (versions value present)).1
    · intro value present
      exact (keyTokens value present).imp_right fun digits => (KeyToken.isDigits_iff.mp digits).1
    · intro key listed value present
      simp only [List.mem_cons, List.not_mem_nil, or_false] at listed
      rcases listed with rfl | rfl
      · exact (Version.isDotted_iff.mp (versions value present)).2
      · rcases keyTokens value present with null | digits
        · exact null.unsigned
        · exact (KeyToken.isDigits_iff.mp digits).2
  · rintro ⟨⟨named, versions, keyTokens⟩, unsigned⟩
    refine ⟨named, ?_, ?_⟩
    · intro value present
      have plain := unsigned "Version" (by simp) value present
      exact Version.isDotted_iff.mpr ⟨versions value present, plain⟩
    · intro value present
      have plain := unsigned "PublicKeyToken" (by simp) value present
      exact (keyTokens value present).imp_right fun digits =>
        KeyToken.isDigits_iff.mpr ⟨digits, plain⟩

/-- A text is read exactly if it is one of the grammar in which numbers may have plus signs. It is
read exactly if it is one of the grammar without them, unless it is read and has one. -/
theorem parse_accepts_grammar (text : String) :
    ((∃ identity, parse text = .ok identity) ↔
      Grammatical (Version.IsDotted (MaySign IsWord)) KeyToken.IsSignedDigits text) ∧
    (((∃ identity, parse text = .ok identity) ↔
        Grammatical (Version.IsDotted IsWord) KeyToken.IsDigits text) ↔
      ((∃ identity, parse text = .ok identity) → Unsigned text)) := by
  rw [grammatical_iff, exists_parse_iff]
  refine ⟨Iff.rfl, ?_⟩
  constructor
  · intro agree accepted
    exact (agree.mp accepted).2
  · intro unsigned
    exact ⟨fun accepted => ⟨accepted, unsigned accepted⟩, And.left⟩

/-- A key token whose bytes are a plus sign and a digit each. -/
def signedName : String :=
  "A, PublicKeyToken=+1+2+3+4+5+6+7+8"

theorem not_parse_accepts_grammar :
    ¬∀ text : String, (∃ identity, parse text = .ok identity) ↔
      Grammatical (Version.IsDotted IsWord) KeyToken.IsDigits text := by
  intro agree
  have parsed : parse signedName = .ok { plain "A" with
      strongName := some (.token ⟨[1, 2, 3, 4, 5, 6, 7, 8], rfl⟩) } := by
    decide +kernel
  have present : HasComponent signedName "PublicKeyToken" "+1+2+3+4+5+6+7+8".toList :=
    ⟨['A'], [" PublicKeyToken=+1+2+3+4+5+6+7+8".toList], " PublicKeyToken".toList,
      "+1+2+3+4+5+6+7+8".toList, by decide, by decide, by decide, by decide, by decide, by decide⟩
  rcases ((agree signedName).mp ⟨_, parsed⟩).keyTokens _ present with null | ⟨_, digits⟩
  · exact absurd null (by decide)
  · exact absurd (digits '+' (by decide)) (by decide)

end Identity

end CilLoader
