import Mathlib.Data.List.DropRight
import CilLoader.Text.Blank

/-!
# Texts without blanks around them

Taking the blanks off both ends of a text leaves a text that starts and ends with other characters,
and one that does so already stays as it is. Blanks at an end never count.
-/

namespace CilLoader.Blank

theorem trim_eq_rdropWhile (text : List Char) :
    trim text = (text.dropWhile isBlank).rdropWhile isBlank := rfl

theorem trim_sublist (text : List Char) : (trim text).Sublist text :=
  (List.rdropWhile_prefix isBlank _).sublist.trans (List.dropWhile_sublist isBlank)

theorem trim_eq_self_iff {text : List Char} :
    trim text = text ↔
      (∀ character ∈ text.head?, isBlank character = false) ∧
        ∀ character ∈ text.getLast?, isBlank character = false := by
  have first : (∀ character ∈ text.head?, isBlank character = false) ↔
      text.dropWhile isBlank = text := by
    rw [List.dropWhile_eq_self_iff]
    cases text <;> simp
  have last : (∀ character ∈ text.getLast?, isBlank character = false) ↔
      text.rdropWhile isBlank = text := by
    rw [List.rdropWhile_eq_self_iff]
    cases text <;> simp [List.getLast?_eq_some_getLast]
  rw [first, last, trim_eq_rdropWhile]
  constructor
  · intro trimmed
    have shorter := (List.rdropWhile_prefix isBlank (text.dropWhile isBlank)).sublist
    rw [trimmed] at shorter
    have kept : text.dropWhile isBlank = text :=
      List.Sublist.antisymm (List.dropWhile_sublist isBlank) shorter
    rw [kept] at trimmed
    exact ⟨kept, trimmed⟩
  · rintro ⟨keptFirst, keptLast⟩
    rw [keptFirst, keptLast]

theorem trim_append_blanks {blanks : List Char}
    (blank : ∀ character ∈ blanks, isBlank character = true) (text : List Char) :
    trim (text ++ blanks) = trim text := by
  have blankReversed : ∀ character ∈ blanks.reverse, isBlank character = true :=
    fun character member => blank character (List.mem_reverse.mp member)
  rw [trim, List.dropWhile_append]
  split
  case isTrue nothing =>
    have allBlank : blanks.dropWhile isBlank = [] := by simpa using blank
    rw [allBlank, trim, List.isEmpty_iff.mp nothing]
  case isFalse =>
    rw [List.reverse_append, List.dropWhile_append_of_pos blankReversed, trim]

theorem trim_dropWhile (text : List Char) : trim (text.dropWhile isBlank) = trim text := by
  rw [trim_eq_rdropWhile, List.dropWhile_idempotent, trim_eq_rdropWhile]

theorem trim_rdropWhile (text : List Char) : trim (text.rdropWhile isBlank) = trim text := by
  have blank : ∀ character ∈ text.rtakeWhile isBlank, isBlank character = true :=
    fun _ member => List.mem_rtakeWhile_imp member
  rw [← trim_append_blanks blank, List.rdropWhile_append_rtakeWhile]

theorem trim_trim (text : List Char) : trim (trim text) = trim text := by
  rw [trim_eq_rdropWhile text, trim_rdropWhile, trim_dropWhile, trim_eq_rdropWhile]

/-- A character that is not blank keeps the blanks on its two sides apart. -/
theorem trim_append_cons {middle : Char} (solid : isBlank middle = false)
    (before after : List Char) :
    trim (before ++ middle :: after) =
      before.dropWhile isBlank ++ middle :: after.rdropWhile isBlank := by
  have kept : ∀ first rest : List Char, (first ++ middle :: rest).dropWhile isBlank =
      first.dropWhile isBlank ++ middle :: rest := by
    intro first rest
    rw [List.dropWhile_append]
    split
    case isTrue nothing => simp [solid, List.isEmpty_iff.mp nothing]
    case isFalse => rfl
  rw [trim, kept, List.reverse_append, List.reverse_cons, List.append_assoc, List.singleton_append,
    kept]
  simp [List.rdropWhile]

end CilLoader.Blank
