import CilLoader.Text.Cut

/-!
# Texts put together from parts

Cutting a text undoes putting parts together, and the other way round, as long as no part has the
separator in it. A text cut once has the separator right behind its first part.
-/

namespace CilLoader.Text

variable {separator : Char}

theorem cut_eq_splitOn (separator : Char) (text : List Char) :
    cut separator text = text.splitOn separator := by
  induction text with
  | nil => rfl
  | cons character text induction =>
      rw [List.splitOn_cons_eq_if_modifyHead, cut, induction]
      by_cases same : character = separator
      · simp [same]
      · cases parts : text.splitOn separator with
        | nil => exact absurd parts (List.splitOn_ne_nil separator text)
        | cons part parts => simp [same]

theorem cut_intercalate {parts : List (List Char)} (nonempty : parts ≠ [])
    (plain : ∀ part ∈ parts, separator ∉ part) :
    cut separator ([separator].intercalate parts) = parts := by
  rw [cut_eq_splitOn, List.splitOn_intercalate separator plain nonempty]

theorem intercalate_cut (separator : Char) (text : List Char) :
    [separator].intercalate (cut separator text) = text := by
  rw [cut_eq_splitOn, List.intercalate_splitOn]

theorem not_mem_of_mem_cut {text part : List Char} (member : part ∈ cut separator text) :
    separator ∉ part := by
  induction text generalizing part with
  | nil =>
      rw [List.mem_singleton.mp member]
      exact List.not_mem_nil
  | cons character text induction =>
      rw [cut] at member
      split at member
      · rcases List.mem_cons.mp member with rfl | member
        · exact List.not_mem_nil
        · exact induction member
      · rename_i different
        split at member
        · rename_i noParts
          exact absurd noParts (cut_ne_nil separator text)
        · rename_i first rest rests
          rcases List.mem_cons.mp member with rfl | member
          · have plainFirst : separator ∉ first := induction (rests ▸ List.mem_cons_self)
            exact List.not_mem_cons_of_ne_of_not_mem (Ne.symm different) plainFirst
          · exact induction (rests ▸ List.mem_cons_of_mem first member)

/-- Parts are those of a text exactly if they make it up and the separator is in none of them. -/
theorem cut_eq_iff {text : List Char} {parts : List (List Char)} :
    cut separator text = parts ↔
      parts ≠ [] ∧ (∀ part ∈ parts, separator ∉ part) ∧
        text = [separator].intercalate parts := by
  constructor
  · rintro rfl
    exact ⟨cut_ne_nil separator text, fun _ => not_mem_of_mem_cut,
      (intercalate_cut separator text).symm⟩
  · rintro ⟨nonempty, plain, rfl⟩
    exact cut_intercalate nonempty plain

theorem mem_intercalate_iff {character : Char} (other : character ≠ separator)
    {parts : List (List Char)} :
    character ∈ [separator].intercalate parts ↔ ∃ part ∈ parts, character ∈ part := by
  induction parts with
  | nil => simp
  | cons part parts induction =>
      cases parts with
      | nil => simp
      | cons next rest =>
          rw [List.intercalate_cons_cons, List.append_assoc, List.mem_append, List.mem_append,
            induction]
          simp [other]

theorem cutOnce?_append {before : List Char} (plain : separator ∉ before) (after : List Char) :
    cutOnce? separator (before ++ separator :: after) = some (before, after) := by
  induction before with
  | nil => simp [cutOnce?]
  | cons character before induction =>
      have parts : separator ≠ character ∧ separator ∉ before := by simpa using plain
      simp [cutOnce?, Ne.symm parts.1, induction parts.2]

theorem cutOnce?_eq_some_iff {text before after : List Char} :
    cutOnce? separator text = some (before, after) ↔
      separator ∉ before ∧ text = before ++ separator :: after := by
  constructor
  · intro found
    induction text generalizing before with
    | nil => cases found
    | cons character text induction =>
        rw [cutOnce?] at found
        split at found
        case isTrue same =>
          cases found
          simp [same]
        case isFalse different =>
          obtain ⟨⟨first, rest⟩, foundRest, joined⟩ := Option.map_eq_some_iff.mp found
          cases joined
          have parts := induction foundRest
          exact ⟨List.not_mem_cons_of_ne_of_not_mem (Ne.symm different) parts.1,
            by rw [parts.2, List.cons_append]⟩
  · rintro ⟨plain, rfl⟩
    exact cutOnce?_append plain after

theorem cutOnce?_eq_none_iff {text : List Char} :
    cutOnce? separator text = none ↔ separator ∉ text := by
  constructor
  · intro missing member
    obtain ⟨before, after, rfl, plain⟩ := List.eq_append_cons_of_mem member
    cases missing.symm.trans (cutOnce?_append plain after)
  · intro plain
    rw [Option.eq_none_iff_forall_ne_some]
    rintro ⟨before, after⟩ found
    exact plain (by simp [(cutOnce?_eq_some_iff.mp found).2])

end CilLoader.Text
