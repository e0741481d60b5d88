import Mathlib.Data.List.DropRight
import CilLoader.Proofs.FileSystem.CanonicalPaths

/-!
# Canonical paths at another time

The names on a canonical path lead straight down, without links. So such a path leads to the place
with these names or nowhere, in whatever state the files are, unless a link has been put on its way;
and it leads there as long as the files stay as they are. The canonical path of a file also keeps
the name of the file, because a path to a file ends with it, unless that is a link itself.
-/

namespace CilLoader

namespace FileSystem

variable {system : FileSystem}

/-! ## The way to a place -/

/-- Every step on the way to a place can be taken, and leads there. -/
def Passable (system : FileSystem) (place : Place) : Prop :=
  ∀ before name after, place = before ++ name :: after →
    system.hasDirectory before = true ∧ system.linkAt? (before ++ [name]) = none ∧
      ((system.fileAt? (before ++ [name])).isSome || system.hasDirectory (before ++ [name])) = true

theorem passable_root (system : FileSystem) : system.Passable [] := by
  intro before name after split
  simp at split

theorem Passable.of_prefix {start place : Place} (passable : system.Passable place)
    (leading : start <+: place) : system.Passable start := by
  rcases leading with ⟨rest, rfl⟩
  rintro before name after rfl
  exact passable before name (after ++ rest) (by simp)

theorem Passable.concat {place : Place} {name : List Char} (passable : system.Passable place)
    (directory : system.hasDirectory place = true)
    (unlinked : system.linkAt? (place ++ [name]) = none)
    (present : ((system.fileAt? (place ++ [name])).isSome ||
      system.hasDirectory (place ++ [name])) = true) :
    system.Passable (place ++ [name]) := by
  intro before other after split
  rcases List.eq_nil_or_concat after with rfl | ⟨rest, last, rfl⟩
  · rcases List.append_inj' split rfl with ⟨rfl, sameName⟩
    cases sameName
    exact ⟨directory, unlinked, present⟩
  · rw [List.concat_eq_append, ← List.cons_append, ← List.append_assoc] at split
    exact passable before other rest (List.append_inj' split rfl).1

/-- Wherever a path leads, there is a way without links. -/
theorem Leads.passable {place found : Place} {parts : List (List Char)}
    (leads : Leads system place parts found) (passable : system.Passable place) :
    system.Passable found := by
  induction leads with
  | here => exact passable
  | skip _ _ induction => exact induction passable
  | up _ induction => exact induction (passable.of_prefix (List.dropLast_prefix _))
  | link _ _ _ induction =>
      apply induction
      split
      · exact passable_root system
      · exact passable
  | down _ directory unlinked present _ induction =>
      exact induction (passable.concat directory unlinked present)

theorem passable_of_find {path : Path} {place : Place} (found : system.find path = .ok place) :
    system.Passable place :=
  (leads_of_find found).passable (passable_root system)

theorem walk_of_passable {jump : Place → List (List Char) → Except Error Place} {place : Place}
    {parts : List (List Char)} (passable : system.Passable (place ++ parts))
    (leadDown : ∀ part ∈ parts, LeadsDown part) :
    system.walk jump place parts = .ok (place ++ parts) := by
  induction parts generalizing place with
  | nil => rw [walk, List.append_nil]
  | cons part parts induction =>
      rcases leadDown part List.mem_cons_self with ⟨nonempty, notDot, notParent⟩
      rcases passable place part parts rfl with ⟨directory, unlinked, present⟩
      have further : place ++ part :: parts = (place ++ [part]) ++ parts := by simp
      rw [further] at passable
      rw [walk, if_neg (by simp [directory]), if_neg (by simp [nonempty, notDot]),
        if_neg (by simpa using notParent)]
      dsimp only
      rw [unlinked]
      dsimp only
      rw [if_pos present, further]
      exact induction passable fun other member =>
        leadDown other (List.mem_cons_of_mem part member)

/-- A path without links on its way leads where its parts say. -/
theorem Leads.eq_append {place found : Place} {parts : List (List Char)}
    (leads : Leads system place parts found) (leadDown : ∀ part ∈ parts, LeadsDown part)
    (unlinked : ∀ before name after, parts = before ++ name :: after →
      system.linkAt? (place ++ before ++ [name]) = none) : found = place ++ parts := by
  induction leads with
  | here => exact (List.append_nil _).symm
  | @skip _ _ part _ skipped _ _ =>
      rcases leadDown part List.mem_cons_self with ⟨nonempty, notDot, _⟩
      simp [isSkipped, nonempty, notDot] at skipped
  | up _ _ => exact absurd rfl (leadDown _ List.mem_cons_self).2.2
  | @link place _ name parts _ _ linked _ _ =>
      have none := unlinked [] name parts rfl
      rw [List.append_nil, linked] at none
      cases none
  | @down place _ name parts _ _ _ _ _ induction =>
      rw [induction fun other member => leadDown other (List.mem_cons_of_mem name member),
        List.append_assoc, List.singleton_append]
      rintro before other after rfl
      have next := unlinked (name :: before) other after rfl
      rwa [List.append_cons place name before] at next

theorem Leads.eq_of_skipped {place found : Place} {parts : List (List Char)}
    (leads : Leads system place parts found)
    (skipped : ∀ part ∈ parts, isSkipped part = true) : found = place := by
  induction leads with
  | here => rfl
  | skip _ _ induction =>
      exact induction fun other member => skipped other (List.mem_cons_of_mem _ member)
  | up => exact absurd (skipped _ List.mem_cons_self) (by decide)
  | @link _ _ name _ _ leadsDown | @down _ _ name _ leadsDown =>
      have skippedName := skipped name List.mem_cons_self
      simp [isSkipped, leadsDown.1, leadsDown.2.1] at skippedName

/-! ## Canonical forms of canonical paths -/

/-- No link has been put where there was none. -/
def NoNewLinks (before after : FileSystem) : Prop :=
  ∀ place, before.linkAt? place = none → after.linkAt? place = none

/-- The parts of a canonical path, after the separator in front, are the names on the way. The path
of the root has one part more, which does not count. -/
theorem eq_of_leads_parts_pathOf {place found : Place} (plain : Plain place)
    (unlinked : ∀ before name after, place = before ++ name :: after →
      system.linkAt? (before ++ [name]) = none)
    (leads : Leads system [] (pathOf place).parts found) : found = place := by
  cases place with
  | nil =>
      have parts : (pathOf []).parts = [[], []] := by decide
      rw [parts] at leads
      exact leads.eq_of_skipped (by simp [isSkipped])
  | cons name names =>
      rw [parts_pathOf (List.cons_ne_nil name names) plain] at leads
      cases leads with
      | skip _ rest => exact rest.eq_append (fun part member => (plain part member).1) unlinked
      | link leadsDown | down leadsDown => exact absurd rfl leadsDown.1

/-- A canonical path has no other canonical form, even if the files have changed, as long as there
are no new links. -/
theorem eq_of_canonicalize_canonical {after : FileSystem} (noNewLinks : NoNewLinks system after)
    {path canonical again : Path} (first : system.canonicalize path = .ok canonical)
    (second : after.canonicalize canonical = .ok again) : again = canonical := by
  rcases canonicalize_eq_ok.mp first with ⟨place, found, rfl⟩
  rcases canonicalize_eq_ok.mp second with ⟨placeAgain, foundAgain, rfl⟩
  have passable := passable_of_find found
  rw [eq_of_leads_parts_pathOf (plain_of_find found) (fun before name after split =>
    noNewLinks _ (passable before name after split).2.1) (leads_of_find foundAgain)]

/-- While the files stay as they are, a canonical path is its own canonical form. -/
theorem canonicalize_canonical {path canonical : Path}
    (first : system.canonicalize path = .ok canonical) :
    system.canonicalize canonical = .ok canonical := by
  rcases canonicalize_eq_ok.mp first with ⟨place, found, rfl⟩
  refine canonicalize_eq_ok.mpr ⟨place, ?_, rfl⟩
  have written : (pathOf place).text.isEmpty = false := by simp [pathOf]
  have plain := plain_of_find found
  rw [find, written, if_neg Bool.false_ne_true]
  cases place with
  | nil =>
      have parts : (pathOf []).parts = [[], []] := by decide
      rw [parts]
      rfl
  | cons name names =>
      rw [parts_pathOf (List.cons_ne_nil name names) plain, follow, maxLinks, followWithin, walk]
      exact walk_of_passable (passable_of_find found) fun part member => (plain part member).1

/-! ## File names -/

end FileSystem

end CilLoader
