import CilLoader.FileSystem
import CilLoader.Proofs.Text.Parts

/-!
# Canonical paths

However a path leads to a place, through directories, their parents and links, the names on the way
from the root are plain ones, without separators or dots alone. So the absolute path of the place
has exactly these names as its components. Canonical paths that are the same are therefore equal.
-/

namespace CilLoader

namespace FileSystem

/-- The part leads one step down: it is neither empty nor made of one or two dots. -/
def LeadsDown (part : List Char) : Prop :=
  part ≠ [] ∧ part ≠ ['.'] ∧ part ≠ ['.', '.']

/-- The parts of a path that do not count. -/
def isSkipped (part : List Char) : Bool :=
  part.isEmpty || part == ['.']

/-- The names on the way to a place can be told apart in its path. -/
def Plain (place : Place) : Prop :=
  ∀ name ∈ place, LeadsDown name ∧ '/' ∉ name

variable {system : FileSystem}

/-- The parts of a path lead from a place to another one, whatever number of links is followed. -/
inductive Leads (system : FileSystem) : Place → List (List Char) → Place → Prop where
  | here (place : Place) : Leads system place [] place
  | skip {place found : Place} {part : List Char} {parts : List (List Char)}
      (skipped : isSkipped part = true) (rest : Leads system place parts found) :
      Leads system place (part :: parts) found
  | up {place found : Place} {parts : List (List Char)}
      (rest : Leads system place.dropLast parts found) :
      Leads system place (['.', '.'] :: parts) found
  | link {place found : Place} {name : List Char} {parts : List (List Char)} {target : Path}
      (leadsDown : LeadsDown name) (linked : system.linkAt? (place ++ [name]) = some target)
      (rest : Leads system (if target.isAbsolute then [] else place) (target.parts ++ parts)
        found) : Leads system place (name :: parts) found
  | down {place found : Place} {name : List Char} {parts : List (List Char)}
      (leadsDown : LeadsDown name) (directory : system.hasDirectory place = true)
      (unlinked : system.linkAt? (place ++ [name]) = none)
      (present : ((system.fileAt? (place ++ [name])).isSome ||
        system.hasDirectory (place ++ [name])) = true)
      (rest : Leads system (place ++ [name]) parts found) :
      Leads system place (name :: parts) found

theorem leads_of_walk {jump : Place → List (List Char) → Except Error Place}
    (jumps : ∀ place parts found, jump place parts = .ok found → Leads system place parts found)
    {place found : Place} {parts : List (List Char)}
    (walked : system.walk jump place parts = .ok found) : Leads system place parts found := by
  induction parts generalizing place with
  | nil =>
      cases walked
      exact .here found
  | cons part parts induction =>
      rw [walk] at walked
      split at walked
      · cases walked
      rename_i directory
      split at walked
      · rename_i skipped
        exact .skip skipped (induction walked)
      rename_i counts
      split at walked
      · rename_i parent
        rw [beq_iff_eq.mp parent]
        exact .up (induction walked)
      rename_i notParent
      have leadsDown : LeadsDown part := by
        have counted : part ≠ [] ∧ part ≠ ['.'] := by simpa using counts
        exact ⟨counted.1, counted.2, by simpa using notParent⟩
      dsimp only at walked
      split at walked
      · rename_i target linked
        exact .link leadsDown linked (jumps _ _ _ walked)
      rename_i unlinked
      split at walked
      · rename_i present
        exact .down leadsDown (by simpa using directory) unlinked present (induction walked)
      · cases walked

theorem leads_of_followWithin {links : Nat} {place found : Place} {parts : List (List Char)}
    (followed : system.followWithin links place parts = .ok found) :
    Leads system place parts found := by
  induction links generalizing place found parts with
  | zero => exact leads_of_walk (fun _ _ _ jumped => by cases jumped) followed
  | succ links induction => exact leads_of_walk (fun _ _ _ => induction) followed

theorem leads_of_find {path : Path} {place : Place} (found : system.find path = .ok place) :
    Leads system [] path.parts place := by
  rw [find] at found
  split at found
  · cases found
  · exact leads_of_followWithin found

/-- The parts of all paths have no separators in them, so the names that a way adds are plain. -/
theorem Leads.plain {place found : Place} {parts : List (List Char)}
    (leads : Leads system place parts found) (start : Plain place)
    (separated : ∀ part ∈ parts, '/' ∉ part) : Plain found := by
  induction leads with
  | here => exact start
  | skip _ _ induction =>
      exact induction start fun other member => separated other (List.mem_cons_of_mem _ member)
  | up _ induction =>
      exact induction (fun name member => start name (List.dropLast_subset _ member))
        fun other member => separated other (List.mem_cons_of_mem _ member)
  | @link _ _ _ parts target _ _ _ induction =>
      apply induction
      · split
        · exact fun name member => absurd member List.not_mem_nil
        · exact start
      · intro part member
        rcases List.mem_append.mp member with member | member
        · exact Text.not_mem_of_mem_cut member
        · exact separated part (List.mem_cons_of_mem _ member)
  | @down _ _ name parts leadsDown _ _ _ _ induction =>
      refine induction ?_ fun other member => separated other (List.mem_cons_of_mem _ member)
      intro other member
      rcases List.mem_append.mp member with member | member
      · exact start other member
      · rw [List.mem_singleton.mp member]
        exact ⟨leadsDown, separated name List.mem_cons_self⟩

theorem plain_of_find {path : Path} {place : Place} (found : system.find path = .ok place) :
    Plain place :=
  (leads_of_find found).plain (fun _ member => absurd member List.not_mem_nil)
    fun _ member => Text.not_mem_of_mem_cut member

theorem canonicalize_eq_ok {path canonical : Path} :
    system.canonicalize path = .ok canonical ↔
      ∃ place, system.find path = .ok place ∧ canonical = pathOf place := by
  rw [canonicalize, Error.bind_eq_ok]
  constructor
  · rintro ⟨place, found, ⟨rfl⟩⟩
    exact ⟨place, found, rfl⟩
  · rintro ⟨place, found, rfl⟩
    exact ⟨place, found, rfl⟩

theorem parts_pathOf {place : Place} (nonempty : place ≠ []) (plain : Plain place) :
    (pathOf place).parts = [] :: place := by
  have noSeparators : ∀ name ∈ place, '/' ∉ name := fun name member => (plain name member).2
  have separator : "/".toList = ['/'] := rfl
  simp only [Path.parts, pathOf, String.toList_append, String.toList_intercalate, List.map_map,
    Function.comp_def, String.toList_ofList, List.map_id', separator, List.singleton_append]
  rw [Text.cut, if_pos rfl, Text.cut_intercalate nonempty noSeparators]

theorem components_pathOf {place : Place} (plain : Plain place) :
    (pathOf place).components = [] :: place := by
  cases place with
  | nil => decide
  | cons name names =>
      have absolute : (pathOf (name :: names)).isAbsolute = true := by
        simp [Path.isAbsolute, pathOf]
      have kept : (name :: names).filter (fun part => !part.isEmpty && part != ['.']) =
          name :: names :=
        List.filter_eq_self.mpr fun part member => by
          rcases (plain part member).1 with ⟨nonempty, notDot, _⟩
          simp [nonempty, notDot]
      rw [Path.components, absolute, parts_pathOf (by simp) plain]
      simpa using kept

theorem eq_of_same_canonical {other : FileSystem} {left right leftSource rightSource : Path}
    (canonicalLeft : system.canonicalize leftSource = .ok left)
    (canonicalRight : other.canonicalize rightSource = .ok right)
    (same : left.same right = true) : left = right := by
  rcases canonicalize_eq_ok.mp canonicalLeft with ⟨leftPlace, foundLeft, rfl⟩
  rcases canonicalize_eq_ok.mp canonicalRight with ⟨rightPlace, foundRight, rfl⟩
  have sameComponents := beq_iff_eq.mp same
  rw [components_pathOf (plain_of_find foundLeft), components_pathOf (plain_of_find foundRight)]
    at sameComponents
  rw [(List.cons.inj sameComponents).2]

end FileSystem

end CilLoader
