import CilLoader.Executable.Container
import CilLoader.Proofs.Registry.FirstWins
import CilLoader.Proofs.Resolution.Arity
import CilLoader.Proofs.Signature.Checked

/-!
# Shapes of arrays

A signature writes the rank of an array, the number of its sizes and the number of its lower bounds
one by one, and they are read without a look at each other. The rank goes into the type that the
signature denotes. So arrays have the shapes that are written, consistent or not.
-/

namespace CilLoader

/-- An array has at least one dimension, and no more sizes or lower bounds than dimensions. -/
def TypeSignature.isShaped : TypeSignature → Bool
  | .array _ rank sizes lowerBounds =>
    0 < rank && sizes.length ≤ rank && lowerBounds.length ≤ rank
  | _ => true

namespace TypeDesc

mutual
/-- The ranks of the arrays in a type, at all depths. -/
def ranks : TypeDesc → List Nat
  | definition _ => []
  | instantiated _ arguments => ranksOfAll arguments
  | vector element => ranks element
  | array element rank => rank :: ranks element
  | pointer target => ranks target
  | byRef target => ranks target
  | function _ returnType parameters => ranks returnType ++ ranksOfAll parameters
  | parameter _ _ => []

def ranksOfAll : List TypeDesc → List Nat
  | [] => []
  | type :: types => ranks type ++ ranksOfAll types
end

end TypeDesc

namespace Module

variable {module : Module} {rank : Nat}

/-- A part of a signature writes the rank of an array, by itself or in the type specification that
it names. -/
inductive WritesRank (module : Module) (rank : Nat) : TypeSignature → Prop
  | itself {element : TypeSignature} {sizes : List Nat} {lowerBounds : List Int} :
    WritesRank module rank (.array element rank sizes lowerBounds)
  | specified {kind : NominalKind} {token : Token} {specification part : TypeSignature}
      (table : token.table = TableId.typeSpec.number)
      (decoded : module.metadata.typeSpecSignature token.row = .ok specification)
      (member : part ∈ specification.parts) (behind : WritesRank module rank part) :
      WritesRank module rank (.named kind token)

theorem writesRank_array_iff {element : TypeSignature} {written : Nat} {sizes : List Nat}
    {lowerBounds : List Int} :
    module.WritesRank rank (.array element written sizes lowerBounds) ↔ rank = written := by
  constructor
  · intro writes
    cases writes
    rfl
  · intro same
    subst same
    exact .itself

theorem not_writesRank_of_otherTable {kind : NominalKind} {token : Token}
    (otherTable : token.table ≠ TableId.typeSpec.number) :
    ¬module.WritesRank rank (.named kind token) := by
  intro writes
  cases writes with
  | specified table _ _ _ => exact otherTable table

theorem writesRank_named_iff {kind : NominalKind} {token : Token} {specification : TypeSignature}
    (table : token.table = TableId.typeSpec.number)
    (decoded : module.metadata.typeSpecSignature token.row = .ok specification) :
    module.WritesRank rank (.named kind token) ↔
      ∃ part ∈ specification.parts, module.WritesRank rank part := by
  constructor
  · intro writes
    cases writes with
    | specified _ decodedToo member behind =>
        cases decoded.symm.trans decodedToo
        exact ⟨_, member, behind⟩
  · intro ⟨part, member, behind⟩
    exact .specified table decoded member behind

/-- Some of the parts writes the rank. -/
def AnyWritesRank (module : Module) (rank : Nat) (parts : List TypeSignature) : Prop :=
  ∃ part ∈ parts, module.WritesRank rank part

theorem anyWritesRank_cons {part : TypeSignature} {parts : List TypeSignature} :
    module.AnyWritesRank rank (part :: parts) ↔
      module.WritesRank rank part ∨ module.AnyWritesRank rank parts := by
  simp [AnyWritesRank]

theorem anyWritesRank_append {first second : List TypeSignature} :
    module.AnyWritesRank rank (first ++ second) ↔
      module.AnyWritesRank rank first ∨ module.AnyWritesRank rank second := by
  simp [AnyWritesRank, or_and_right, exists_or]

/-- What writes no rank by itself writes those of the types inside. -/
theorem anyWritesRank_inside (signature : TypeSignature)
    (silent : ¬module.WritesRank rank signature) :
    module.AnyWritesRank rank signature.parts ↔
      module.AnyWritesRank rank signature.parts.tail := by
  rw [signature.parts_eq_cons, anyWritesRank_cons, or_iff_right silent, List.tail_cons]

end Module

namespace Bounded

open CilLoader.Action

variable {α β : Type} {system : FileSystem} {context after : Context} {module : Module}
  {rank : Nat}

theorem map_eq_some_ok {action : Bounded α} {change : α → β} {result : β} :
    (action >>= fun value => pure (change value)) system context = some (.ok result, after) ↔
      ∃ value, action system context = some (.ok value, after) ∧ change value = result := by
  rw [bind_eq_some_ok]
  simp

/-- The types that references denote have the ranks that are written behind the references. -/
def KeepsRanks (module : Module) (rank : Nat) (system : FileSystem)
    (reference : Token → Bounded TypeDesc) : Prop :=
  ∀ kind token context type after, reference token system context = some (.ok type, after) →
    (rank ∈ type.ranks ↔ module.WritesRank rank (.named kind token))

variable [ExecutableParser]

section KeepsRanks

variable {reference : Token → Bounded TypeDesc}

mutual
theorem KeepsRanks.signature (keeps : KeepsRanks module rank system reference)
    (signature : TypeSignature) {context after : Context} {type : TypeDesc}
    (run : resolveSignatureWith reference signature system context = some (.ok type, after)) :
    rank ∈ type.ranks ↔ module.AnyWritesRank rank signature.parts := by
  cases signature with
  | primitive primitive =>
      obtain ⟨definition, rfl⟩ := exists_definition_of_resolvePrimitive (Option.some.inj run)
      rw [TypeDesc.ranks, Module.anyWritesRank_inside (.primitive primitive) nofun]
      simp [TypeSignature.parts, Module.AnyWritesRank]
  | named kind token =>
      rw [keeps kind token context type after run, TypeSignature.parts]
      simp [Module.AnyWritesRank]
  | generic kind token arguments =>
      obtain ⟨whole, middle, _, run⟩ := bind_eq_some_ok.mp run
      obtain ⟨head, behind, _, run⟩ := bind_eq_some_ok.mp run
      obtain ⟨types, inner, rfl⟩ := map_eq_some_ok.mp run
      rw [TypeDesc.ranks, Module.anyWritesRank_inside (.generic kind token arguments) nofun]
      exact keeps.signatures arguments inner
  | typeVariable index =>
      cases run
      rw [TypeDesc.ranks, Module.anyWritesRank_inside (.typeVariable index) nofun]
      simp [TypeSignature.parts, Module.AnyWritesRank]
  | methodVariable index =>
      cases run
      rw [TypeDesc.ranks, Module.anyWritesRank_inside (.methodVariable index) nofun]
      simp [TypeSignature.parts, Module.AnyWritesRank]
  | vector element =>
      obtain ⟨inside, inner, rfl⟩ := map_eq_some_ok.mp run
      rw [TypeDesc.ranks, Module.anyWritesRank_inside (.vector element) nofun]
      exact keeps.signature element inner
  | array element written sizes lowerBounds =>
      obtain ⟨inside, inner, rfl⟩ := map_eq_some_ok.mp run
      rw [TypeDesc.ranks, TypeSignature.parts, Module.anyWritesRank_cons, List.mem_cons,
        Module.writesRank_array_iff, keeps.signature element inner]
  | pointer target =>
      obtain ⟨inside, inner, rfl⟩ := map_eq_some_ok.mp run
      rw [TypeDesc.ranks, Module.anyWritesRank_inside (.pointer target) nofun]
      exact keeps.signature target inner
  | byRef target =>
      obtain ⟨inside, inner, rfl⟩ := map_eq_some_ok.mp run
      rw [TypeDesc.ranks, Module.anyWritesRank_inside (.byRef target) nofun]
      exact keeps.signature target inner
  | pinned target =>
      rw [Module.anyWritesRank_inside (.pinned target) nofun]
      exact keeps.signature target run
  | function method =>
      rw [Module.anyWritesRank_inside (.function method) nofun]
      obtain ⟨convention, genericCount, returnType, parameters⟩ := method
      obtain ⟨types, middle, innerParameters, run⟩ := bind_eq_some_ok.mp run
      obtain ⟨returned, inner, rfl⟩ := map_eq_some_ok.mp run
      rw [TypeDesc.ranks, TypeSignature.parts, List.tail_cons, MethodSignature.parts,
        Module.anyWritesRank_append, List.mem_append, keeps.signature returnType inner,
        keeps.signatures parameters innerParameters]

theorem KeepsRanks.signatures (keeps : KeepsRanks module rank system reference)
    (signatures : List TypeSignature) {context after : Context} {types : List TypeDesc}
    (run : resolveSignaturesWith reference signatures system context =
      some (.ok types, after)) :
    rank ∈ TypeDesc.ranksOfAll types ↔ module.AnyWritesRank rank (partsOfAll signatures) := by
  cases signatures with
  | nil =>
      cases run
      simp [TypeDesc.ranksOfAll, partsOfAll, Module.AnyWritesRank]
  | cons signature signatures =>
      obtain ⟨type, middle, first, run⟩ := bind_eq_some_ok.mp run
      obtain ⟨types, rest, rfl⟩ := map_eq_some_ok.mp run
      rw [TypeDesc.ranksOfAll, partsOfAll, Module.anyWritesRank_append, List.mem_append,
        keeps.signature signature first, keeps.signatures signatures rest]
end

end KeepsRanks

theorem keepsRanks_of_otherTable {token : Token} {kind : NominalKind}
    (otherTable : token.table ≠ TableId.typeSpec.number) {bound : Nat} {type : TypeDesc}
    (run : resolveReferenceWithin module bound token system context = some (.ok type, after)) :
    rank ∈ type.ranks ↔ module.WritesRank rank (.named kind token) := by
  rw [resolveReferenceWithin_of_otherTable otherTable] at run
  obtain ⟨definition, rfl⟩ := exists_definition_of_directReference (Option.some.inj run)
  have silent : ¬module.WritesRank rank (.named kind token) :=
    Module.not_writesRank_of_otherTable otherTable
  simp [TypeDesc.ranks, silent]

theorem keepsRanks_resolveReferenceWithin (bound : Nat) :
    KeepsRanks module rank system (resolveReferenceWithin module bound) := by
  induction bound with
  | zero =>
      intro kind token context type after run
      by_cases table : token.table = TableId.typeSpec.number
      · rw [resolveReferenceWithin_zero table] at run
        cases run
      · exact keepsRanks_of_otherTable table run
  | succ bound induction =>
      intro kind token context type after run
      by_cases table : token.table = TableId.typeSpec.number
      · rw [resolveReferenceWithin_succ table] at run
        obtain ⟨specification, middle, decoded, run⟩ := bind_eq_some_ok.mp run
        have ⟨decoded, _⟩ : module.metadata.typeSpecSignature token.row = .ok specification ∧
            context = middle := by
          simpa using decoded
        rw [Module.writesRank_named_iff table decoded]
        exact induction.signature specification run
      · exact keepsRanks_of_otherTable table run

end Bounded

namespace Action

open Bounded SignatureReader

theorem mem_ranks_resolveSignature_iff [ExecutableParser] {module : Module}
    {signature : TypeSignature} {system : FileSystem} {context after : Context} {type : TypeDesc}
    (resolved : resolveSignature module signature system context = (.ok type, after))
    (rank : Nat) : rank ∈ type.ranks ↔ module.AnyWritesRank rank signature.parts :=
  (keepsRanks_resolveReferenceWithin _).signature signature (settle_eq_ok.mp resolved)

/-- Arrays are consistent exactly in what could also be read if each array were checked. The type
that a signature denotes has the ranks that the signature writes, whatever they are. -/
theorem arrays_shaped_as_written [ExecutableParser] (refusal : Error) :
    (∀ data type after,
      (start data).read (Decoder.checkedWithin (·.isShaped) refusal) = (.ok type, after) ↔
        (start data).readType = (.ok type, after) ∧ ∀ part ∈ type.parts, part.isShaped) ∧
    (∀ data method after,
      (start data).read (Decoder.checkedMethodWithin (·.isShaped) refusal) = (.ok method, after) ↔
        (start data).readMethod = (.ok method, after) ∧ ∀ part ∈ method.parts, part.isShaped) ∧
    ∀ module signature system context type after,
      resolveSignature module signature system context = (.ok type, after) →
        ∀ rank, rank ∈ type.ranks ↔ module.AnyWritesRank rank signature.parts := by
  refine ⟨?_, ?_, ?_⟩
  · intro data type after
    exact read_filters_iff Decoder.filters_checkedWithin
  · intro data method after
    exact read_filters_iff Decoder.filters_checkedMethodWithin
  · intro module signature system context type after resolved rank
    exact mem_ranks_resolveSignature_iff resolved rank

open scoped Container

/-- An array of rank two over an array of rank three is resolved. One size is known. -/
theorem arrays_shaped_as_written_cube :
    let module := Registry.moduleNamed 0 "A" "/A.dll"
    let signature : TypeSignature := .array (.array (.typeVariable 0) 3 [] []) 2 [5] []
    let type : TypeDesc := .array (.array (.parameter .type 0) 3) 2
    resolveSignature module signature appliedFiles appliedLoaded = (.ok type, appliedLoaded) ∧
      type.ranks = [2, 3] ∧
      ∀ rank, rank ∈ type.ranks ↔ module.AnyWritesRank rank signature.parts :=
  ⟨rfl, rfl, (arrays_shaped_as_written .outOfBounds).2.2 (Registry.moduleNamed 0 "A" "/A.dll")
    (.array (.array (.typeVariable 0) 3 [] []) 2 [5] []) appliedFiles appliedLoaded
    (.array (.array (.parameter .type 0) 3) 2) appliedLoaded rfl⟩

/-- An array of rank zero is read, and it is resolved. -/
theorem not_arrays_shaped :
    (¬∀ data type after, (start data).readType = (.ok type, after) →
      ∀ part ∈ type.parts, part.isShaped) ∧
    ¬∀ data signature after, (start data).readType = (.ok signature, after) →
      ∀ module system context type later,
        resolveSignature module signature system context = (.ok type, later) → 0 ∉ type.ranks := by
  have read : (start #[0x14, 0x13, 0, 0, 0, 0]).readType =
      (.ok (.array (.typeVariable 0) 0 [] []), ⟨⟨#[0x14, 0x13, 0, 0, 0, 0], 6⟩, 0⟩) := rfl
  constructor
  · intro always
    have shaped := always _ _ _ read (.array (.typeVariable 0) 0 [] []) (List.mem_cons_self ..)
    cases shaped
  · intro never
    have positive := never _ _ _ read (Registry.moduleNamed 0 "A" "/A.dll") appliedFiles
      appliedLoaded (.array (.parameter .type 0) 0) appliedLoaded rfl
    exact positive (List.mem_cons_self ..)

end Action

end CilLoader
