import CilLoader.Proofs.Context.Repetition
import CilLoader.Proofs.Resolution.Bounds

/-!
# What a signature demands

The evaluation of a signature asks for the tokens in it one after the other, each in the context
that the earlier ones have left behind, until one of them fails.
-/

namespace CilLoader

variable [ExecutableParser]

namespace Bounded

variable {system : FileSystem} {target : Token} {later : Context}

mutual
/-- The signature comes to ask for a token, in the context `later`. -/
def Demands (reference : Token → Bounded TypeDesc) (system : FileSystem) (target : Token)
    (later : Context) : TypeSignature → Context → Prop
  | .primitive _, _ => False
  | .named _ token, context => token = target ∧ context = later
  | .generic _ token arguments, context =>
    token = target ∧ context = later ∨
      ∃ head middle, reference token system context = some (.ok (.definition head), middle) ∧
        DemandsAny reference system target later arguments middle
  | .typeVariable _, _ => False
  | .methodVariable _, _ => False
  | .vector element, context => Demands reference system target later element context
  | .array element _ _ _, context => Demands reference system target later element context
  | .pointer inner, context => Demands reference system target later inner context
  | .byRef inner, context => Demands reference system target later inner context
  | .pinned inner, context => Demands reference system target later inner context
  | .function (.mk _ _ returnType parameters), context =>
    DemandsAny reference system target later parameters context ∨
      ∃ types middle,
        resolveSignaturesWith reference parameters system context = some (.ok types, middle) ∧
          Demands reference system target later returnType middle

def DemandsAny (reference : Token → Bounded TypeDesc) (system : FileSystem) (target : Token)
    (later : Context) : List TypeSignature → Context → Prop
  | [], _ => False
  | signature :: signatures, context =>
    Demands reference system target later signature context ∨
      ∃ type middle,
        resolveSignatureWith reference signature system context = some (.ok type, middle) ∧
          DemandsAny reference system target later signatures middle
end

/-! ## Evaluation without an outcome -/

mutual
theorem exists_demands_of_eq_none {reference : Token → Bounded TypeDesc}
    (signature : TypeSignature) {context : Context}
    (unreached : resolveSignatureWith reference signature system context = none) :
    ∃ target later, Demands reference system target later signature context ∧
      reference target system later = none := by
  cases signature with
  | primitive type => simp [resolveSignatureWith] at unreached
  | named _ token => exact ⟨token, context, ⟨rfl, rfl⟩, unreached⟩
  | generic _ token arguments =>
      rcases bind_eq_none.mp unreached with unreachedHead | ⟨type, middle, head, unreached⟩
      · exact ⟨token, context, .inl ⟨rfl, rfl⟩, unreachedHead⟩
      · cases type with
        | definition definition =>
            rcases bind_eq_none.mp unreached with never | ⟨_, _, ⟨rfl⟩, unreached⟩
            · cases never
            · rcases bind_eq_none.mp unreached with unreachedArguments | ⟨_, _, _, never⟩
              · rcases exists_demandsAny_of_eq_none arguments unreachedArguments with
                    ⟨target, later, demands, unreachedTarget⟩
                exact ⟨target, later, .inr ⟨definition, middle, head, demands⟩, unreachedTarget⟩
              · cases never
        | _ => cases unreached
  | typeVariable index => cases unreached
  | methodVariable index => cases unreached
  | vector element =>
      rcases bind_eq_none.mp unreached with unreached | ⟨_, _, _, never⟩
      · exact exists_demands_of_eq_none element unreached
      · cases never
  | array element rank _ _ =>
      rcases bind_eq_none.mp unreached with unreached | ⟨_, _, _, never⟩
      · exact exists_demands_of_eq_none element unreached
      · cases never
  | pointer inner =>
      rcases bind_eq_none.mp unreached with unreached | ⟨_, _, _, never⟩
      · exact exists_demands_of_eq_none inner unreached
      · cases never
  | byRef inner =>
      rcases bind_eq_none.mp unreached with unreached | ⟨_, _, _, never⟩
      · exact exists_demands_of_eq_none inner unreached
      · cases never
  | pinned inner => exact exists_demands_of_eq_none inner unreached
  | function signature =>
      rcases signature with ⟨convention, _, returnType, parameters⟩
      rcases bind_eq_none.mp unreached with unreached | ⟨types, middle, found, unreached⟩
      · rcases exists_demandsAny_of_eq_none parameters unreached with
            ⟨target, later, demands, unreachedTarget⟩
        exact ⟨target, later, .inl demands, unreachedTarget⟩
      · rcases bind_eq_none.mp unreached with unreached | ⟨_, _, _, never⟩
        · rcases exists_demands_of_eq_none returnType unreached with
              ⟨target, later, demands, unreachedTarget⟩
          exact ⟨target, later, .inr ⟨types, middle, found, demands⟩, unreachedTarget⟩
        · cases never

theorem exists_demandsAny_of_eq_none {reference : Token → Bounded TypeDesc}
    (signatures : List TypeSignature) {context : Context}
    (unreached : resolveSignaturesWith reference signatures system context = none) :
    ∃ target later, DemandsAny reference system target later signatures context ∧
      reference target system later = none := by
  cases signatures with
  | nil => cases unreached
  | cons signature signatures =>
      rcases bind_eq_none.mp unreached with unreached | ⟨type, middle, found, unreached⟩
      · rcases exists_demands_of_eq_none signature unreached with
            ⟨target, later, demands, unreachedTarget⟩
        exact ⟨target, later, .inl demands, unreachedTarget⟩
      · rcases bind_eq_none.mp unreached with unreached | ⟨_, _, _, never⟩
        · rcases exists_demandsAny_of_eq_none signatures unreached with
              ⟨target, later, demands, unreachedTarget⟩
          exact ⟨target, later, .inr ⟨type, middle, found, demands⟩, unreachedTarget⟩
        · cases never
end

/-! ## Evaluation with an outcome -/

mutual
/-- A signature with an outcome has one for each token that it demands, under any bound. -/
theorem ne_none_of_demands {earlier reference all : Token → Bounded TypeDesc}
    (refinesEarlier : ∀ token, Refines (earlier token) (all token))
    (refines : ∀ token, Refines (reference token) (all token))
    (signature : TypeSignature) {context : Context}
    (demands : Demands earlier system target later signature context)
    (reached : resolveSignatureWith reference signature system context ≠ none) :
    reference target system later ≠ none := by
  cases signature with
  | primitive type => exact demands.elim
  | named _ token =>
      rcases demands with ⟨rfl, rfl⟩
      exact reached
  | generic _ token arguments =>
      rcases bind_ne_none.mp reached with ⟨reachedHead, reachedRest⟩
      rcases demands with ⟨rfl, rfl⟩ | ⟨head, middle, found, demands⟩
      · exact reachedHead
      · have sameHead := (refinesEarlier token).agree (refines token) found reachedHead
        have reachedRest := reachedRest (.definition head) middle sameHead
        have reachedArguments := (bind_ne_none.mp reachedRest).2 head middle rfl
        exact ne_none_of_demandsAny refinesEarlier refines arguments demands
          (bind_ne_none.mp reachedArguments).1
  | typeVariable index => exact demands.elim
  | methodVariable index => exact demands.elim
  | vector element =>
      exact ne_none_of_demands refinesEarlier refines element demands (bind_ne_none.mp reached).1
  | array element rank _ _ =>
      exact ne_none_of_demands refinesEarlier refines element demands (bind_ne_none.mp reached).1
  | pointer inner =>
      exact ne_none_of_demands refinesEarlier refines inner demands (bind_ne_none.mp reached).1
  | byRef inner =>
      exact ne_none_of_demands refinesEarlier refines inner demands (bind_ne_none.mp reached).1
  | pinned inner => exact ne_none_of_demands refinesEarlier refines inner demands reached
  | function signature =>
      rcases signature with ⟨convention, _, returnType, parameters⟩
      rcases bind_ne_none.mp reached with ⟨reachedParameters, reachedRest⟩
      rcases demands with demands | ⟨types, middle, found, demands⟩
      · exact ne_none_of_demandsAny refinesEarlier refines parameters demands reachedParameters
      · have sameParameters := (refines_resolveSignaturesWith refinesEarlier parameters).agree
          (refines_resolveSignaturesWith refines parameters) found reachedParameters
        have reachedRest := reachedRest types middle sameParameters
        exact ne_none_of_demands refinesEarlier refines returnType demands
          (bind_ne_none.mp reachedRest).1

theorem ne_none_of_demandsAny {earlier reference all : Token → Bounded TypeDesc}
    (refinesEarlier : ∀ token, Refines (earlier token) (all token))
    (refines : ∀ token, Refines (reference token) (all token))
    (signatures : List TypeSignature) {context : Context}
    (demands : DemandsAny earlier system target later signatures context)
    (reached : resolveSignaturesWith reference signatures system context ≠ none) :
    reference target system later ≠ none := by
  cases signatures with
  | nil => exact demands.elim
  | cons signature signatures =>
      rcases bind_ne_none.mp reached with ⟨reachedFirst, reachedRest⟩
      rcases demands with demands | ⟨type, middle, found, demands⟩
      · exact ne_none_of_demands refinesEarlier refines signature demands reachedFirst
      · have sameFirst := (refines_resolveSignatureWith refinesEarlier signature).agree
          (refines_resolveSignatureWith refines signature) found reachedFirst
        have reachedRest := reachedRest type middle sameFirst
        exact ne_none_of_demandsAny refinesEarlier refines signatures demands
          (bind_ne_none.mp reachedRest).1
end

/-! ## The context of a demand -/

mutual
theorem changes_of_demands {reference : Token → Bounded TypeDesc}
    (changing : ∀ token, Changing (reference token)) (signature : TypeSignature)
    {context : Context} (demands : Demands reference system target later signature context) :
    Context.Changes system context later := by
  cases signature with
  | primitive type => exact demands.elim
  | named _ token =>
      rw [demands.2]
      exact Context.Changes.refl system later
  | generic _ token arguments =>
      rcases demands with ⟨_, rfl⟩ | ⟨head, middle, found, demands⟩
      · exact Context.Changes.refl system context
      · exact (changing token system context _ found).trans
          (changes_of_demandsAny changing arguments demands)
  | typeVariable index => exact demands.elim
  | methodVariable index => exact demands.elim
  | vector element => exact changes_of_demands changing element demands
  | array element rank _ _ => exact changes_of_demands changing element demands
  | pointer inner => exact changes_of_demands changing inner demands
  | byRef inner => exact changes_of_demands changing inner demands
  | pinned inner => exact changes_of_demands changing inner demands
  | function signature =>
      rcases signature with ⟨convention, _, returnType, parameters⟩
      rcases demands with demands | ⟨types, middle, found, demands⟩
      · exact changes_of_demandsAny changing parameters demands
      · exact (changing_resolveSignaturesWith changing parameters system context _ found).trans
          (changes_of_demands changing returnType demands)

theorem changes_of_demandsAny {reference : Token → Bounded TypeDesc}
    (changing : ∀ token, Changing (reference token)) (signatures : List TypeSignature)
    {context : Context} (demands : DemandsAny reference system target later signatures context) :
    Context.Changes system context later := by
  cases signatures with
  | nil => exact demands.elim
  | cons signature signatures =>
      rcases demands with demands | ⟨type, middle, found, demands⟩
      · exact changes_of_demands changing signature demands
      · exact (changing_resolveSignatureWith changing signature system context _ found).trans
          (changes_of_demandsAny changing signatures demands)
end

/-! ## Demands in later contexts -/

variable {grown : Context}

mutual
theorem demands_again {reference : Token → Bounded TypeDesc}
    (repeatable : ∀ token, Repeatable (reference token)) (signature : TypeSignature)
    {context : Context} (settled : context.Settled) (extension : later.Extends grown)
    (demands : Demands reference system target later signature context) :
    Demands reference system target grown signature grown := by
  cases signature with
  | primitive type => exact demands.elim
  | named _ token => exact ⟨demands.1, rfl⟩
  | generic _ token arguments =>
      rcases demands with ⟨rfl, _⟩ | ⟨head, middle, found, demands⟩
      · exact .inl ⟨rfl, rfl⟩
      · have settledMiddle := settled.changes ((repeatable token).changing system context _ found)
        have changes := changes_of_demandsAny (fun token => (repeatable token).changing)
          arguments demands
        have grownMiddle := (settledMiddle.extends changes).trans extension
        exact .inr ⟨head, grown, (repeatable token).again settled found grownMiddle system,
          demandsAny_again repeatable arguments settledMiddle extension demands⟩
  | typeVariable index => exact demands.elim
  | methodVariable index => exact demands.elim
  | vector element => exact demands_again repeatable element settled extension demands
  | array element rank _ _ => exact demands_again repeatable element settled extension demands
  | pointer inner => exact demands_again repeatable inner settled extension demands
  | byRef inner => exact demands_again repeatable inner settled extension demands
  | pinned inner => exact demands_again repeatable inner settled extension demands
  | function signature =>
      rcases signature with ⟨convention, _, returnType, parameters⟩
      rcases demands with demands | ⟨types, middle, found, demands⟩
      · exact .inl (demandsAny_again repeatable parameters settled extension demands)
      · have evaluation := repeatable_resolveSignaturesWith repeatable parameters
        have settledMiddle := settled.changes (evaluation.changing system context _ found)
        have changes := changes_of_demands (fun token => (repeatable token).changing)
          returnType demands
        have grownMiddle := (settledMiddle.extends changes).trans extension
        exact .inr ⟨types, grown, evaluation.again settled found grownMiddle system,
          demands_again repeatable returnType settledMiddle extension demands⟩

theorem demandsAny_again {reference : Token → Bounded TypeDesc}
    (repeatable : ∀ token, Repeatable (reference token)) (signatures : List TypeSignature)
    {context : Context} (settled : context.Settled) (extension : later.Extends grown)
    (demands : DemandsAny reference system target later signatures context) :
    DemandsAny reference system target grown signatures grown := by
  cases signatures with
  | nil => exact demands.elim
  | cons signature signatures =>
      rcases demands with demands | ⟨type, middle, found, demands⟩
      · exact .inl (demands_again repeatable signature settled extension demands)
      · have evaluation := repeatable_resolveSignatureWith repeatable signature
        have settledMiddle := settled.changes (evaluation.changing system context _ found)
        have changes := changes_of_demandsAny (fun token => (repeatable token).changing)
          signatures demands
        have grownMiddle := (settledMiddle.extends changes).trans extension
        exact .inr ⟨type, grown, evaluation.again settled found grownMiddle system,
          demandsAny_again repeatable signatures settledMiddle extension demands⟩
end

end Bounded

end CilLoader
