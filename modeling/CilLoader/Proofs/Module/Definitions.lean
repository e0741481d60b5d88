import CilLoader.Module

/-!
# What definitions say

A type or a method that a module makes repeats what stands in its row. Its token is the one that was
asked for, and its owner is the one that the search finds.
-/

namespace CilLoader

namespace Module

variable {module : Module}

/-! ## Types -/

theorem row_of_typeAt {rid : Nat} {type : TypeDefinition}
    (found : module.typeAt rid = .ok type) :
    ∃ row, module.metadata.row? TypeDefRow rid = some row ∧ type.module = module.id ∧
      type.token = typeToken rid ∧ module.metadata.string row.namespace = .ok type.namespace ∧
      module.metadata.string row.name = .ok type.name ∧ type.flags = row.flags := by
  rcases Error.bind_eq_ok.mp found with ⟨row, required, found⟩
  rcases Error.bind_eq_ok.mp found with ⟨params, _, found⟩
  rcases Error.bind_eq_ok.mp found with ⟨«namespace», readNamespace, found⟩
  rcases Error.bind_eq_ok.mp found with ⟨name, readName, ⟨rfl⟩⟩
  rw [Metadata.requireRow] at required
  split at required
  case h_1 present =>
    cases required
    exact ⟨row, present, rfl, rfl, readNamespace, readName, rfl⟩
  case h_2 => cases required

theorem token_of_typeAt {rid : Nat} {type : TypeDefinition}
    (found : module.typeAt rid = .ok type) : type.token = typeToken rid := by
  rcases row_of_typeAt found with ⟨_, _, _, token, _⟩
  exact token

theorem rid_of_typeAt {rid : Nat} {type : TypeDefinition}
    (found : module.typeAt rid = .ok type) : 1 ≤ rid ∧ rid ≤ module.metadata.rowCount .typeDef := by
  rcases row_of_typeAt found with ⟨row, present, _⟩
  exact Metadata.rid_of_row? present

/-- If there are few types, a token keeps the number of its type. -/
theorem token_row_of_typeAt (few : module.metadata.rowCount .typeDef < 0x1000000) {rid : Nat}
    {type : TypeDefinition} (found : module.typeAt rid = .ok type) : type.token.row = rid := by
  have inside := (rid_of_typeAt found).2
  rw [token_of_typeAt found, typeToken, Token.row_ofParts, Nat.mod_eq_of_lt (by omega)]

/-! ## Methods -/

theorem methodToken_row {token : Token} (isMethod : token.table = TableId.methodDef.number) :
    methodToken token.row = token := by
  refine Token.eq_of_parts ?_ ?_
  · rw [methodToken, Token.table_ofParts token.row (by decide), isMethod]
  · rw [methodToken, Token.row_ofParts, Nat.mod_eq_of_lt token.row_lt]

/-- A method knows the type that the search has found for it. -/
theorem owner_of_methodByToken {token : Token} {method : MethodDefinition}
    (found : module.methodByToken token = .ok method) :
    ∃ owner, module.metadata.methodOwner? token.row = some owner ∧
      method.owner = typeToken owner ∧ method.token = token := by
  rw [methodByToken] at found
  split at found
  · cases found
  · split at found
    case _ row owner _ owned =>
      rcases Error.bind_eq_ok.mp found with ⟨name, _, found⟩
      rcases Error.bind_eq_ok.mp found with ⟨signature, _, ⟨rfl⟩⟩
      exact ⟨owner, owned, rfl, rfl⟩
    case _ => cases found

theorem token_of_methodByToken {token : Token} {method : MethodDefinition}
    (found : module.methodByToken token = .ok method) : method.token = token := by
  rcases owner_of_methodByToken found with ⟨_, _, _, sameToken⟩
  exact sameToken

end Module

end CilLoader
