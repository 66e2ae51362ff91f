import MaterialShader.Proofs.OutputRecursion
import MaterialShader.Proofs.PassError

/-!
# Undeclared keywords

Once a walk has succeeded, and with it the look-ups of its nodes, the types that the code of these
nodes needs are there.  What a pass can still fail with is a keyword node whose keyword the graph
does not declare: neither the walk nor reading the document asks about that.

## Main definitions

* `GenerationError.IsUndeclared` — a keyword node among given nodes names no declared keyword.

## Main results

* `Graph.IsWalked.errorsMeet` — the errors of a pass are undeclared keywords.
-/

namespace MaterialShader

open Outcome (FailsOnly)

/-- The error says of a keyword node among given nodes that its keyword is not declared. -/
def GenerationError.IsUndeclared (g : Graph) (ks : Keywords) (ids : List String)
    (e : GenerationError) : Prop :=
  ∃ id ∈ ids, ∃ o, g.operation id = .ok o ∧ o.kind = .keyword ∧
    ks.named? o.node.keywordName = none ∧ e = .unknownKeyword id o.node.keywordName

open GenerationError (IsUndeclared)

variable {g : Graph} {output id : String} {ids : List String} {o : Operation} {ks : Keywords}

/-- A declared keyword has values, so the only error of a keyword node is that it is not. -/
theorem Operation.failsOnly_keyword (hvalues : ∀ k ∈ ks, k.hasValues = true) (hid : id ∈ ids)
    (ho : g.operation id = .ok o) (hkind : o.kind = .keyword) :
    FailsOnly (IsUndeclared g ks ids) (o.node.keyword ks) := by
  unfold Node.keyword
  cases hnamed : ks.named? o.node.keywordName with
  | none =>
    rw [Graph.id_of_operation ho]
    exact FailsOnly.error ⟨id, hid, o, ho, hkind, hnamed, rfl⟩
  | some k =>
    dsimp only
    rw [if_pos (hvalues k (Keywords.mem_of_named? hnamed).1)]
    exact FailsOnly.ok k

namespace Graph.IsWalked

/-- **The errors at the nodes of a walk** are undeclared keywords. -/
theorem errorsMeet (h : g.IsWalked output ids) (hvalues : ∀ k ∈ ks, k.hasValues = true) :
    g.ErrorsMeet (IsUndeclared g ks ids) ks ids where
  operation := fun id hid => FailsOnly.of_exists (h.known id hid)
  connected := fun _ hid _ ho socket => FailsOnly.of_exists (h.exists_connectedOutput hid ho socket)
  types := fun _ hid _ ho socket => FailsOnly.of_exists (h.exists_outputType hid ho socket)
  keyword := fun _ hid _ ho hkind => Operation.failsOnly_keyword hvalues hid ho hkind

end Graph.IsWalked
end MaterialShader
