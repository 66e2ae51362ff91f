import MaterialShader.Shading.Directive
import MaterialShader.Node.Kind

/-!
# Keyword nodes

A keyword node passes on the input that the value of its keyword selects: `On` or
`Off` for a boolean keyword, the input named after the entry for an enum keyword.  In
code the choice is made by the preprocessor; a walk for one permutation follows the
selected input alone.

## Main definitions

* `Node.keywordName`, `Node.keyword` — the keyword of a node.
* `Keywords.followsSocket` — the inputs that a permutation follows.
* `Keyword.branches` — the branches of the choice, with their inputs.
-/

namespace MaterialShader

open Shading (Directive Condition Test)

/-- The reference name of the keyword that a node names. -/
def Node.keywordName (n : Node) : String := (n.params.text? "keyword").getD ""

/-- The keyword that a node names.  It has to be declared and to have values. -/
def Node.keyword (n : Node) (ks : Keywords) : Except GenerationError Keyword :=
  match ks.named? n.keywordName with
  | none => .error (.unknownKeyword n.id n.keywordName)
  | some k => if k.hasValues then .ok k else .error (.emptyKeyword n.keywordName)

/-- An input of a keyword node is followed in a permutation.  Where the keyword is not
declared or does not permute, every input is. -/
def Keywords.followsSocket (ks : Keywords) (n : Node) (socket : String) (index : Nat) : Bool :=
  match ks.named? n.keywordName with
  | none => true
  | some k =>
      match ks.valueIn? index n.keywordName with
      | none => true
      | some value => k.branchSocket? value == some socket

namespace Keyword

/-- The directive of the branch for a value of an enum keyword: the first opens the
branches, the last of several takes all that is left. -/
def branchDirective (k : Keyword) (value : Nat) : Directive :=
  if value = 0 then .ifTrue (.all [k.valueTest value])
  else if value = k.valueCount - 1 then .otherwise
  else .elseIf (.all [k.valueTest value])

/-- The branches of a choice, each with the input it takes. -/
def branches (k : Keyword) : List (Directive × String) :=
  match k.kind with
  | .boolean =>
      [(.ifTrue (.all [.defined k.referenceName]), "On"), (.otherwise, "Off")]
  | .enum =>
      (List.range k.valueCount).filterMap fun value =>
        (k.branchSocket? value).map fun socket => (k.branchDirective value, socket)

end Keyword
end MaterialShader
