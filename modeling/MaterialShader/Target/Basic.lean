import MaterialShader.Graph.Basic
import MaterialShader.Pass.Basic

/-!
# Targets

A target is a pipeline a material is made for: one subshader with its passes, and
the files it depends on.  A subshader may give structs to the passes that have none,
and dependencies to all of them.

## Main definitions

* `SubShader`, `Target`, `Catalog` — subshaders, targets and collections of them.
* `SubShader.resolved` — the passes with what the subshader gives them.
* `Catalog.accepting` — the targets that accept a graph.
-/

namespace MaterialShader

/-- A tag of a subshader. -/
structure SubShaderTag where
  name : String
  value : String
  deriving DecidableEq, Repr, Inhabited

/-- A subshader. -/
structure SubShader where
  tags : List SubShaderTag := []
  /-- The structs of the passes that declare none. -/
  structs : List StructDescriptor := []
  /-- The dependencies that come before those of each pass. -/
  fieldDependencies : List FieldDependency := []
  passes : List Pass := []
  deriving DecidableEq, Repr, Inhabited

namespace SubShader

/-- A pass with the structs and dependencies of its subshader. -/
def complete (s : SubShader) (p : Pass) : Pass :=
  { p with
    structs := if p.structs.isEmpty then s.structs else p.structs
    fieldDependencies := s.fieldDependencies ++ p.fieldDependencies }

/-- The subshader with everything it gives to its passes moved into them. -/
def resolved (s : SubShader) : SubShader :=
  { tags := s.tags, passes := s.passes.map s.complete }

/-- The line of the tags; without tags there is none. -/
def tagsLine? (s : SubShader) : Option String :=
  if s.tags.isEmpty then none
  else
    some ("Tags \x7b " ++
      " ".intercalate (s.tags.map fun t => "\"" ++ t.name ++ "\"=\"" ++ t.value ++ "\"") ++
      " \x7d")

end SubShader

/-- A target. -/
structure Target where
  /-- The name, by which graphs choose it. -/
  name : String
  /-- The files its output depends on. -/
  dependencies : List Path := []
  subShader : SubShader
  deriving DecidableEq, Repr, Inhabited

/-- A graph that names no targets is accepted by every target, and any other by the
targets it names. -/
def Target.accepts (t : Target) (g : Graph) : Bool := g.targets.isEmpty || g.targets.contains t.name

/-- A collection of targets. -/
structure Catalog where
  targets : List Target
  deriving DecidableEq, Repr, Inhabited

/-- The targets of a catalog that accept a graph. -/
def Catalog.accepting (c : Catalog) (g : Graph) : List Target := c.targets.filter (·.accepts g)

/-- The targets for an output: those of the catalog that accept the graph if the
output is the master node, and otherwise the target for previews of inner nodes. -/
def Catalog.targetsFor (c : Catalog) (preview : Target) (g : Graph) (outputIsMaster : Bool) :
    List Target :=
  if outputIsMaster then c.accepting g else [preview]

end MaterialShader
