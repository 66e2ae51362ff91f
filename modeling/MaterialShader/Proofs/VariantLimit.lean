import MaterialShader.FilePlace
import MaterialShader.Proofs.CollectedProperty
import MaterialShader.Proofs.JoinedLine
import MaterialShader.Proofs.PermutationIndex
import MaterialShader.Proofs.WalkOrder

/-!
# Too many variants

Permutations are counted by a product that is cut off at the largest word, factor by factor.
Every keyword has at least one value, so no factor makes a product that was cut off smaller
again: the count is the true product, cut off once.

A graph with more permutations than allowed gets a shader without subshaders.  It is made from
the properties of the graph and the names of the shader and its fallback; what the passes are
made from is not looked at.

## Main definitions

* `Generator.limitedLines` — the lines of the shader without subshaders.

## Main results

* `Keywords.lt_permutationCount_iff` — the count exceeds a limit if the true product does.
* `Generator.generate_of_lt_permutationCount` — what the shader is generated from.
* `Generator.generate_over_limit` — the shader of a graph with too many permutations.
-/

namespace MaterialShader

/-! ### Counting -/

/-- A limit that can be counted is exceeded by the count if it is by the true product. -/
theorem Keywords.lt_permutationCount_iff (ks : Keywords) {limit : Nat} (h : limit < maxCount) :
    limit < ks.permutationCount ↔ limit < combinations ks.permuting := by
  rw [Keywords.permutationCount_eq]
  omega

/-! ### The text -/

theorem Code.writtenLines_ofLines (depth : Nat) (lines : List String) :
    writtenLines depth (ofLines lines) = lines.map (Writer.lineBody depth) := by
  induction lines with
  | nil => rfl
  | cons line lines ih => exact congrArg (Writer.lineBody depth line :: ·) ih

theorem Writer.lineBody_of_ne_empty {line : String} (depth : Nat) (h : line ≠ "") :
    lineBody depth line = indentation depth ++ line :=
  if_neg fun hempty => h (String.isEmpty_iff.mp hempty)

/-- A property has a line, which starts with its name or an attribute. -/
theorem Property.blockLine_ne_empty (p : Property) : p.blockLine ≠ "" := by
  have hsignature : ∀ kind, p.blockSignature kind ≠ "" := by
    intro kind hempty
    simp [blockSignature, String.append_eq_empty_iff] at hempty
  unfold blockLine
  cases p.value <;> simp [String.append_eq_empty_iff, hsignature]

namespace Generator

variable {s : Generator} {output : String} {mode : Mode} {ids : List String}
  {properties : List Property}

/-- The lines of a shader without subshaders: its name, the block of its properties and its
fallback. -/
def limitedLines (s : Generator) (properties : List Property) : List String :=
  ["Shader \"" ++ s.graph.shaderPath ++ "\"", "\x7b", "    Properties", "    \x7b"] ++
    (propertyBlock properties).map (fun line => "        " ++ line) ++
      ["    \x7d", "    FallBack \"" ++ s.config.fallbackShader ++ "\"", "\x7d"]

theorem source_limitedShader (s : Generator) (properties : List Property) :
    (s.limitedShader properties).source = Text.joinLines (s.limitedLines properties) := by
  have hblock : (propertyBlock properties).map (Writer.lineBody 2) =
      (propertyBlock properties).map fun line => "        " ++ line := by
    refine List.map_congr_left fun line hline => ?_
    obtain ⟨p, -, rfl⟩ := List.mem_map.mp hline
    exact Writer.lineBody_of_ne_empty 2 p.blockLine_ne_empty
  have hfallback : Writer.lineBody 1 ("FallBack \"" ++ s.config.fallbackShader ++ "\"") =
      "    FallBack \"" ++ s.config.fallbackShader ++ "\"" := by
    rw [Writer.lineBody_of_ne_empty 1 (by simp [String.append_eq_empty_iff])]
    rfl
  show Code.text _ = _
  rw [Code.text_eq_joinLines]
  refine congrArg Text.joinLines ?_
  simp only [Code.writtenLines, Code.writtenLine, propertyCode, Code.writtenLines_ofLines, hblock,
    hfallback, limitedLines, Scope.opening?, Scope.closing?, Option.toList_some, List.map_cons,
    List.map_nil, Writer.lineBody_zero, List.nil_append, List.cons_append, List.append_assoc,
    List.append_nil, Nat.zero_add, Nat.reduceAdd]
  rfl

/-! ### The generation -/

/-- Beyond the limit, the shader is that of the properties that are collected. -/
theorem generate_of_lt_permutationCount (hwalk : s.graph.evaluationOrder output = .ok ids)
    (hknown : ∀ id ∈ ids, ∃ o, s.graph.operation id = .ok o)
    (hlimit : s.config.variantLimit < s.graph.keywords.permutationCount)
    (hproperties : collectProperties s.graph mode ids = .ok properties) :
    s.generate output mode = .ok (s.limitedShader properties) := by
  obtain ⟨o, ho⟩ := hknown output (Walk.isOrdered_of_collect hwalk).2
  rw [generate, hwalk]
  show s.graph.operation output >>= _ = _
  rw [ho]
  show collectProperties s.graph mode ids >>= _ = _
  rw [hproperties]
  exact if_pos hlimit

/-- **A graph with too many permutations.**  They are counted as they are, up to the largest
word; so a smaller limit is exceeded by the count exactly if it is exceeded by their number.
The shader of such a graph has its name, its properties and its fallback, one message, the
textures and no dependency, and nothing that passes and templates are made from changes it. -/
theorem generate_over_limit :
    (∀ ks : Keywords,
        ks.permutationCount = min (2 ^ 64 - 1) (ks.permuting.map Keyword.valueCount).prod ∧
          ∀ limit < 2 ^ 64 - 1, limit < ks.permutationCount ↔
            limit < (ks.permuting.map Keyword.valueCount).prod) ∧
      ∀ (s : Generator) (output : String) (mode : Mode) (ids : List String),
        s.graph.evaluationOrder output = .ok ids →
        (∀ id ∈ ids, ∃ o, s.graph.operation id = .ok o) →
        s.config.variantLimit < s.graph.keywords.permutationCount →
        ∃ properties shader,
          collectProperties s.graph mode ids = .ok properties ∧
            s.generate output mode = .ok shader ∧
            shader.source = Text.joinLines (s.limitedLines properties) ∧
            (∃ d, shader.diagnostics = [d] ∧ d.kind = .variantLimitExceeded) ∧
            shader.textures = textures properties ∧
            shader.dependencies = [] ∧
            ∀ catalog preview templateRoot sharedTemplateDir debugOutput store,
              Generator.generate ⟨s.graph, catalog, preview, { s.config with
                templateRoot, sharedTemplateDir, debugOutput }, store⟩ output mode = .ok shader := by
  constructor
  · intro ks
    refine ⟨?_, fun limit hlimit => ks.lt_permutationCount_iff hlimit⟩
    rw [Keywords.permutationCount_eq, min_comm]
    rfl
  · intro s output mode ids hwalk hknown hlimit
    obtain ⟨properties, hproperties⟩ := exists_collectProperties hknown mode
    refine ⟨properties, s.limitedShader properties, hproperties,
      generate_of_lt_permutationCount hwalk hknown hlimit hproperties,
      source_limitedShader s properties, ⟨_, rfl, rfl⟩, rfl, rfl, ?_⟩
    intro catalog preview templateRoot sharedTemplateDir debugOutput store
    exact generate_of_lt_permutationCount (s := ⟨s.graph, catalog, preview, _, store⟩)
      hwalk hknown hlimit hproperties

/-- A texture behind the colour of a surface, and three keywords. -/
def crowdedGraph : Graph where
  version := "1"
  metadata := { name := "Crowded" }
  nodes := [
    { id := "out", type := "Master", inputs := [{ id := "BaseColor" }] },
    { id := "tex", type := "SampleTexture2D" }]
  connections := [⟨"c1", ⟨"tex", "RGBA"⟩, ⟨"out", "BaseColor"⟩⟩]
  keywords := [
    { referenceName := "_A" }, { referenceName := "_B" },
    { referenceName := "_C", kind := .enum, entries := [⟨"Low", "LOW"⟩, ⟨"High", "HIGH"⟩] }]

/-- A generation that allows four permutations, without targets and templates. -/
def crowded : Generator :=
  ⟨crowdedGraph, ⟨[]⟩, default, { Config.default with variantLimit := 4 }, FileStore.empty.lookup⟩

theorem generate_over_limit_crowded :
    crowded.config.variantLimit < crowdedGraph.keywords.permutationCount ∧
      ∃ properties shader, collectProperties crowdedGraph .final ["tex", "out"] = .ok properties ∧
        crowded.generate "out" .final = .ok shader ∧
        shader.source = Text.joinLines (crowded.limitedLines properties) ∧
        shader.textures = textures properties := by
  have hlimit : crowded.config.variantLimit < crowdedGraph.keywords.permutationCount := by decide
  have hknown : ∀ id ∈ ["tex", "out"], ∃ o, crowdedGraph.operation id = .ok o := fun id hid =>
    Outcome.exists_of_isOk ((by decide : ∀ id ∈ ["tex", "out"],
      (crowdedGraph.operation id).isOk = true) id hid)
  obtain ⟨properties, shader, hproperties, hgenerate, hsource, -, htextures, -⟩ :=
    generate_over_limit.2 crowded "out" .final ["tex", "out"] (by decide +kernel) hknown hlimit
  exact ⟨hlimit, properties, shader, hproperties, hgenerate, hsource, htextures⟩

end Generator
end MaterialShader
