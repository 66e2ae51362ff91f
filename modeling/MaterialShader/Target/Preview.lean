import MaterialShader.Target.Basic
import MaterialShader.Target.MeshStructs

/-!
# The preview target

The target for an output that is not the master node: one unlit pass that shows the
value of the node.

## Main definitions

* `Preview.target` — the target.
-/

namespace MaterialShader
namespace Preview

/-- The library of shader graphs. -/
def graphLibrary : String := "Packages/com.unity.shadergraph/ShaderGraphLibrary/"

/-- The pass that shows the value of a node. -/
def pass : Pass :=
  { referenceName := "SHADERPASS_PREVIEW"
    displayName := "Preview"
    template := "Preview.template"
    shaderPass := some "SHADERPASS_PREVIEW"
    requiredFields := [
      .ofTag "Attributes" "positionOS", .ofTag "Attributes" "normalOS",
      .ofTag "Varyings" "positionCS", .ofTag "Varyings" "positionWS",
      .ofTag "Varyings" "normalWS"]
    pixelSlots := ["Out"]
    renderStates := [
      { kind := .cull, value := "Back" }, { kind := .blend, value := "One Zero" },
      { kind := .zTest, value := "LEqual" }, { kind := .zWrite, value := "On" }]
    pragmas := [
      { value := "target 3.0" }, { value := "vertex vert" }, { value := "fragment frag" }]
    includes := [
      { path := "Packages/com.unity.render-pipelines.core/ShaderLibrary/Common.hlsl" },
      { path := graphLibrary ++ "Functions.hlsl" },
      { path := graphLibrary ++ "ShaderVariablesFunctions.hlsl" }] }

/-- The target. -/
def target : Target :=
  { name := "Preview"
    dependencies := [⟨"assets/targets/preview.json"⟩]
    subShader :=
      { tags := [⟨"RenderType", "Opaque"⟩, ⟨"Queue", "Geometry"⟩]
        structs := MeshStructs.all
        fieldDependencies := MeshStructs.dependencies
        passes := [pass] } }

end Preview
end MaterialShader
