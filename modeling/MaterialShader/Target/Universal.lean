import MaterialShader.Target.Basic
import MaterialShader.Target.MeshStructs

/-!
# The universal target

The target of the catalog that is used unless another one is given: a pass that
lights the surface, one that casts its shadow, and one that writes its depth.

## Main definitions

* `Universal.forward`, `Universal.shadowCaster`, `Universal.depthOnly` — the passes.
* `Universal.catalog` — the catalog.
-/

namespace MaterialShader
namespace Universal

/-- The library of the render pipeline's core. -/
def coreLibrary : String := "Packages/com.unity.render-pipelines.core/ShaderLibrary/"

/-- The library of the universal render pipeline. -/
def universalLibrary : String := "Packages/com.unity.render-pipelines.universal/ShaderLibrary/"

/-- The bodies of the passes of the universal render pipeline. -/
def passLibrary : String :=
  "Packages/com.unity.render-pipelines.universal/Editor/ShaderGraph/Includes/"

/-- The condition that a field is active. -/
def active (f : Field) : List FieldCondition := [{ field := f }]

/-- The pragmas of every pass. -/
def pragmas : List ConditionalLine :=
  [{ value := "target 4.5" }, { value := "multi_compile_instancing" },
    { value := "vertex vert" }, { value := "fragment frag" }]

/-- Back faces are dropped unless the material is two-sided. -/
def culling : List RenderState :=
  [{ kind := .cull, value := "Off", conditions := active .doubleSided },
    { kind := .cull, value := "Back" }]

/-- Depths are tested and written, and no colour is. -/
def depthStates : List RenderState :=
  culling ++
    [{ kind := .zTest, value := "LEqual" }, { kind := .zWrite, value := "On" },
      { kind := .colorMask, value := "0" }]

/-- The symbol of materials that drop pixels. -/
def alphaClipDefine : ConditionalLine :=
  { value := "_AlphaClip 1", conditions := active .alphaClip }

/-- An include after the code of the graph. -/
def passBody (file : String) : Include := { path := passLibrary ++ file, location := .postgraph }

/-- The includes of a pass that does not light the surface. -/
def depthIncludes (body : String) : List Include :=
  [{ path := coreLibrary ++ "Color.hlsl" }, { path := universalLibrary ++ "Core.hlsl" },
    passBody "Varyings.hlsl", passBody body]

/-- The pass that lights the surface. -/
def forward : Pass :=
  { referenceName := "SHADERPASS_FORWARD"
    displayName := "Universal Forward"
    lightMode := some "UniversalForward"
    template := "PassMesh.template"
    shaderPass := some "SHADERPASS_FORWARD"
    requiredFields := [
      .ofTag "Attributes" "positionOS", .ofTag "Varyings" "positionCS",
      .ofTag "Varyings" "positionWS", .ofTag "Varyings" "normalWS"]
    vertexSlots := ["Position", "Normal"]
    pixelSlots := ["BaseColor", "Emission", "Alpha", "AlphaClipThreshold"]
    renderStates := culling ++ [
      { kind := .blend, value := "SrcAlpha OneMinusSrcAlpha, One OneMinusSrcAlpha",
        conditions := active .surfaceTransparent },
      { kind := .blend, value := "One Zero" },
      { kind := .zTest, value := "LEqual" },
      { kind := .zWrite, value := "Off", conditions := active .surfaceTransparent },
      { kind := .zWrite, value := "On" }]
    pragmas := pragmas
    includes := [
      { path := coreLibrary ++ "Color.hlsl" },
      { path := universalLibrary ++ "Core.hlsl" },
      { path := universalLibrary ++ "Lighting.hlsl" },
      { path :=
          "Packages/com.unity.shadergraph/ShaderGraphLibrary/ShaderVariablesFunctions.hlsl" },
      passBody "Varyings.hlsl",
      passBody "PBRForwardPass.hlsl"]
    keywords := [
      { declaration :=
          "#pragma multi_compile _ _MAIN_LIGHT_SHADOWS _MAIN_LIGHT_SHADOWS_CASCADE" },
      { declaration := "#pragma multi_compile_fog" }]
    defines := [
      alphaClipDefine,
      { value := "_SURFACE_TYPE_TRANSPARENT 1", conditions := active .surfaceTransparent }] }

/-- The pass that casts the shadow. -/
def shadowCaster : Pass :=
  { referenceName := "SHADERPASS_SHADOWCASTER"
    displayName := "ShadowCaster"
    lightMode := some "ShadowCaster"
    template := "PassMesh.template"
    shaderPass := some "SHADERPASS_SHADOWCASTER"
    requiredFields := [
      .ofTag "Attributes" "positionOS", .ofTag "Attributes" "normalOS",
      .ofTag "Varyings" "positionCS", .ofTag "Varyings" "normalWS"]
    vertexSlots := ["Position", "Normal"]
    pixelSlots := ["Alpha", "AlphaClipThreshold"]
    renderStates := depthStates
    pragmas := pragmas
    includes := depthIncludes "ShadowCasterPass.hlsl"
    keywords := [
      { declaration := "#pragma multi_compile_vertex _ _CASTING_PUNCTUAL_LIGHT_SHADOW" }]
    defines := [alphaClipDefine]
    generatesPreview := false }

/-- The pass that writes the depth of opaque surfaces. -/
def depthOnly : Pass :=
  { referenceName := "SHADERPASS_DEPTHONLY"
    displayName := "DepthOnly"
    lightMode := some "DepthOnly"
    template := "PassMesh.template"
    shaderPass := some "SHADERPASS_DEPTHONLY"
    requiredFields := [.ofTag "Attributes" "positionOS", .ofTag "Varyings" "positionCS"]
    vertexSlots := ["Position", "Normal"]
    pixelSlots := ["Alpha", "AlphaClipThreshold"]
    renderStates := depthStates
    pragmas := pragmas
    includes := depthIncludes "DepthOnlyPass.hlsl"
    defines := [alphaClipDefine]
    conditions := active .surfaceOpaque }

/-- The target. -/
def target : Target :=
  { name := "Universal"
    dependencies := [⟨"assets/targets/universal.json"⟩]
    subShader :=
      { tags := [
          ⟨"RenderPipeline", "UniversalPipeline"⟩, ⟨"RenderType", "Opaque"⟩,
          ⟨"Queue", "Geometry"⟩]
        structs := MeshStructs.all
        fieldDependencies := MeshStructs.dependencies
        passes := [forward, shadowCaster, depthOnly] } }

/-- The catalog that is used unless another one is given. -/
def catalog : Catalog := ⟨[target]⟩

end Universal
end MaterialShader
