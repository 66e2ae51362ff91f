import MaterialShader.FileStore
import MaterialShader.Text.Lines

/-!
# Shipped templates

The templates of the universal and the preview target, and the files they include.

## Main definitions

* `Shipped.files` — the files, by their paths.
-/

namespace MaterialShader
namespace Shipped

/-- A file of lines, each of them terminated. -/
def file (lines : List String) : String := Text.joinLines lines ++ "\n"

/-- The template of a pass over a mesh. -/
def passMesh : String := file [
  "Pass",
  "\x7b",
  "    $splice(PassName)",
  "    $splice(LightMode)",
  "",
  "    // Render State",
  "    $splice(RenderState)",
  "",
  "    // Debug",
  "    $splice(Debug)",
  "",
  "    HLSLPROGRAM",
  "",
  "    // Pragmas",
  "    $splice(PassPragmas)",
  "",
  "    // Keywords",
  "    $splice(PassKeywords)",
  "    $splice(GraphKeywords)",
  "",
  "    // Defines",
  "    $splice(PassDefines)",
  "    $splice(FieldDefines)",
  "    $splice(ShaderPass)",
  "    $splice(GraphDefines)",
  "",
  "    // Includes",
  "    $splice(PreGraphIncludes)",
  "",
  "    // --------------------------------------------------",
  "    // Structs and Packing",
  "",
  "    $splice(PassStructs)",
  "",
  "    $splice(InterpolatorPack)",
  "",
  "    // --------------------------------------------------",
  "    // Graph",
  "",
  "    // Graph Properties",
  "    $splice(GraphProperties)",
  "    $splice(InstancedProperties)",
  "",
  "    // Graph Functions",
  "    $splice(GraphFunctions)",
  "",
  "    // Graph Vertex",
  "    $splice(GraphVertex)",
  "",
  "    // Graph Pixel",
  "    $splice(GraphPixel)",
  "",
  "    // --------------------------------------------------",
  "    // Build Graph Inputs",
  "",
  "    $include(\"BuildVertexDescriptionInputs.template.hlsl\")",
  "    $include(\"BuildSurfaceDescriptionInputs.template.hlsl\")",
  "",
  "    // --------------------------------------------------",
  "    // Main",
  "",
  "    $splice(PostGraphIncludes)",
  "",
  "    ENDHLSL",
  "\x7d"]

/-- The template of the preview pass. -/
def preview : String := file [
  "Pass",
  "\x7b",
  "    $splice(PassName)",
  "    $splice(LightMode)",
  "",
  "    // Render State",
  "    $splice(RenderState)",
  "",
  "    HLSLPROGRAM",
  "",
  "    // Pragmas",
  "    $splice(PassPragmas)",
  "",
  "    // Keywords",
  "    $splice(GraphKeywords)",
  "",
  "    // Defines",
  "    $splice(FieldDefines)",
  "    $splice(ShaderPass)",
  "    $splice(GraphDefines)",
  "",
  "    // Includes",
  "    $splice(PreGraphIncludes)",
  "",
  "    $splice(PassStructs)",
  "",
  "    $splice(InterpolatorPack)",
  "",
  "    // Graph Properties",
  "    $splice(GraphProperties)",
  "",
  "    // Graph Functions",
  "    $splice(GraphFunctions)",
  "",
  "    // Graph Pixel",
  "    $splice(GraphPixel)",
  "",
  "    $include(\"BuildSurfaceDescriptionInputs.template.hlsl\")",
  "",
  "    $include(\"PreviewMain.template.hlsl\")",
  "",
  "    ENDHLSL",
  "\x7d"]

/-- The code that fills in the inputs of the vertex stage. -/
def vertexInputs : String := file [
  "$features.graphVertex: VertexDescriptionInputs BuildVertexDescriptionInputs(Attributes input)",
  "$features.graphVertex: \x7b",
  "$features.graphVertex:     VertexDescriptionInputs output;",
  "$features.graphVertex:     ZERO_INITIALIZE(VertexDescriptionInputs, output);",
  "$VertexDescriptionInputs.ObjectSpaceNormal:     output.ObjectSpaceNormal = input.normalOS;",
  "$VertexDescriptionInputs.WorldSpaceNormal:     output.WorldSpaceNormal = " ++
    "TransformObjectToWorldNormal(input.normalOS);",
  "$VertexDescriptionInputs.ObjectSpacePosition:     output.ObjectSpacePosition = " ++
    "input.positionOS;",
  "$VertexDescriptionInputs.WorldSpacePosition:     output.WorldSpacePosition = " ++
    "TransformObjectToWorld(input.positionOS);",
  "$VertexDescriptionInputs.uv0:     output.uv0 = input.uv0;",
  "$VertexDescriptionInputs.uv1:     output.uv1 = input.uv1;",
  "$VertexDescriptionInputs.VertexColor:     output.VertexColor = input.color;",
  "$VertexDescriptionInputs.TimeParameters:     output.TimeParameters = _TimeParameters.xyz;",
  "$features.graphVertex:     return output;",
  "$features.graphVertex: \x7d"]

/-- The code that fills in the inputs of the pixel stage. -/
def surfaceInputs : String := file [
  "SurfaceDescriptionInputs BuildSurfaceDescriptionInputs(Varyings input)",
  "\x7b",
  "    SurfaceDescriptionInputs output;",
  "    ZERO_INITIALIZE(SurfaceDescriptionInputs, output);",
  "$SurfaceDescriptionInputs.WorldSpaceNormal:     output.WorldSpaceNormal = " ++
    "normalize(input.normalWS);",
  "$SurfaceDescriptionInputs.ObjectSpaceNormal:     output.ObjectSpaceNormal = " ++
    "normalize(TransformWorldToObjectDir(input.normalWS));",
  "$SurfaceDescriptionInputs.WorldSpacePosition:     output.WorldSpacePosition = " ++
    "input.positionWS;",
  "$SurfaceDescriptionInputs.ObjectSpacePosition:     output.ObjectSpacePosition = " ++
    "TransformWorldToObject(input.positionWS);",
  "$SurfaceDescriptionInputs.ScreenPosition:     output.ScreenPosition = " ++
    "ComputeScreenPos(TransformWorldToHClip(input.positionWS), _ProjectionParams.x);",
  "$SurfaceDescriptionInputs.uv0:     output.uv0 = input.texCoord0;",
  "$SurfaceDescriptionInputs.uv1:     output.uv1 = input.texCoord1;",
  "$SurfaceDescriptionInputs.VertexColor:     output.VertexColor = input.color;",
  "$SurfaceDescriptionInputs.TimeParameters:     output.TimeParameters = _TimeParameters.xyz;",
  "    return output;",
  "\x7d"]

/-- The stages of the preview pass. -/
def previewMain : String := file [
  "PackedVaryings vert(Attributes input)",
  "\x7b",
  "    Varyings output = (Varyings)0;",
  "    output.positionCS = TransformObjectToHClip(input.positionOS);",
  "$Varyings.positionWS:     output.positionWS = TransformObjectToWorld(input.positionOS);",
  "$Varyings.normalWS:     output.normalWS = TransformObjectToWorldNormal(input.normalOS);",
  "$Varyings.texCoord0:     output.texCoord0 = input.uv0;",
  "$Varyings.texCoord1:     output.texCoord1 = input.uv1;",
  "$Varyings.color:     output.color = input.color;",
  "    return PackVaryings(output);",
  "\x7d",
  "",
  "half4 frag(PackedVaryings packedInput) : SV_TARGET",
  "\x7b",
  "    Varyings unpacked = UnpackVaryings(packedInput);",
  "    SurfaceDescriptionInputs surfaceDescriptionInputs = " ++
    "BuildSurfaceDescriptionInputs(unpacked);",
  "    SurfaceDescription surf = SurfaceDescriptionFunction(surfaceDescriptionInputs);",
  "    return surf.Out;",
  "\x7d"]

/-- The shipped files, by the names of their paths. -/
def files : List (List String × String) := [
  (["templates", "PassMesh.template"], passMesh),
  (["templates", "Preview.template"], preview),
  (["templates", "shared", "BuildVertexDescriptionInputs.template.hlsl"], vertexInputs),
  (["templates", "shared", "BuildSurfaceDescriptionInputs.template.hlsl"], surfaceInputs),
  (["templates", "shared", "PreviewMain.template.hlsl"], previewMain)]

/-- The store that holds the shipped files in its working directory. -/
def storeIn (workingDirectory : Place) : FileStore :=
  ⟨workingDirectory, files.map fun f => (workingDirectory ++ f.1, .text f.2)⟩

end Shipped
end MaterialShader
