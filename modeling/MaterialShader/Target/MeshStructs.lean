import MaterialShader.Pass.Basic

/-!
# Structs of mesh passes

The structs that the stages of a mesh pass exchange, and how their members depend on
each other: attributes come from the mesh, varyings go from the vertex stage to the
pixel stage, and the description inputs are what the graph reads.

## Main definitions

* `MeshStructs.all` — the structs.
* `MeshStructs.dependencies` — the dependencies between their members.
-/

namespace MaterialShader
namespace MeshStructs

/-- The guard of members that only instanced drawing has. -/
def instancingGuard : String := "UNITY_ANY_INSTANCING_ENABLED"

/-- An attribute that a symbol announces. -/
def meshAttribute (name type semantic symbol : String) : FieldDescriptor :=
  { tag := "Attributes", name := name, type := some type, semantic := some semantic,
    define := some symbol }

/-- A varying that a symbol announces and that is packed. -/
def varying (name type symbol : String) : FieldDescriptor :=
  { tag := "Varyings", name := name, type := some type, define := some symbol }

/-- The instance id, as a member of a struct. -/
def instanceId (tag semantic : String) : FieldDescriptor :=
  { tag := tag, name := "instanceID", type := some "uint", semantic := some semantic,
    preprocessor := some instancingGuard }

/-- A struct of description inputs, with the names and types of its members. -/
def inputs (tag : String) (members : List (String × String)) : StructDescriptor :=
  { name := tag, fields := members.map fun m => { tag := tag, name := m.1, type := some m.2 } }

/-- What the vertex stage gets from the mesh. -/
def attributes : StructDescriptor :=
  { name := "Attributes"
    fields := [
      meshAttribute "positionOS" "float3" "POSITION" "ATTRIBUTES_NEED_POSITION",
      meshAttribute "normalOS" "float3" "NORMAL" "ATTRIBUTES_NEED_NORMAL",
      meshAttribute "uv0" "float4" "TEXCOORD0" "ATTRIBUTES_NEED_TEXCOORD0",
      meshAttribute "uv1" "float4" "TEXCOORD1" "ATTRIBUTES_NEED_TEXCOORD1",
      meshAttribute "color" "float4" "COLOR" "ATTRIBUTES_NEED_COLOR",
      instanceId "Attributes" "INSTANCEID_SEMANTIC"] }

/-- What the pixel stage gets from the vertex stage. -/
def varyings : StructDescriptor :=
  { name := "Varyings"
    packFields := true
    fields := [
      { tag := "Varyings", name := "positionCS", type := some "float4",
        semantic := some "SV_POSITION" },
      varying "positionWS" "float3" "VARYINGS_NEED_POSITION_WS",
      varying "normalWS" "float3" "VARYINGS_NEED_NORMAL_WS",
      varying "texCoord0" "float4" "VARYINGS_NEED_TEXCOORD0",
      varying "texCoord1" "float4" "VARYINGS_NEED_TEXCOORD1",
      varying "color" "float4" "VARYINGS_NEED_COLOR",
      varying "screenPosition" "float4" "VARYINGS_NEED_SCREENPOSITION",
      instanceId "Varyings" "CUSTOM_INSTANCE_ID",
      { tag := "Varyings", name := "cullFace", type := some "FRONT_FACE_TYPE",
        semantic := some "FRONT_FACE_SEMANTIC", define := some "VARYINGS_NEED_CULLFACE",
        preprocessor := some "defined(SHADER_STAGE_FRAGMENT)" }] }

/-- What the graph reads in the pixel stage. -/
def surfaceInputs : StructDescriptor :=
  inputs "SurfaceDescriptionInputs"
    [("ObjectSpaceNormal", "float3"), ("WorldSpaceNormal", "float3"),
      ("ObjectSpacePosition", "float3"), ("WorldSpacePosition", "float3"),
      ("ScreenPosition", "float4"), ("uv0", "float4"), ("uv1", "float4"),
      ("VertexColor", "float4"), ("TimeParameters", "float3")]

/-- What the graph reads in the vertex stage. -/
def vertexInputs : StructDescriptor :=
  inputs "VertexDescriptionInputs"
    [("ObjectSpaceNormal", "float3"), ("WorldSpaceNormal", "float3"),
      ("ObjectSpacePosition", "float3"), ("WorldSpacePosition", "float3"),
      ("uv0", "float4"), ("uv1", "float4"), ("VertexColor", "float4"),
      ("TimeParameters", "float3")]

/-- The structs of a mesh pass. -/
def all : List StructDescriptor := [attributes, varyings, surfaceInputs, vertexInputs]

/-- The dependency between two fields given by tag and name. -/
def needs (tag name onTag onName : String) : FieldDependency :=
  ⟨.ofTag tag name, .ofTag onTag onName⟩

/-- The dependencies between the members of the structs. -/
def dependencies : List FieldDependency := [
  needs "Varyings" "positionWS" "Attributes" "positionOS",
  needs "Varyings" "normalWS" "Attributes" "normalOS",
  needs "Varyings" "texCoord0" "Attributes" "uv0",
  needs "Varyings" "texCoord1" "Attributes" "uv1",
  needs "Varyings" "color" "Attributes" "color",
  needs "Varyings" "screenPosition" "Varyings" "positionWS",
  needs "SurfaceDescriptionInputs" "WorldSpaceNormal" "Varyings" "normalWS",
  needs "SurfaceDescriptionInputs" "ObjectSpaceNormal"
    "SurfaceDescriptionInputs" "WorldSpaceNormal",
  needs "SurfaceDescriptionInputs" "WorldSpacePosition" "Varyings" "positionWS",
  needs "SurfaceDescriptionInputs" "ObjectSpacePosition"
    "SurfaceDescriptionInputs" "WorldSpacePosition",
  needs "SurfaceDescriptionInputs" "ScreenPosition" "Varyings" "screenPosition",
  needs "SurfaceDescriptionInputs" "uv0" "Varyings" "texCoord0",
  needs "SurfaceDescriptionInputs" "uv1" "Varyings" "texCoord1",
  needs "SurfaceDescriptionInputs" "VertexColor" "Varyings" "color",
  needs "VertexDescriptionInputs" "ObjectSpaceNormal" "Attributes" "normalOS",
  needs "VertexDescriptionInputs" "WorldSpaceNormal" "Attributes" "normalOS",
  needs "VertexDescriptionInputs" "ObjectSpacePosition" "Attributes" "positionOS",
  needs "VertexDescriptionInputs" "WorldSpacePosition" "Attributes" "positionOS",
  needs "VertexDescriptionInputs" "uv0" "Attributes" "uv0",
  needs "VertexDescriptionInputs" "uv1" "Attributes" "uv1",
  needs "VertexDescriptionInputs" "VertexColor" "Attributes" "color"]

end MeshStructs
end MaterialShader
