import MaterialShader.Json.Record
import MaterialShader.Pass.Basic

/-!
# Passes in documents

## Main definitions

* `Pass.ofJson?` — a pass.
* `StructDescriptor.listOfJson?` — a list of structs.
-/

namespace MaterialShader

open Json (Record)

/-- A field, by its full name. -/
def Field.ofJson? (j : Json) : Option Field := j.text?.map Field.mk

/-- A condition on a field. -/
def FieldCondition.ofJson? (j : Json) : Option FieldCondition := do
  let r ← Record.read? ["field", "value"] j
  return {
    field := ← r.required? "field" Field.ofJson?
    expected := ← r.withDefault? "value" Json.bool? true }

/-- The conditions of a record, none where they are left out. -/
def FieldCondition.listIn? (r : Record) : Option (List FieldCondition) :=
  r.withDefault? "conditions" (Json.listOf? FieldCondition.ofJson?) []

/-- A dependency between fields. -/
def FieldDependency.ofJson? (j : Json) : Option FieldDependency := do
  let r ← Record.read? ["field", "dependsOn"] j
  return {
    field := ← r.required? "field" Field.ofJson?
    dependsOn := ← r.required? "dependsOn" Field.ofJson? }

/-- The dependencies of a record, none where they are left out. -/
def FieldDependency.listIn? (r : Record) : Option (List FieldDependency) :=
  r.withDefault? "fieldDependencies" (Json.listOf? FieldDependency.ofJson?) []

/-- A member of a struct. -/
def FieldDescriptor.ofJson? (j : Json) : Option FieldDescriptor := do
  let r ← Record.read? ["tag", "name", "type", "semantic", "define", "preprocessor"] j
  return {
    tag := ← r.required? "tag" Json.text?
    name := ← r.required? "name" Json.text?
    type := ← r.optionalAnywhere? "type" Json.text?
    semantic := ← r.optionalAnywhere? "semantic" Json.text?
    define := ← r.optionalAnywhere? "define" Json.text?
    preprocessor := ← r.optionalAnywhere? "preprocessor" Json.text? }

/-- A kind of render state by name. -/
def RenderStateKind.ofJson? : Json → Option RenderStateKind :=
  Json.choice?
    [("Cull", .cull), ("Blend", .blend), ("BlendOp", .blendOp), ("ZTest", .zTest),
      ("ZWrite", .zWrite), ("ZClip", .zClip), ("ColorMask", .colorMask),
      ("AlphaToMask", .alphaToMask)]

/-- A render state. -/
def RenderState.ofJson? (j : Json) : Option RenderState := do
  let r ← Record.read? ["type", "value", "conditions"] j
  return {
    kind := ← r.required? "type" RenderStateKind.ofJson?
    value := ← r.required? "value" Json.text?
    conditions := ← FieldCondition.listIn? r }

/-- A pragma or a definition. -/
def ConditionalLine.ofJson? (j : Json) : Option ConditionalLine := do
  let r ← Record.read? ["value", "conditions"] j
  return {
    value := ← r.required? "value" Json.text?
    conditions := ← FieldCondition.listIn? r }

/-- A place for includes by name. -/
def IncludeLocation.ofJson? : Json → Option IncludeLocation :=
  Json.choice? [("pregraph", .pregraph), ("postgraph", .postgraph)]

/-- An include. -/
def Include.ofJson? (j : Json) : Option Include := do
  let r ← Record.read? ["path", "location", "conditions"] j
  return {
    path := ← r.required? "path" Json.text?
    location := ← r.withDefault? "location" IncludeLocation.ofJson? .pregraph
    conditions := ← FieldCondition.listIn? r }

/-- A keyword of a pass. -/
def PassKeyword.ofJson? (j : Json) : Option PassKeyword := do
  let r ← Record.read? ["declaration", "conditions"] j
  return {
    declaration := ← r.required? "declaration" Json.text?
    conditions := ← FieldCondition.listIn? r }

/-- A struct. -/
def StructDescriptor.ofJson? (j : Json) : Option StructDescriptor := do
  let r ← Record.read? ["name", "packFields", "fields"] j
  return {
    name := ← r.required? "name" Json.text?
    packFields := ← r.withDefault? "packFields" Json.bool? false
    fields := ← r.required? "fields" (Json.listOf? FieldDescriptor.ofJson?) }

/-- A list of structs. -/
def StructDescriptor.listOfJson? : Json → Option (List StructDescriptor) :=
  Json.listOf? StructDescriptor.ofJson?

/-- The members of a pass, in their declared order. -/
def Pass.memberNames : List String :=
  ["referenceName", "displayName", "lightMode", "template", "shaderPass", "requiredFields",
    "fieldDependencies", "vertexSlots", "pixelSlots", "renderStates", "pragmas", "includes",
    "keywords", "defines", "structs", "generatesPreview", "conditions"]

/-- A pass. -/
def Pass.ofJson? (j : Json) : Option Pass := do
  let r ← Record.read? Pass.memberNames j
  return {
    referenceName := ← r.required? "referenceName" Json.text?
    displayName := ← r.required? "displayName" Json.text?
    lightMode := ← r.optionalAnywhere? "lightMode" Json.text?
    template := ← r.required? "template" Json.text?
    shaderPass := ← r.optionalAnywhere? "shaderPass" Json.text?
    requiredFields := ← r.withDefault? "requiredFields" (Json.listOf? Field.ofJson?) []
    fieldDependencies := ← FieldDependency.listIn? r
    vertexSlots := ← r.withDefault? "vertexSlots" (Json.listOf? Json.text?) []
    pixelSlots := ← r.withDefault? "pixelSlots" (Json.listOf? Json.text?) []
    renderStates := ← r.withDefault? "renderStates" (Json.listOf? RenderState.ofJson?) []
    pragmas := ← r.withDefault? "pragmas" (Json.listOf? ConditionalLine.ofJson?) []
    includes := ← r.withDefault? "includes" (Json.listOf? Include.ofJson?) []
    keywords := ← r.withDefault? "keywords" (Json.listOf? PassKeyword.ofJson?) []
    defines := ← r.withDefault? "defines" (Json.listOf? ConditionalLine.ofJson?) []
    structs := ← r.withDefault? "structs" StructDescriptor.listOfJson? []
    generatesPreview := ← r.withDefault? "generatesPreview" Json.bool? true
    conditions := ← FieldCondition.listIn? r }

end MaterialShader
