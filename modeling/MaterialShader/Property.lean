import MaterialShader.Code
import MaterialShader.Number.Single
import MaterialShader.Text.Identifier

/-!
# Material properties

The properties that nodes read from the material: numbers, colours, vectors and
textures.  They are listed in the shader's property block, and declared in the code
either in the constant buffer of the material or once per instance.

## Main definitions

* `PropertyValue`, `Property` — a property and its default.
* `addProperty` — collecting properties, the first of a name counting.
* `Property.blockLine`, `materialDeclarations`, `instancedDeclarations` — the lines
  that declare them.
* `TextureInfo`, `textures` — the textures among them.
-/

namespace MaterialShader

/-- The kind and the default of a property. -/
inductive PropertyValue where
  /-- A number. -/
  | float (value : Single) : PropertyValue
  /-- A colour of four components. -/
  | color (value : List Single) : PropertyValue
  /-- A vector of four components. -/
  | vector (value : List Single) : PropertyValue
  /-- A texture, by the name of its default. -/
  | texture (default : String) : PropertyValue
  deriving DecidableEq, Repr, Inhabited

/-- A material property. -/
structure Property where
  /-- The name in code. -/
  referenceName : String
  /-- The name shown. -/
  displayName : String
  /-- The kind and the default. -/
  value : PropertyValue
  /-- The property is shown to the user. -/
  exposed : Bool := true
  /-- The property is declared once per instance. -/
  instanced : Bool := false
  deriving DecidableEq, Repr, Inhabited

namespace PropertyValue

/-- A texture. -/
def isTexture : PropertyValue → Bool
  | .texture _ => true
  | _ => false

/-- The type a property is declared with. -/
def typeName : PropertyValue → String
  | .float _ => "float"
  | .color _ => "float4"
  | .vector _ => "float4"
  | .texture _ => "TEXTURE2D"

/-- The components of a default, as a list. -/
def componentsText (values : List Single) : String :=
  ", ".intercalate (values.map Single.literal)

end PropertyValue

namespace Property

/-- The property with a name made into an identifier. -/
def named (reference display : String) (value : PropertyValue) : Property :=
  { referenceName := Text.identifier reference, displayName := display, value := value }

/-- A texture. -/
def isTexture (p : Property) : Bool := p.value.isTexture

/-- What stands in parentheses after the name of a property. -/
def blockSignature (p : Property) (kind : String) : String :=
  p.referenceName ++ "(\"" ++ p.displayName ++ "\", " ++ kind ++ ") = "

/-- The line of a property in the property block. -/
def blockLine (p : Property) : String :=
  (if p.exposed then "" else "[HideInInspector]") ++
    match p.value with
    | .float v => p.blockSignature "Float" ++ v.literal
    | .color v => p.blockSignature "Color" ++ "(" ++ PropertyValue.componentsText v ++ ")"
    | .vector v => p.blockSignature "Vector" ++ "(" ++ PropertyValue.componentsText v ++ ")"
    | .texture default =>
        "[NoScaleOffset]" ++ p.blockSignature "2D" ++ "\"" ++ default ++ "\" \x7b\x7d"

/-- The line that declares a property in the constant buffer.  Of a texture, it is
the size that is a constant. -/
def bufferLine (p : Property) : String :=
  if p.isTexture then "float4 " ++ p.referenceName ++ "_TexelSize;"
  else p.value.typeName ++ " " ++ p.referenceName ++ ";"

/-- The lines that declare a texture and its sampler. -/
def textureLines (p : Property) : List String :=
  ["TEXTURE2D(" ++ p.referenceName ++ ");", "SAMPLER(sampler" ++ p.referenceName ++ ");"]

/-- The line that declares a property once per instance. -/
def instanceLine (p : Property) : String :=
  "    UNITY_DEFINE_INSTANCED_PROP(" ++ p.value.typeName ++ ", " ++ p.referenceName ++ ")"

/-- The line that lets code read an instanced property by its name. -/
def accessLine (p : Property) : String :=
  "#define " ++ p.referenceName ++ " UNITY_ACCESS_INSTANCED_PROP(Props, " ++ p.referenceName ++ ")"

/-- A texture is never declared once per instance. -/
def isPerInstance (p : Property) : Bool := p.instanced && !p.isTexture

end Property

/-! ### Collections -/

/-- Collected properties with one more, unless its name is taken. -/
def addProperty (properties : List Property) (p : Property) : List Property :=
  if p.referenceName ∈ properties.map (·.referenceName) then properties else properties ++ [p]

/-- The lines of the property block. -/
def propertyBlock (properties : List Property) : List String := properties.map Property.blockLine

/-- The lines that declare the properties of the material: its constant buffer, then
the textures. -/
def materialDeclarations (properties : List Property) : List String :=
  let buffered := properties.filter fun p => !p.isPerInstance
  if buffered.isEmpty then []
  else
    "CBUFFER_START(UnityPerMaterial)" :: buffered.map Property.bufferLine ++ "CBUFFER_END" ::
      (buffered.filter Property.isTexture).flatMap Property.textureLines

/-- The lines that declare the properties held once per instance. -/
def instancedDeclarations (properties : List Property) : List String :=
  let instanced := properties.filter Property.isPerInstance
  if instanced.isEmpty then []
  else
    "UNITY_INSTANCING_BUFFER_START(Props)" :: instanced.map Property.instanceLine ++
      "UNITY_INSTANCING_BUFFER_END(Props)" :: instanced.map Property.accessLine

/-- A texture that a shader binds. -/
structure TextureInfo where
  /-- The name of the property. -/
  name : String
  /-- The name of its default. -/
  defaultTexture : String
  /-- The user can change it. -/
  modifiable : Bool
  deriving DecidableEq, Repr, Inhabited

/-- The textures among properties. -/
def textures (properties : List Property) : List TextureInfo :=
  properties.filterMap fun p =>
    match p.value with
    | .texture default => some ⟨p.referenceName, default, p.exposed⟩
    | _ => none

end MaterialShader
