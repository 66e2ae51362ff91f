import MaterialShader.Node.Kind
import MaterialShader.Property
import MaterialShader.Stage.Basic

/-!
# Constants and textures

The values that nodes hold themselves, and the material properties behind them.  A
constant is read from a property if its node names one.  In a preview every other
constant is read from a hidden property, so that it can be changed without
generating the shader again.  A texture always is a property.

## Main definitions

* `Operation.constant?` — the value of a constant.
* `Operation.backingProperty?` — the property behind a constant.
* `Operation.property?` — the property behind a constant or a texture.
-/

namespace MaterialShader

/-! ### Constants -/

/-- White, fully opaque. -/
def defaultColor : List Single := List.replicate 4 (.ofNat 1)

/-- The zero vector. -/
def defaultVector : List Single := List.replicate 4 (.ofNat 0)

namespace Operation

/-- The value of a constant, as the default of a property. -/
def constant? (o : Operation) : Option PropertyValue :=
  match o.kind with
  | .float => some (.float ((o.node.params.single? "value").getD (.ofNat 0)))
  | .color => some (.color (o.node.params.vector "value" defaultColor))
  | .vector => some (.vector (o.node.params.vector "value" defaultVector))
  | _ => none

/-- The name of the hidden property behind a constant. -/
def hiddenPropertyName (n : Node) : String :=
  "_" ++ Text.identifier n.type ++ "_" ++ Text.identifier n.id

/-- The property that a node names, with the value of its constant. -/
def namedProperty (p : Params) (reference : String) (value : PropertyValue) : Property :=
  { Property.named reference ((p.text? "displayName").getD reference) value with
    exposed := (p.flag? "exposed").getD true
    instanced := (p.flag? "instanced").getD false }

/-- The hidden property behind a constant. -/
def hiddenProperty (n : Node) (value : PropertyValue) : Property :=
  { Property.named (hiddenPropertyName n) (hiddenPropertyName n) value with exposed := false }

/-- The property behind a constant. -/
def backingProperty? (o : Operation) (mode : Mode) : Option Property :=
  o.constant?.bind fun value =>
    match o.node.params.text? "property" with
    | some reference => some (namedProperty o.node.params reference value)
    | none => if mode.isPreview then some (hiddenProperty o.node value) else none

end Operation

/-! ### Textures -/

/-- The name of the property of a texture. -/
def Node.textureName (n : Node) : String :=
  Text.identifier ((n.params.text? "texture").getD "_MainTex")

/-- The property of a texture. -/
def Node.textureProperty (n : Node) : Property :=
  { Property.named n.textureName ((n.params.text? "displayName").getD n.textureName)
      (.texture ((n.params.text? "defaultTexture").getD "white")) with
    exposed := (n.params.flag? "exposed").getD true }

/-- The property behind a node. -/
def Operation.property? (o : Operation) (mode : Mode) : Option Property :=
  match o.kind with
  | .sampleTexture => some o.node.textureProperty
  | _ => o.backingProperty? mode

/-- Collected properties with the one behind a node. -/
def Operation.collectProperty (o : Operation) (mode : Mode) (properties : List Property) :
    List Property :=
  match o.property? mode with
  | some p => addProperty properties p
  | none => properties

end MaterialShader
