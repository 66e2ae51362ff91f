/-!
# Fields

A field is a capability with a name of the form `Tag.name`: a feature of the
graph, a kind of surface, or a member of one of the shader's structs.  Sets of
fields keep the order in which fields were added.

## Main definitions

* `Field` — a field, and the ones the generator itself switches on.
* `addField`, `addFields` — adding to a set.
* `FieldCondition`, `FieldDependency`, `FieldDescriptor` — what passes say about
  fields.
-/

namespace MaterialShader

/-- A field, by its full name. -/
structure Field where
  /-- The name, `Tag.name`. -/
  key : String
  deriving DecidableEq, Repr, Inhabited

namespace Field

/-- The field with a tag and a name. -/
def ofTag (tag name : String) : Field := ⟨tag ++ "." ++ name⟩

/-- The pixel stage evaluates the graph. -/
def graphPixel : Field := ⟨"features.graphPixel"⟩

/-- The vertex stage evaluates the graph. -/
def graphVertex : Field := ⟨"features.graphVertex"⟩

/-- The shader is a preview. -/
def isPreview : Field := ⟨"features.isPreview"⟩

/-- Pixels below a threshold of opacity are dropped. -/
def alphaClip : Field := ⟨"features.alphaClip"⟩

/-- Back faces are drawn. -/
def doubleSided : Field := ⟨"features.doubleSided"⟩

/-- The surface hides what lies behind it. -/
def surfaceOpaque : Field := ⟨"SurfaceType.Opaque"⟩

/-- The surface is blended with what lies behind it. -/
def surfaceTransparent : Field := ⟨"SurfaceType.Transparent"⟩

/-- The symbol that a feature defines while it is active. -/
def featureSymbol? (f : Field) : Option String :=
  if f = graphPixel then some "FEATURES_GRAPH_PIXEL"
  else if f = graphVertex then some "FEATURES_GRAPH_VERTEX"
  else if f = isPreview then some "SHADERGRAPH_PREVIEW"
  else none

end Field

/-! ### Sets of fields -/

/-- A set with one more field, at the end; a field that is there stays where it
is. -/
def addField (fields : List Field) (f : Field) : List Field :=
  if f ∈ fields then fields else fields ++ [f]

/-- A set with more fields, in order. -/
def addFields (fields : List Field) (more : List Field) : List Field := more.foldl addField fields

@[simp] theorem mem_addField {fields : List Field} {f g : Field} :
    g ∈ addField fields f ↔ g ∈ fields ∨ g = f := by
  unfold addField
  split
  · constructor
    · exact Or.inl
    · rintro (h | rfl)
      · exact h
      · assumption
  · simp

@[simp] theorem mem_addFields {fields more : List Field} {g : Field} :
    g ∈ addFields fields more ↔ g ∈ fields ∨ g ∈ more := by
  unfold addFields
  induction more generalizing fields with
  | nil => simp
  | cons f rest ih =>
    rw [List.foldl_cons, ih, mem_addField, List.mem_cons, or_assoc]

/-! ### What passes say about fields -/

/-- The condition that a field is active, or that it is not. -/
structure FieldCondition where
  field : Field
  /-- Whether it has to be active. -/
  expected : Bool := true
  deriving DecidableEq, Repr, Inhabited

/-- Every condition holds of a set of fields; without conditions that is so. -/
def FieldCondition.allHold (conditions : List FieldCondition) (fields : List Field) : Bool :=
  conditions.all fun c => decide (c.field ∈ fields) == c.expected

/-- While a field is active, so is another. -/
structure FieldDependency where
  /-- The field that needs the other. -/
  field : Field
  /-- The field it needs. -/
  dependsOn : Field
  deriving DecidableEq, Repr, Inhabited

/-- A field that is a member of a struct. -/
structure FieldDescriptor where
  /-- The tag of the field. -/
  tag : String
  /-- The name of the field and of the member. -/
  name : String
  /-- The type of the member; the precision may be left open. -/
  type : Option String := none
  /-- The semantic of the member. -/
  semantic : Option String := none
  /-- The symbol defined while the field is active. -/
  define : Option String := none
  /-- The preprocessor condition of the member. -/
  preprocessor : Option String := none
  deriving DecidableEq, Repr, Inhabited

/-- The field that a member stands for. -/
def FieldDescriptor.field (d : FieldDescriptor) : Field := .ofTag d.tag d.name

end MaterialShader
