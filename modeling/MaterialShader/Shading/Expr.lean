import MaterialShader.Shading.ValueType
import MaterialShader.Number.Single

/-!
# Expressions

The expressions that generated code is made of, as trees.  Their text is made in
one place, so that what a piece of code reads and what type it has can be asked of
the tree.

## Main definitions

* `Lane`, `Channel` — the components of a vector.
* `Expr`, `Expr.text` — expressions and their text.
* `Typed`, `Typed.coerce` — an expression with its type, and its conversion to
  another type.
-/

namespace MaterialShader
namespace Shading

/-! ### Components -/

/-- A component of a vector. -/
inductive Lane where
  | x : Lane
  | y : Lane
  | z : Lane
  | w : Lane
  deriving DecidableEq, Repr, Inhabited

/-- The components in order. -/
def Lane.all : List Lane := [.x, .y, .z, .w]

/-- The letter of a component. -/
def Lane.letter : Lane → Char
  | .x => 'x'
  | .y => 'y'
  | .z => 'z'
  | .w => 'w'

/-- The selection of components after a point. -/
def Lane.selection (lanes : List Lane) : String := String.ofList (lanes.map Lane.letter)

/-- A component of a colour. -/
inductive Channel where
  | red : Channel
  | green : Channel
  | blue : Channel
  /-- Opacity. -/
  | alpha : Channel
  deriving DecidableEq, Repr, Inhabited

/-- The components of a colour in order. -/
def Channel.all : List Channel := [.red, .green, .blue, .alpha]

/-- The letter that selects a component of a colour. -/
def Channel.letter : Channel → String
  | .red => "r"
  | .green => "g"
  | .blue => "b"
  | .alpha => "a"

/-! ### Constants -/

/-- The text of a constant vector: one number alone, or a constructor. -/
def constantText (values : List Single) : String :=
  match ValueType.ofWidth values.length with
  | .float => ((values.head?.map Single.literal).getD (Single.ofNat 0).literal)
  | t => t.name ++ "(" ++ ", ".intercalate (values.map Single.literal) ++ ")"

/-! ### Expressions -/

/-- Which scene buffer is read. -/
inductive SceneBuffer where
  | depth : SceneBuffer
  | color : SceneBuffer
  deriving DecidableEq, Repr, Inhabited

/-- The macro that reads a scene buffer. -/
def SceneBuffer.sampler : SceneBuffer → String
  | .depth => "SHADERGRAPH_SAMPLE_SCENE_DEPTH"
  | .color => "SHADERGRAPH_SAMPLE_SCENE_COLOR"

/-- An expression. -/
inductive Expr where
  /-- A local variable. -/
  | variable (name : String) : Expr
  /-- A material property. -/
  | property (name : String) : Expr
  /-- A member of the description inputs. -/
  | input (member : String) : Expr
  | constant (values : List Single) : Expr
  /-- An expression in parentheses. -/
  | group (e : Expr) : Expr
  /-- Components of a vector. -/
  | lanes (e : Expr) (selected : List Lane) : Expr
  /-- One component of a colour. -/
  | channel (e : Expr) (selected : Channel) : Expr
  /-- A vector filled up with zeros to a type. -/
  | pad (type : ValueType) (e : Expr) (zeros : Nat) : Expr
  | quotient (a b : Expr) : Expr
  /-- A texture read at a coordinate; with an explicit level of detail where there
  are no derivatives. -/
  | sample (texture : String) (uv : Expr) (explicitLevel : Bool) : Expr
  /-- A scene buffer read at a coordinate. -/
  | scene (buffer : SceneBuffer) (uv : Expr) : Expr
  deriving DecidableEq, Repr, Inhabited

/-- The text of an expression. -/
def Expr.text : Expr → String
  | .variable name => name
  | .property name => name
  | .input member => "IN." ++ member
  | .constant values => constantText values
  | .group e => "(" ++ e.text ++ ")"
  | .lanes e selected => e.text ++ "." ++ Lane.selection selected
  | .channel e selected => e.text ++ "." ++ selected.letter
  | .pad type e zeros =>
      type.name ++ "(" ++ ", ".intercalate (e.text :: List.replicate zeros "0") ++ ")"
  | .quotient a b => a.text ++ " / " ++ b.text
  | .sample texture uv false =>
      "SAMPLE_TEXTURE2D(" ++ texture ++ ", sampler" ++ texture ++ ", " ++ uv.text ++ ")"
  | .sample texture uv true =>
      "SAMPLE_TEXTURE2D_LOD(" ++ texture ++ ", sampler" ++ texture ++ ", " ++ uv.text ++ ", 0)"
  | .scene buffer uv => buffer.sampler ++ "(" ++ uv.text ++ ")"

/-! ### Conversion between types -/

/-- An expression with its type. -/
structure Typed where
  type : ValueType
  expr : Expr
  deriving DecidableEq, Repr, Inhabited

/-- The expression converted to another type: a float fills every component, a
wider vector loses its last components, and a narrower one is filled up with
zeros. -/
def Typed.coerce (v : Typed) (target : ValueType) : Typed :=
  if v.type = target then v
  else if v.type = .float then
    ⟨target, .lanes (.group v.expr) (List.replicate target.width .x)⟩
  else if target.width < v.type.width then
    ⟨target, .lanes (.group v.expr) (Lane.all.take target.width)⟩
  else ⟨target, .pad target v.expr (target.width - v.type.width)⟩

@[simp] theorem Typed.type_coerce (v : Typed) (target : ValueType) :
    (v.coerce target).type = target := by
  unfold Typed.coerce
  split
  · assumption
  · split
    · rfl
    · split <;> rfl

end Shading
end MaterialShader
