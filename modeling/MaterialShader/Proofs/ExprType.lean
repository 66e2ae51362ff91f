import MaterialShader.Proofs.NodeStatement
import MaterialShader.Target.MeshStructs

/-!
# Types of expressions

The shading language converts between its types by itself: it cuts vectors off and repeats
floats, with no more than a warning.  Generated code leaves nothing to that.  The rules here
know no such conversion.  A selection has as many components as it names, each of which the
vector must have; a constructor is given exactly as many components as its type holds; and a
call takes operands of the type of its parameters.

A name may have been given several types, since nothing keeps a document from giving two nodes
names that become the same identifier.  An expression then has a type for each of them, and
where every name has one type, so has every expression.

## Main definitions

* `TypeContext` — the types of names.
* `inputType?` — the types of the inputs of a stage.
* `Expr.HasType`, `Statement.IsTyped` — the rules.
* `Statement.declarations` — the variables that a statement declares.

## Main results

* `Expr.HasType.unique` — where every name has one type, an expression has at most one.
* `Expr.HasType.coerce` — a converted expression has the type it is converted to.
-/

namespace MaterialShader
namespace Shading

/-! ### The types of names -/

/-- The types of the names that code uses. -/
structure TypeContext where
  /-- The types of local variables. -/
  locals : String → ValueType → Prop
  /-- The types of material properties. -/
  properties : String → ValueType → Prop

/-- No name has two types. -/
structure TypeContext.IsFunctional (Γ : TypeContext) : Prop where
  locals : ∀ name t u, Γ.locals name t → Γ.locals name u → t = u
  properties : ∀ name t u, Γ.properties name t → Γ.properties name u → t = u

/-- The inputs that nodes read, with their types. -/
def inputTypes : List (String × ValueType) :=
  [("uv0", .float4), ("uv1", .float4), ("uv2", .float4), ("uv3", .float4),
    ("VertexColor", .float4), ("ScreenPosition", .float4), ("TimeParameters", .float3),
    ("ObjectSpacePosition", .float3), ("WorldSpacePosition", .float3),
    ("ObjectSpaceNormal", .float3), ("WorldSpaceNormal", .float3)]

/-- The type of an input of a stage. -/
def inputType? (member : String) : Option ValueType := inputTypes.lookup member

/-- The structs of mesh passes give the inputs these types. -/
example : ∀ d ∈ MeshStructs.surfaceInputs.fields ++ MeshStructs.vertexInputs.fields,
    d.type = (inputType? d.name).map ValueType.name := by
  decide

/-! ### Components -/

/-- The place of a component in a vector. -/
def Lane.place : Lane → Nat
  | .x => 0
  | .y => 1
  | .z => 2
  | .w => 3

/-- The place of a component in a colour. -/
def Channel.place : Channel → Nat
  | .red => 0
  | .green => 1
  | .blue => 2
  | .alpha => 3

/-- The type of what a scene buffer holds. -/
def SceneBuffer.type : SceneBuffer → ValueType
  | .depth => .float
  | .color => .float3

/-! ### Expressions -/

/-- An expression has a type, without any conversion of the language's own. -/
inductive Expr.HasType (Γ : TypeContext) : Expr → ValueType → Prop where
  | «variable» {name : String} {t : ValueType} (h : Γ.locals name t) :
      HasType Γ (.variable name) t
  | property {name : String} {t : ValueType} (h : Γ.properties name t) :
      HasType Γ (.property name) t
  | input {member : String} {t : ValueType} (h : inputType? member = some t) :
      HasType Γ (.input member) t
  | constant {values : List Single} {t : ValueType} (h : values.length = t.width) :
      HasType Γ (.constant values) t
  | group {e : Expr} {t : ValueType} (h : HasType Γ e t) : HasType Γ (.group e) t
  /-- A float may be taken for a vector of one component. -/
  | lanes {e : Expr} {t u : ValueType} {selected : List Lane} (h : HasType Γ e t)
      (hplaces : ∀ l ∈ selected, l.place < t.width) (hwidth : selected.length = u.width) :
      HasType Γ (.lanes e selected) u
  | channel {e : Expr} {t : ValueType} {c : Channel} (h : HasType Γ e t)
      (hplace : c.place < t.width) : HasType Γ (.channel e c) .float
  | pad {e : Expr} {t u : ValueType} {zeros : Nat} (h : HasType Γ e t)
      (hwidth : t.width + zeros = u.width) : HasType Γ (.pad u e zeros) u
  /-- A vector is divided by a float. -/
  | quotient {a b : Expr} {t : ValueType} (ha : HasType Γ a t) (hb : HasType Γ b .float) :
      HasType Γ (.quotient a b) t
  | sample {texture : String} {uv : Expr} {explicitLevel : Bool} (h : HasType Γ uv .float2) :
      HasType Γ (.sample texture uv explicitLevel) .float4
  | scene {buffer : SceneBuffer} {uv : Expr} (h : HasType Γ uv .float2) :
      HasType Γ (.scene buffer uv) buffer.type

theorem ValueType.eq_of_width_eq {t u : ValueType} (h : t.width = u.width) : t = u := by
  rw [← ofWidth_width t, h, ofWidth_width]

theorem ValueType.name_injective : Function.Injective ValueType.name := by
  intro t u
  cases t <;> cases u <;> decide

namespace Expr.HasType

variable {Γ Δ : TypeContext} {e : Expr} {t u : ValueType}

/-- Where every name has one type, an expression has at most one. -/
theorem unique (hΓ : Γ.IsFunctional) (ht : e.HasType Γ t) (hu : e.HasType Γ u) : t = u := by
  induction ht generalizing u with
  | «variable» h =>
    cases hu with
    | «variable» h' => exact hΓ.locals _ _ _ h h'
  | property h =>
    cases hu with
    | property h' => exact hΓ.properties _ _ _ h h'
  | input h =>
    cases hu with
    | input h' => exact Option.some.inj (h.symm.trans h')
  | constant h =>
    cases hu with
    | constant h' => exact ValueType.eq_of_width_eq (h.symm.trans h')
  | group _ ih =>
    cases hu with
    | group h' => exact ih h'
  | lanes _ _ hwidth _ =>
    cases hu with
    | lanes _ _ hwidth' => exact ValueType.eq_of_width_eq (hwidth.symm.trans hwidth')
  | channel _ _ _ =>
    cases hu with
    | channel _ _ => rfl
  | pad _ _ _ =>
    cases hu with
    | pad _ _ => rfl
  | quotient _ _ iha _ =>
    cases hu with
    | quotient ha' _ => exact iha ha'
  | sample _ _ =>
    cases hu with
    | sample _ => rfl
  | scene _ _ =>
    cases hu with
    | scene _ => rfl

/-- **A converted expression has the type it is converted to.** -/
theorem coerce {v : Typed} (h : v.expr.HasType Γ v.type) (target : ValueType) :
    (v.coerce target).expr.HasType Γ target := by
  unfold Typed.coerce
  split
  · next heq =>
    rw [← heq]
    exact h
  split
  · -- a float fills every component
    next hfloat =>
    refine .lanes (.group h) (fun l hl => ?_) List.length_replicate
    rw [List.eq_of_mem_replicate hl]
    exact v.type.width_pos
  split
  · -- the components that are kept are among those of the wider vector
    next hlt =>
    refine .lanes (.group h) (fun l hl => ?_) ?_
    · have hplace : l.place < target.width := by
        revert l
        cases target <;> decide
      omega
    · have hwidth := target.width_le
      rw [List.length_take]
      exact Nat.min_eq_left hwidth
  · next hle => exact .pad h (by omega)

end Expr.HasType

/-! ### Statements -/

/-- The variables that a statement declares, with their types.  A choice declares one variable,
in each of its branches. -/
def Statement.declarations : Statement → List (String × ValueType)
  | .define type name _ => [(name, type)]
  | .declare type name => [(name, type)]
  | .call _ _ _ _ => []
  | .select type name _ => [(name, type)]

/-- The parts of a statement have the types of their places. -/
def Statement.IsTyped (Γ : TypeContext) : Statement → Prop
  | .define type name value => Γ.locals name type ∧ value.HasType Γ type
  | .declare type name => Γ.locals name type
  | .call helper left right result =>
      left.HasType Γ helper.type ∧ right.HasType Γ helper.type ∧ Γ.locals result helper.type
  | .select type name arms => Γ.locals name type ∧ ∀ a ∈ arms, a.value.HasType Γ type

end Shading
end MaterialShader
