/-!
# Value types

The shader values that nodes exchange are floats and vectors of two to four
floats, ordered by width.

## Main definitions

* `ValueType` — the four types.
* `ValueType.width`, `ValueType.ofWidth` — their widths.
* `ValueType.name` — their names in the shading language.
* `ValueType.wider` — the wider of two.
-/

namespace MaterialShader
namespace Shading

/-- The type of a shader value. -/
inductive ValueType where
  | float : ValueType
  | float2 : ValueType
  | float3 : ValueType
  | float4 : ValueType
  deriving DecidableEq, Repr, Inhabited

namespace ValueType

/-- How many floats a value of the type holds. -/
def width : ValueType → Nat
  | .float => 1
  | .float2 => 2
  | .float3 => 3
  | .float4 => 4

/-- The type that holds `n` floats, or the nearest there is. -/
def ofWidth : Nat → ValueType
  | 0 => .float
  | 1 => .float
  | 2 => .float2
  | 3 => .float3
  | _ => .float4

@[simp] theorem ofWidth_width (t : ValueType) : ofWidth t.width = t := by cases t <;> rfl

theorem width_pos (t : ValueType) : 0 < t.width := by cases t <;> decide

theorem width_le (t : ValueType) : t.width ≤ 4 := by cases t <;> decide

/-- The name of the type. -/
def name : ValueType → String
  | .float => "float"
  | .float2 => "float2"
  | .float3 => "float3"
  | .float4 => "float4"

/-- The wider of two types. -/
def wider (a b : ValueType) : ValueType := if a.width < b.width then b else a

@[simp] theorem width_wider (a b : ValueType) : (wider a b).width = max a.width b.width := by
  cases a <;> cases b <;> decide

end ValueType
end Shading
end MaterialShader
