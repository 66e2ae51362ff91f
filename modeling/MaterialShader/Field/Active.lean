import MaterialShader.Field.Basic

/-!
# Active fields

The fields that are active in one pass: a base set, and one set for each keyword
permutation on top of it.  What is in the base is active everywhere.

## Main definitions

* `ActiveFields` — the sets.
* `ActiveFields.base`, `ActiveFields.instance?`, `ActiveFields.permutationInstances`
  — the fields of the base and of a permutation.
* `Activity`, `ActiveFields.activity`, `ActiveFields.conditionActivity` — where a
  field is active and where conditions hold.
* `ActiveFields.propagate` — closure under dependencies.
-/

namespace MaterialShader

/-- The base set and the sets of the permutations. -/
structure ActiveFields where
  /-- The fields active everywhere. -/
  base : List Field
  /-- The further fields of each permutation. -/
  permutations : List (List Field)
  deriving DecidableEq, Repr, Inhabited

/-- The fields of the base, or of one permutation. -/
structure FieldInstance where
  /-- The permutation; the base is none. -/
  permutation : Option Nat
  /-- The fields active in it. -/
  fields : List Field
  deriving DecidableEq, Repr, Inhabited

/-- Where something is active. -/
inductive Activity where
  /-- In every permutation. -/
  | always : Activity
  /-- In some permutations, but not in all. -/
  | permutations (indices : List Nat) : Activity
  /-- In none. -/
  | never : Activity
  deriving DecidableEq, Repr, Inhabited

/-- The activity of what is active in the given ones of `count` permutations. -/
def Activity.ofIndices (indices : List Nat) (count : Nat) : Activity :=
  if indices.isEmpty then .never
  else if indices.length = count then .always
  else .permutations indices

namespace ActiveFields

/-! ### Construction -/

/-- No fields, for a number of permutations.  A single permutation needs no set of
its own. -/
def new (permutationCount : Nat) : ActiveFields :=
  ⟨[], if 1 < permutationCount then List.replicate permutationCount [] else []⟩

/-- The number of permutations that have a set of their own. -/
def permutationCount (a : ActiveFields) : Nat := a.permutations.length

/-- The fields with more of them in the base. -/
def addToBase (a : ActiveFields) (fields : List Field) : ActiveFields :=
  { a with base := addFields a.base fields }

/-- The fields with one more in a permutation, unless the base has it. -/
def addToPermutation (a : ActiveFields) (index : Nat) (f : Field) : ActiveFields :=
  if f ∈ a.base then a
  else { a with permutations := a.permutations.modify index fun own => addField own f }

/-! ### Instances -/

/-- The base by itself. -/
def baseInstance (a : ActiveFields) : FieldInstance := ⟨none, a.base⟩

/-- A permutation on top of the base. -/
def instance? (a : ActiveFields) (index : Nat) : Option FieldInstance :=
  a.permutations[index]?.map fun own => ⟨some index, a.base ++ own⟩

/-- The permutations on top of the base, in order. -/
def layered (a : ActiveFields) : List FieldInstance :=
  a.permutations.mapIdx fun index own => ⟨some index, a.base ++ own⟩

/-- The instances that code is generated for: the permutations, or the base where
there are none. -/
def permutationInstances (a : ActiveFields) : List FieldInstance :=
  if a.permutations.isEmpty then [a.baseInstance] else a.layered

/-- The base and the permutations. -/
def allInstances (a : ActiveFields) : List FieldInstance := a.baseInstance :: a.layered

/-! ### Activity -/

/-- The permutations in which a field is active by their own sets. -/
def permutationsContaining (a : ActiveFields) (f : Field) : List Nat :=
  if f ∈ a.base then []
  else
    (a.permutations.mapIdx fun index own => (index, own)).filterMap fun p =>
      if f ∈ p.2 then some p.1 else none

/-- Where a field is active. -/
def activity (a : ActiveFields) (f : Field) : Activity :=
  if f ∈ a.base then .always
  else .ofIndices (a.permutationsContaining f) a.permutationCount

/-- Where conditions hold. -/
def conditionActivity (a : ActiveFields) (conditions : List FieldCondition) : Activity :=
  if conditions.isEmpty then .always
  else if a.permutations.isEmpty then
    if FieldCondition.allHold conditions a.base then .always else .never
  else
    .ofIndices
      ((a.layered.filter fun i => FieldCondition.allHold conditions i.fields).filterMap
        (·.permutation))
      a.permutationCount

/-! ### Closure -/

/-- One pass over the dependencies: each one whose field is active adds the field it
depends on.  Fields in `under` count as active and are not added. -/
def sweep (under : List Field) (dependencies : List FieldDependency) (own : List Field) :
    List Field :=
  dependencies.foldl
    (fun own d =>
      if (d.field ∈ under ∨ d.field ∈ own) ∧ ¬(d.dependsOn ∈ under ∨ d.dependsOn ∈ own) then
        own ++ [d.dependsOn]
      else own)
    own

/-- Passes over the dependencies until one adds nothing, at most `passes` of them. -/
def closeWithin (under : List Field) (dependencies : List FieldDependency) :
    Nat → List Field → List Field
  | 0, own => own
  | passes + 1, own =>
      -- a pass only adds at the end, so one of the same length has added nothing
      let next := sweep under dependencies own
      if next.length = own.length then own else closeWithin under dependencies passes next

/-- The set closed under dependencies on top of another set.  Every pass but the
last adds a field that some dependency names, so one pass for each dependency is
enough. -/
def close (under : List Field) (dependencies : List FieldDependency) (own : List Field) :
    List Field :=
  closeWithin under dependencies (dependencies.length + 1) own

/-- The base closed under dependencies, and each permutation on top of it. -/
def propagate (a : ActiveFields) (dependencies : List FieldDependency) : ActiveFields :=
  let base := close [] dependencies a.base
  ⟨base, a.permutations.map (close base dependencies)⟩

/-! ### Listing -/

/-- The fields as lines of text, each set under a heading. -/
def describe (a : ActiveFields) : List String :=
  let entries (fields : List Field) := fields.map fun f => "    " ++ f.key
  ("Active fields (base):" :: entries a.base) ++
    (a.permutations.mapIdx fun index own =>
      ("Active fields (permutation " ++ toString index ++ "):") :: entries own).flatten

end ActiveFields
end MaterialShader
