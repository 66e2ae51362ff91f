import MaterialShader.Pass.Section

/-!
# Structs of a pass

A struct has the members whose fields are active.  A member that is active in some
permutations only stands in a branch, and so does one with a preprocessor condition
of its own.

## Main definitions

* `resolvePrecision` — a type with its precision filled in.
* `FieldDescriptor.declaration` — the line of a member.
* `Code.guardedBy` — a line under a preprocessor condition.
* `StructDescriptor.code`, `structText` — the structs.
* `fieldDefineText`, `fieldDefineSection` — the symbols of active members.
-/

namespace MaterialShader

/-- A text in which every placeholder for the precision is replaced by the full
one. -/
def resolvePrecisionChars : List Char → List Char
  | '$' :: 'p' :: 'r' :: 'e' :: 'c' :: 'i' :: 's' :: 'i' :: 'o' :: 'n' :: rest =>
      "float".toList ++ resolvePrecisionChars rest
  | c :: rest => c :: resolvePrecisionChars rest
  | [] => []

/-- A type with its precision filled in. -/
def resolvePrecision (type : String) : String := String.ofList (resolvePrecisionChars type.toList)

/-- The line of a member; without a type it is a vector of four floats. -/
def FieldDescriptor.declaration (d : FieldDescriptor) : String :=
  let type := resolvePrecision (d.type.getD "float4")
  match d.semantic with
  | some semantic => type ++ " " ++ d.name ++ " : " ++ semantic ++ ";"
  | none => type ++ " " ++ d.name ++ ";"

/-- A line, under a preprocessor condition if there is one. -/
def Code.guardedBy (condition : Option String) (line : String) : List Code :=
  match condition with
  | some text => Code.guarded (.verbatim text) [.line line]
  | none => [.line line]

/-- The text of a member under its own condition. -/
def FieldDescriptor.memberText (d : FieldDescriptor) : String :=
  Code.text (Code.guardedBy d.preprocessor d.declaration)

/-- The code of a member with an activity. -/
def FieldDescriptor.memberCode (d : FieldDescriptor) (activity : Activity) : List Code :=
  match activity with
  | .always => [.lines d.memberText]
  | .permutations indices =>
      [.lines (Code.text (Code.whereActive (.permutations indices) d.memberText))]
  | .never => []

/-- The code of a struct. -/
def StructDescriptor.code (s : StructDescriptor) (a : ActiveFields) : List Code :=
  [.line ("struct " ++ s.name),
    .nested .declaration (s.fields.flatMap fun d => d.memberCode (a.activity d.field))]

/-- Texts with an empty line between them. -/
def paragraphs (texts : List String) : String := "\n\n".intercalate texts

/-- The section of structs. -/
def structText (structs : List StructDescriptor) (a : ActiveFields) : String :=
  orNone (paragraphs (structs.map fun s => Code.text (s.code a)))

/-- The code that defines the symbols of active members. -/
def fieldDefineCode (structs : List StructDescriptor) (a : ActiveFields) : List Code :=
  (structs.flatMap (·.fields)).flatMap fun d =>
    match d.define with
    | some symbol => Code.whereActive (a.activity d.field) ("#define " ++ symbol)
    | none => []

/-- The symbols of active members as a section. -/
def fieldDefineText (structs : List StructDescriptor) (a : ActiveFields) : String :=
  codeOrNone (fieldDefineCode structs a)

/-- The section of the symbols of features and members. -/
def fieldDefineSection (structs : List StructDescriptor) (a : ActiveFields) : String :=
  let members := fieldDefineText structs a
  linesOrNone (featureLines a ++ if members = nonePlaceholder then [] else [members])

end MaterialShader
