/-!
# Shader identifiers

Names taken from a document become parts of shader identifiers.  A character
that an identifier cannot hold is replaced by an underscore, and so is the empty
name.

## Main definitions

* `isIdentChar` — the characters an identifier may hold.
* `identifier` — the identifier made from a name.
-/

namespace MaterialShader
namespace Text

/-- An ASCII letter, an ASCII digit or the underscore. -/
def isIdentChar (c : Char) : Bool := c.isAlphanum || c == '_'

/-- The characters of `identifier`. -/
def identifierChars (name : List Char) : List Char :=
  if name.isEmpty then ['_'] else name.map fun c => if isIdentChar c then c else '_'

/-- The identifier made from a name: every character an identifier cannot hold
becomes an underscore, and so does an empty name. -/
def identifier (name : String) : String := String.ofList (identifierChars name.toList)

/-- An identifier is never empty. -/
theorem identifierChars_ne_nil (name : List Char) : identifierChars name ≠ [] := by
  cases name <;> simp [identifierChars]

/-- An identifier holds identifier characters only. -/
theorem all_identifierChars (name : List Char) :
    (identifierChars name).all isIdentChar = true := by
  cases name with
  | nil => decide
  | cons c cs =>
    simp only [identifierChars, List.isEmpty_cons, Bool.false_eq_true, if_false, List.all_eq_true,
      List.mem_map, forall_exists_index, and_imp]
    rintro x d - rfl
    by_cases h : isIdentChar d = true
    · simp [h]
    · simp [h]
      decide

end Text
end MaterialShader
