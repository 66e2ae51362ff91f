import MaterialShader.Number.Decimal

/-!
# Documents

The value tree of a JSON document.  A document is read without regard to what its
members mean, so the tree keeps what only a later reader can judge: a number stays
a literal, and a text may turn out to be unreadable.

## Main definitions

* `Json` — the value tree.
* `Json.isReadable`, `Json.depth` — what a value must satisfy to be kept as it is.
* `Json.text?`, `Json.bool?`, `Json.number?`, … — typed views of a value.
-/

namespace MaterialShader

/-- A value of a document. -/
inductive Json where
  /-- The null value. -/
  | null : Json
  /-- A truth value. -/
  | bool (value : Bool) : Json
  /-- A number, as its literal. -/
  | number (literal : Decimal) : Json
  /-- A text; it is missing when an escape names half of a surrogate pair. -/
  | text (content : Option String) : Json
  /-- An array. -/
  | list (items : List Json) : Json
  /-- An object, its members in order; keys may repeat. -/
  | record (members : List (Option String × Json)) : Json
  deriving Repr, Inhabited

namespace Json

/-! ### Typed views -/

/-- The content of a text. -/
def text? : Json → Option String
  | .text content => content
  | _ => none

/-- The truth value of a value that is one. -/
def bool? : Json → Option Bool
  | .bool value => some value
  | _ => none

/-- The number a value denotes. -/
def number? : Json → Option Number
  | .number literal => literal.value?
  | _ => none

/-- The whole number below `2 ^ 64` that a value denotes. -/
def natural? (j : Json) : Option Nat :=
  match j.number? with
  | some (.natural n) => some n
  | _ => none

/-- The items of an array. -/
def items? : Json → Option (List Json)
  | .list items => some items
  | _ => none

/-- The items of an array, each read by `decode`. -/
def listOf? {α : Type} (decode : Json → Option α) (j : Json) : Option (List α) :=
  j.items?.bind fun items => items.mapM decode

/-! ### Values kept as they are -/

mutual

/-- Every number in the value is in range and every text can be read. -/
def isReadable : Json → Bool
  | .null => true
  | .bool _ => true
  | .number literal => literal.value?.isSome
  | .text content => content.isSome
  | .list items => areReadable items
  | .record members => areMembersReadable members

/-- Every one of the values is readable. -/
def areReadable : List Json → Bool
  | [] => true
  | j :: rest => isReadable j && areReadable rest

/-- Every one of the members has a readable key and a readable value. -/
def areMembersReadable : List (Option String × Json) → Bool
  | [] => true
  | (key, j) :: rest => key.isSome && isReadable j && areMembersReadable rest

end

mutual

/-- How many arrays and objects are nested in each other. -/
def depth : Json → Nat
  | .list items => depthOfItems items + 1
  | .record members => depthOfMembers members + 1
  | _ => 0

/-- The greatest depth among values. -/
def depthOfItems : List Json → Nat
  | [] => 0
  | j :: rest => max (depth j) (depthOfItems rest)

/-- The greatest depth among the values of members. -/
def depthOfMembers : List (Option String × Json) → Nat
  | [] => 0
  | (_, j) :: rest => max (depth j) (depthOfMembers rest)

end

/-- The deepest nesting that is read. -/
def maxDepth : Nat := 127

end Json
end MaterialShader
