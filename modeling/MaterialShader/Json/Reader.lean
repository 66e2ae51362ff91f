import MaterialShader.Json.Token

/-!
# Reading a document

The value tree is put together by one pass over the tokens, with a stack of the
arrays and objects that are still open.  Nesting costs no recursion, so a document
may be nested as deeply as it likes here; `Json.maxDepth` binds those who keep a
value.

## Main definitions

* `Frame`, `Reader` — an open array or object, and the state of the pass.
* `Json.read?` — the document a text holds.
-/

namespace MaterialShader
namespace Json

/-- An array or object that is still open, its contents in reverse. -/
inductive Frame where
  /-- An array. -/
  | list (items : List Json) : Frame
  /-- An object whose next member, if any, has no key yet. -/
  | record (members : List (Option String × Json)) : Frame
  /-- An object with the key of its next member. -/
  | member (key : Option String) (members : List (Option String × Json)) : Frame
  deriving Repr, Inhabited

/-- What may follow. -/
inductive Expecting where
  | value : Expecting
  /-- A value, or the end of the array that was just opened. -/
  | firstItem : Expecting
  | key : Expecting
  /-- A key, or the end of the object that was just opened. -/
  | firstKey : Expecting
  /-- The colon after a key. -/
  | colon : Expecting
  /-- A comma or the end of the innermost array or object. -/
  | separator : Expecting
  deriving DecidableEq, Repr, Inhabited

/-- The state of the pass. -/
inductive Reader where
  /-- Inside the document: the open arrays and objects, innermost first. -/
  | inside (stack : List Frame) (expecting : Expecting) : Reader
  /-- The document is complete. -/
  | complete (value : Json) : Reader
  deriving Repr, Inhabited

/-- The state after a value: it joins the innermost open array or object, and
completes the document where none is open. -/
def Reader.put : List Frame → Json → Reader
  | [], v => .complete v
  | .list items :: rest, v => .inside (.list (v :: items) :: rest) .separator
  | .member key members :: rest, v => .inside (.record ((key, v) :: members) :: rest) .separator
  | .record members :: rest, _ => .inside (.record members :: rest) .separator

/-- The state after the end of an array. -/
def Reader.closeList? : List Frame → Option Reader
  | .list items :: rest => some (put rest (.list items.reverse))
  | _ => none

/-- The state after the end of an object. -/
def Reader.closeRecord? : List Frame → Option Reader
  | .record members :: rest => some (put rest (.record members.reverse))
  | _ => none

/-- The state after a comma. -/
def Reader.next? : List Frame → Option Reader
  | .list items :: rest => some (.inside (.list items :: rest) .value)
  | .record members :: rest => some (.inside (.record members :: rest) .key)
  | _ => none

/-- The state after a key. -/
def Reader.putKey? (key : Option String) : List Frame → Option Reader
  | .record members :: rest => some (.inside (.member key members :: rest) .colon)
  | _ => none

/-- The state after a token that starts or is a value. -/
def Reader.value? (stack : List Frame) : Token → Option Reader
  | .openList => some (.inside (.list [] :: stack) .firstItem)
  | .openRecord => some (.inside (.record [] :: stack) .firstKey)
  | .quoted content => some (put stack (.text content))
  | .bare v => some (put stack v)
  | _ => none

/-- The state after one more token. -/
def Reader.step? : Reader → Token → Option Reader
  | .complete _, _ => none
  | .inside stack .value, t => value? stack t
  | .inside stack .firstItem, .closeList => closeList? stack
  | .inside stack .firstItem, t => value? stack t
  | .inside stack .key, .quoted key => putKey? key stack
  | .inside stack .firstKey, .quoted key => putKey? key stack
  | .inside stack .firstKey, .closeRecord => closeRecord? stack
  | .inside stack .colon, .colon => some (.inside stack .value)
  | .inside stack .separator, .comma => next? stack
  | .inside stack .separator, .closeList => closeList? stack
  | .inside stack .separator, .closeRecord => closeRecord? stack
  | _, _ => none

/-- The document that tokens spell out. -/
def ofTokens? (tokens : List Token) : Option Json := do
  match ← tokens.foldlM Reader.step? (.inside [] .value) with
  | .complete v => some v
  | .inside _ _ => none

/-- The document a text holds. -/
def read? (s : String) : Option Json := (Token.scan? s).bind ofTokens?

end Json
end MaterialShader
