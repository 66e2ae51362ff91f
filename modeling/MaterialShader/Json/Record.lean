import MaterialShader.Json.Document

/-!
# Records

A record of a document is written as an object or as an array of its members in
their declared order.  An object may hold members that are not declared, which
are passed over, but no declared member twice.  An array may end early, but holds
nothing beyond the declared members.

A member is required, optional or has a default.  An object may leave out optional
members and members with a default; an array may leave out the latter alone.  Only
an optional member may be null.

## Main definitions

* `Record`, `Record.read?` — the declared members that a value holds.
* `Record.required?`, `Record.optional?`, `Record.withDefault?` — one member.
* `nullable?` — a value or null.
* `choice?` — one of several names.
-/

namespace MaterialShader
namespace Json

/-- How a record was written. -/
inductive Form where
  /-- As an object. -/
  | keyed : Form
  /-- As an array. -/
  | listed : Form
  deriving DecidableEq, Repr, Inhabited

/-- The declared members that a value holds. -/
structure Record where
  /-- How the record was written. -/
  form : Form
  /-- The members by name. -/
  members : List (String × Json)
  deriving Repr, Inhabited

namespace Record

/-- The members of an object by name; there is none when a key cannot be read. -/
def readKeys? (members : List (Option String × Json)) : Option (List (String × Json)) :=
  members.mapM fun m => m.1.map fun key => (key, m.2)

/-- The record with the declared members `names` that a value holds. -/
def read? (names : List String) : Json → Option Record
  | .record members => do
      let named ← readKeys? members
      let known := named.filter fun m => names.contains m.1
      if (known.map (·.1)).Nodup then some ⟨.keyed, known⟩ else none
  | .list items =>
      if items.length ≤ names.length then some ⟨.listed, names.zip items⟩ else none
  | _ => none

/-- The value of a member that is present. -/
def get? (r : Record) (name : String) : Option Json := r.members.lookup name

/-- A member that has to be present. -/
def required? {α : Type} (r : Record) (name : String) (decode : Json → Option α) : Option α :=
  (r.get? name).bind decode

/-- A member that is taken to be `absent` where it is left out. -/
def withDefault? {α : Type} (r : Record) (name : String) (decode : Json → Option α)
    (absent : α) : Option α :=
  match r.get? name with
  | none => some absent
  | some j => decode j

end Record

/-- A value that may be null. -/
def nullable? {α : Type} (decode : Json → Option α) : Json → Option (Option α)
  | .null => some none
  | j => (decode j).map some

/-- A member that may be left out of an object, and may be null. -/
def Record.optional? {α : Type} (r : Record) (name : String) (decode : Json → Option α) :
    Option (Option α) :=
  match r.get? name with
  | none => if r.form = .keyed then some none else none
  | some j => nullable? decode j

/-- A member that may be left out of an object or an array, and may be null. -/
def Record.optionalAnywhere? {α : Type} (r : Record) (name : String)
    (decode : Json → Option α) : Option (Option α) :=
  r.withDefault? name (nullable? decode) none

/-- One of several names.  It is also read from an object whose only key is the
name, with null for its value. -/
def choice? {α : Type} (names : List (String × α)) : Json → Option α
  | .text (some name) => names.lookup name
  | .record [(some name, .null)] => names.lookup name
  | _ => none

end Json
end MaterialShader
