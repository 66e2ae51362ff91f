import MaterialShader.Path

/-!
# File stores

A finite set of files and directories.  A path is looked up component by
component from the working directory, and every component before the last has to
be a directory, also before a point, two points or a final slash.  Names and paths
beyond the limits of the system lead nowhere.

There are no symbolic links in a store: a place has one list of names, and two
points lead back along it.  Nothing about templates rests on that, since they see
files through `FileLookup` only.

## Main definitions

* `Entry`, `FileStore` — what is stored, by the names from the root down.
* `FileStore.locate?` — the place a path leads to.
* `FileStore.isFile`, `FileStore.readText?` — looking at a file.
* `FileStore.write?` — the store after writing a file.
-/

namespace MaterialShader

/-- What a place in a store holds. -/
inductive Entry where
  /-- A file whose bytes are a text. -/
  | text (content : String) : Entry
  /-- A file whose bytes are no text. -/
  | undecodable : Entry
  | directory : Entry
  deriving DecidableEq, Repr, Inhabited

/-- The entry for a file with the given bytes. -/
def Entry.ofBytes (bytes : ByteArray) : Entry :=
  match String.fromUTF8? bytes with
  | some content => .text content
  | none => .undecodable

/-- The text of an entry. -/
def Entry.text? : Entry → Option String
  | .text content => some content
  | .undecodable => none
  | .directory => none

/-- A place in a store: the names from the root down. -/
abbrev Place := List String

/-- The place that one more name leads to from a directory: no name and a point stay
there, two points go back. -/
def Place.enter (place : Place) (name : String) : Place :=
  if name = "" ∨ name = "." then place
  else if name = ".." then place.dropLast
  else place ++ [name]

/-- How many bytes a name may have. -/
def maxNameSize : Nat := 255

/-- Files and directories. -/
structure FileStore where
  /-- The directory relative paths start from. -/
  workingDirectory : Place
  /-- The entries; of two at one place the first counts. -/
  entries : List (Place × Entry)
  deriving Repr, Inhabited

namespace FileStore

/-- A store with no entries. -/
def empty : FileStore := ⟨[], []⟩

/-- The entry at a place. -/
def entry? (store : FileStore) (place : Place) : Option Entry := store.entries.lookup place

/-- A place is a directory if an entry says so, if an entry lies below it, or if it
is the working directory. -/
def isDirectoryAt (store : FileStore) (place : Place) : Bool :=
  -- directories that lie on the way to something need no entry
  place.isPrefixOf store.workingDirectory || store.entry? place == some .directory ||
    store.entries.any fun e => place.isPrefixOf e.1 && place != e.1

/-- The place reached by one more name, if the place before it is a directory. -/
def enter? (store : FileStore) (place : Place) (name : String) : Option Place :=
  if !store.isDirectoryAt place || maxNameSize < name.utf8ByteSize then none
  else some (place.enter name)

/-- The place a path starts from. -/
def startOf (store : FileStore) (p : Path) : Place :=
  if p.isAbsolute then [] else store.workingDirectory

/-- The place a path leads to.  Whether anything is there is another matter. -/
def locate? (store : FileStore) (p : Path) : Option Place :=
  if p.isAdmitted then p.segments.foldlM store.enter? (store.startOf p) else none

/-- The file a path leads to. -/
def file? (store : FileStore) (p : Path) : Option Entry :=
  (store.locate? p).bind fun place =>
    if store.isDirectoryAt place then none else store.entry? place

/-- A path that leads to a file. -/
def isFile (store : FileStore) (p : Path) : Bool := (store.file? p).isSome

/-- The text of the file a path leads to. -/
def readText? (store : FileStore) (p : Path) : Option String :=
  (store.file? p).bind Entry.text?

/-- The store with an entry at a place. -/
def insert (store : FileStore) (place : Place) (e : Entry) : FileStore :=
  { store with entries := (place, e) :: store.entries.filter fun old => old.1 != place }

/-- The store with a directory at a place. -/
def makeDirectory (store : FileStore) (place : Place) : FileStore :=
  if store.isDirectoryAt place then store else store.insert place .directory

/-- The store with the directories that names pass from a place on, and the place
the names lead to. -/
def makeWay (store : FileStore) (place : Place) : List String → FileStore × Place
  | [] => (store, place)
  | name :: rest => makeWay (store.makeDirectory place) (place.enter name) rest

/-- The store with an entry at the place a path leads to, and with the directories on
the way there. -/
def insertAt (store : FileStore) (p : Path) (e : Entry) : FileStore :=
  let (store, place) := store.makeWay (store.startOf p) p.segments
  store.insert place e

/-- The store after a text has been written to the file a path leads to.  The
directory has to be there, and no directory is overwritten. -/
def write? (store : FileStore) (p : Path) (content : String) : Option FileStore :=
  (store.locate? p).bind fun place =>
    if place.isEmpty || store.isDirectoryAt place || !store.isDirectoryAt place.dropLast then none
    else if p.segments.getLast? = some "" ∨ p.segments.getLast? = some "." then none
    else some (store.insert place (.text content))

/-- The texts of all files. -/
def texts (store : FileStore) : List String := store.entries.filterMap fun e => e.2.text?

end FileStore
end MaterialShader
