import MaterialShader.Path

/-!
# Looking up files

What processing asks of the files around it: which paths lead to a file, and what its text is.
How a path is followed is left open, so files may be reached through links.  There are finitely
many texts, and spellings of one path are not told apart where they can lead to a file at all: a
final slash asks for a directory, and a spelling can be too long.

## Main definitions

* `FileLookup` — files that are looked up by their paths.
* `FileLookup.lineCount` — the number of lines in all files.
-/

namespace MaterialShader

/-- Files that are looked up by their paths. -/
structure FileLookup where
  /-- A path that leads to a file. -/
  isFile : Path → Bool
  /-- The text of the file a path leads to, if its bytes are one. -/
  readText? : Path → Option String
  /-- The texts of all files. -/
  texts : List String
  isFile_of_readText? : ∀ {p : Path} {text : String}, readText? p = some text → isFile p = true
  mem_texts : ∀ {p : Path} {text : String}, readText? p = some text → text ∈ texts
  endsInName_of_isFile : ∀ {p : Path}, isFile p = true → p.EndsInName
  readText?_eq_of_sameAs : ∀ {p q : Path}, p.EndsInName → q.EndsInName → p.sameAs q = true →
    readText? p = readText? q

/-- The number of lines in all files, which bounds how many different includes the
files can name. -/
def FileLookup.lineCount (files : FileLookup) : Nat :=
  files.texts.foldr (fun text total => text.toList.count '\n' + 1 + total) 0

end MaterialShader
