/-!
# Paths

Paths are kept as they are spelled, because answers show the spelling.  Two
spellings name the same path when their components agree: repeated and final
slashes do not count, and neither does a point as a component unless it comes
first.  Both ask for a directory, though, so not every spelling can lead to a file, and
none that is too long leads anywhere.

## Main definitions

* `Path`, `Path.components`, `Path.sameAs` — spellings and what they name.
* `Path.join` — a path below another.
* `Path.EndsInName` — what a spelling needs to lead to a file.
-/

namespace MaterialShader

/-- How many bytes a path may have. -/
def maxPathSize : Nat := 4095

/-- A path as it is spelled. -/
structure Path where
  /-- The spelling. -/
  text : String
  deriving DecidableEq, Repr, Inhabited

namespace Path

/-- The parts of a text between separators. -/
def splitAt (sep : Char) : List Char → List (List Char)
  | [] => [[]]
  | c :: rest =>
      match splitAt sep rest with
      | [] => [[c]]
      | part :: parts => if c = sep then [] :: part :: parts else (c :: part) :: parts

theorem splitAt_ne_nil (sep : Char) (cs : List Char) : splitAt sep cs ≠ [] := by
  cases cs with
  | nil => exact List.cons_ne_nil _ _
  | cons c cs =>
    rw [splitAt]
    split
    · exact List.cons_ne_nil _ _
    · split
      · exact List.cons_ne_nil _ _
      · exact List.cons_ne_nil _ _

/-- No part holds a separator. -/
theorem notMem_of_mem_splitAt {sep : Char} {cs part : List Char} (h : part ∈ splitAt sep cs) :
    sep ∉ part := by
  induction cs generalizing part with
  | nil =>
    obtain rfl := List.mem_singleton.mp h
    exact List.not_mem_nil
  | cons c cs ih =>
    rw [splitAt] at h
    split at h
    · next hnil => exact absurd hnil (splitAt_ne_nil sep cs)
    · next first parts hparts =>
      rw [hparts] at ih
      split at h
      · rcases List.mem_cons.mp h with rfl | h
        · exact List.not_mem_nil
        · exact ih h
      · next hc =>
        rcases List.mem_cons.mp h with rfl | h
        · rw [List.mem_cons, not_or]
          exact ⟨fun hsep => hc hsep.symm, ih List.mem_cons_self⟩
        · exact ih (List.mem_cons_of_mem _ h)

/-- The parts of a path between slashes, empty ones included. -/
def segments (p : Path) : List String := (splitAt '/' p.text.toList).map String.ofList

/-- A path that starts with a slash. -/
def isAbsolute (p : Path) : Bool := p.text.toList.head? == some '/'

/-- The components of a path.  A leading slash and a leading point are components
of their own. -/
def components (p : Path) : List String :=
  let first :=
    if p.isAbsolute then ["/"]
    else if p.segments.head? = some "." then ["."]
    else []
  first ++ p.segments.filter fun s => s ≠ "" ∧ s ≠ "."

/-- Two spellings of one path. -/
def sameAs (p q : Path) : Bool := p.components == q.components

theorem sameAs_iff (p q : Path) : p.sameAs q = true ↔ p.components = q.components := by
  simp [sameAs]

@[simp] theorem sameAs_self (p : Path) : p.sameAs p = true := by simp [sameAs]

theorem sameAs_symm {p q : Path} (h : p.sameAs q = true) : q.sameAs p = true := by
  simp_all [sameAs]

/-- The path among others under any spelling. -/
def isAmong (p : Path) (paths : List Path) : Bool := paths.any p.sameAs

/-- A path below another; an absolute path stands for itself. -/
def join (p q : Path) : Path :=
  if q.isAbsolute then q
  else if p.text.isEmpty || p.text.toList.getLast? == some '/' then ⟨p.text ++ q.text⟩
  else ⟨p.text ++ "/" ++ q.text⟩

/-- A path that can lead somewhere: it is not empty and not too long, and has no
character of code zero. -/
def isAdmitted (p : Path) : Bool :=
  !p.text.isEmpty && p.text.utf8ByteSize ≤ maxPathSize && !p.text.toList.contains '\x00'

/-- A segment that enters something. -/
def isName (segment : String) : Bool := decide (segment ≠ "" ∧ segment ≠ ".")

/-- A path that can lead to a file: it can lead somewhere, and its last segment enters something. -/
def EndsInName (p : Path) : Prop :=
  p.isAdmitted = true ∧ ∃ front name, p.segments = front ++ [name] ∧ isName name = true

end Path
end MaterialShader
