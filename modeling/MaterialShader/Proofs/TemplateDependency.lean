import MaterialShader.FilePlace
import MaterialShader.Proofs.IncludeStack

/-!
# The files that a processed template depends on

Processing records each file that it reads.  So other files that hold the same texts under the
recorded names are as good: every question that was asked of the first has the same answer there.
The two runs are compared step by step, and what the first one records in the end covers what each
of its steps has asked for.  A file may be read under another spelling than the recorded one; both
lead to one file wherever both can lead to a file.

## Main definitions

* `Template.Progress.IsRecord` — files are recorded, and none of them twice.
* `Template.Repeats` — a step that is repeated on other files.

## Main results

* `Template.repeats_processFile` — a file is processed as before where the recorded files have the
  same texts.
* `processTemplate_of_dependencies` — the dependencies of a template cover what its text depends on.
-/

namespace MaterialShader
namespace Template

/-! ### Records -/

namespace Progress

/-- What is recorded leads to files, and none of them is recorded twice. -/
structure IsRecord (store : FileLookup) (p : Progress) : Prop where
  isFile : ∀ file ∈ p.dependencies, store.isFile file = true
  allDifferent : Path.AllDifferent p.dependencies

variable {store : FileLookup} {p : Progress} {path : Path}

theorem isRecord_empty (store : FileLookup) (text : String) : IsRecord store ⟨text, []⟩ where
  isFile _ h := absurd h List.not_mem_nil
  allDifferent := List.Pairwise.nil

theorem IsRecord.depend (h : p.IsRecord store) (hpath : store.isFile path = true) :
    (p.depend path).IsRecord store := by
  unfold Progress.depend
  split
  · exact h
  · next hamong =>
    refine ⟨fun file hfile => ?_, List.pairwise_append.mpr ⟨h.allDifferent, ?_, ?_⟩⟩
    · rcases List.mem_append.mp hfile with hfile | hfile
      · exact h.isFile file hfile
      · rw [List.mem_singleton.mp hfile]
        exact hpath
    · exact List.pairwise_singleton _ _
    · intro file hfile last hlast
      rw [List.mem_singleton.mp hlast, ← Bool.not_eq_true]
      exact fun hsame => hamong (List.any_eq_true.mpr ⟨file, hfile, Path.sameAs_symm hsame⟩)

theorem prefix_depend (p : Progress) (path : Path) :
    p.dependencies <+: (p.depend path).dependencies := by
  unfold depend
  split
  · exact List.prefix_rfl
  · exact List.prefix_append _ _

theorem isAmong_depend (p : Progress) (path : Path) :
    path.isAmong (p.depend path).dependencies = true := by
  unfold depend
  split
  · next hamong => exact hamong
  · simp [Path.isAmong]

end Progress

/-! ### Steps on the files of two lookups -/

/-- A step on some files and a step on others: the first keeps a record, only adds to it, and is
repeated by the second where all that it has recorded is among the given paths. -/
structure Repeats (store : FileLookup) (files : List Path)
    (f f' : Progress → Except GenerationError Progress) : Prop where
  isRecord : ∀ {p q}, p.IsRecord store → f p = .ok q → q.IsRecord store
  adds : ∀ {p q}, f p = .ok q → p.dependencies <+: q.dependencies
  repeats : ∀ {p q}, p.IsRecord store → f p = .ok q → q.dependencies ⊆ files → f' p = .ok q

namespace Repeats

variable {store : FileLookup} {files : List Path}
  {f f' g g' : Progress → Except GenerationError Progress}

/-- A step that records nothing and asks for nothing. -/
theorem pure {f : Progress → Progress} (h : ∀ p, (f p).dependencies = p.dependencies) :
    Repeats store files (fun p => .ok (f p)) (fun p => .ok (f p)) where
  isRecord hp hq := by
    obtain rfl := Except.ok.inj hq
    constructor
    · rw [h]
      exact hp.isFile
    · rw [h]
      exact hp.allDifferent
  adds hq := by
    obtain rfl := Except.ok.inj hq
    rw [h]
  repeats _ hq _ := hq

/-- A step that fails. -/
theorem error {e : GenerationError} : Repeats store files (fun _ => .error e) f' where
  isRecord _ hq := absurd hq (by rintro ⟨⟩)
  adds hq := absurd hq (by rintro ⟨⟩)
  repeats _ hq := absurd hq (by rintro ⟨⟩)

theorem depend {path : Path} (h : store.isFile path = true) :
    Repeats store files (fun p => .ok (p.depend path)) (fun p => .ok (p.depend path)) where
  isRecord hp hq := by
    obtain rfl := Except.ok.inj hq
    exact hp.depend h
  adds hq := by
    obtain rfl := Except.ok.inj hq
    exact Progress.prefix_depend _ _
  repeats _ hq _ := hq

theorem bind (h : Repeats store files f f') (h' : Repeats store files g g') :
    Repeats store files (fun p => f p >>= g) (fun p => f' p >>= g') where
  isRecord hp hq := by
    obtain ⟨r, hr, hq⟩ := Outcome.bind_eq_ok_iff.mp hq
    exact h'.isRecord (h.isRecord hp hr) hq
  adds hq := by
    obtain ⟨r, hr, hq⟩ := Outcome.bind_eq_ok_iff.mp hq
    exact (h.adds hr).trans (h'.adds hq)
  repeats hp hq hfiles := by
    obtain ⟨r, hr, hq⟩ := Outcome.bind_eq_ok_iff.mp hq
    -- what the first part has recorded is still recorded in the end
    have hfirst := h.repeats hp hr (List.Subset.trans (h'.adds hq).subset hfiles)
    exact Outcome.bind_eq_ok_iff.mpr ⟨r, hfirst, h'.repeats (h.isRecord hp hr) hq hfiles⟩

theorem after_write (h : Repeats store files f f') (s : String) :
    Repeats store files (fun p => f (p.write s)) (fun p => f' (p.write s)) :=
  (Repeats.pure (f := fun p => p.write s) fun _ => rfl).bind h

theorem foldlM {α : Type} {l : List α} {f f' : Progress → α → Except GenerationError Progress}
    (h : ∀ a ∈ l, Repeats store files (f · a) (f' · a)) :
    Repeats store files (l.foldlM f) (l.foldlM f') := by
  induction l with
  | nil => exact Repeats.pure fun _ => rfl
  | cons a l ih =>
    obtain ⟨ha, hl⟩ := List.forall_mem_cons.mp h
    exact ha.bind (ih hl)

end Repeats

/-! ### Lines -/

variable {ctx : Context} {store : FileLookup} {files : List Path} {file : Path}

theorem expand_store (ctx : Context) (store : FileLookup) (file : Path) (indent : List Char)
    (pieces : List Piece) :
    expand { ctx with store := store } file indent pieces = expand ctx file indent pieces :=
  expand_eq_of_sections (by rfl) file indent pieces

theorem repeats_processLine (store : FileLookup) (file : Path)
    {included included' : Path → String → Progress → Except GenerationError Progress}
    (h : ∀ target indent,
      Repeats ctx.store files (included target indent) (included' target indent))
    (indent : String) (ending : Text.Ending) (line : TemplateLine) :
    Repeats ctx.store files (fun p => processLine ctx file included indent ending line p)
      (fun p => processLine { ctx with store := store } file included' indent ending line p) := by
  induction line with
  | guarded lead field rest inner ih =>
    simp only [processLine]
    cases ctx.active.activity field with
    | always => exact ih
    | permutations indices =>
      refine (ih.bind (Repeats.pure ?_)).after_write _
      exact fun p => p.dependencies_finishLine
    | never =>
      refine Repeats.pure fun p => ?_
      split <;> rfl
  | included lead path =>
    simp only [processLine]
    refine (h _ _).bind (Repeats.pure fun p => ?_)
    split <;> rfl
  | text lead pieces =>
    simp only [processLine, expand_store]
    cases expand ctx file (indent ++ lead).toList pieces with
    | error e => exact Repeats.error
    | ok chars => exact Repeats.pure fun _ => rfl

/-! ### Files -/

theorem isFile_of_processFile {fuel : Nat} {opened : List Path} {indent : String} {p q : Progress}
    (h : processFile ctx fuel opened file indent p = .ok q) : ctx.store.isFile file = true := by
  cases fuel with
  | zero => exact absurd h (by rintro ⟨⟩)
  | succ fuel =>
    rw [processFile_succ, fileStep] at h
    cases hread : ctx.store.readText? file with
    | none =>
      rw [hread] at h
      exact absurd h (by rintro ⟨⟩)
    | some text => exact ctx.store.isFile_of_readText? hread

/-- A file whose name is recorded, in some spelling, has the same text where the recorded files have
theirs. -/
theorem readText?_of_isRecord {p : Progress} (hp : p.IsRecord ctx.store) {text : String}
    (hread : ctx.store.readText? file = some text) (hamong : file.isAmong p.dependencies = true)
    (hstore : ∀ d ∈ p.dependencies, store.readText? d = ctx.store.readText? d) :
    store.readText? file = some text := by
  obtain ⟨recorded, hrecorded, hsame⟩ := List.any_eq_true.mp hamong
  have hfile := ctx.store.endsInName_of_isFile (ctx.store.isFile_of_readText? hread)
  have hrecorded' := ctx.store.endsInName_of_isFile (hp.isFile recorded hrecorded)
  calc store.readText? file = store.readText? recorded :=
        store.readText?_eq_of_sameAs hfile hrecorded' hsame
    _ = ctx.store.readText? recorded := hstore recorded hrecorded
    _ = ctx.store.readText? file := (ctx.store.readText?_eq_of_sameAs hfile hrecorded' hsame).symm
    _ = some text := hread

theorem repeats_fileStep (hstore : ∀ d ∈ files, store.readText? d = ctx.store.readText? d)
    {opened : List Path}
    {run run' : Path → String → Progress → Except GenerationError Progress}
    (hrun : ∀ target indent, Repeats ctx.store files
      (openIncluded ctx opened file run target indent)
      (openIncluded { ctx with store := store } opened file run' target indent))
    (indent : String) :
    Repeats ctx.store files (fileStep ctx opened run file indent)
      (fileStep { ctx with store := store } opened run' file indent) := by
  cases hread : ctx.store.readText? file with
  | none =>
    have hfails : fileStep ctx opened run file indent =
        fun _ => .error (.unreadableTemplate file) := by
      funext p
      rw [fileStep, hread]
    rw [hfails]
    exact Repeats.error
  | some text =>
    have hlines := Repeats.foldlM (l := Text.split text) fun line _ =>
      repeats_processLine store file hrun indent line.ending (TemplateLine.parse line.body)
    have hsteps := (Repeats.depend (ctx.store.isFile_of_readText? hread)).bind hlines
    have hstep : fileStep ctx opened run file indent = fun p => .ok (p.depend file) >>=
        (Text.split text).foldlM fun p line =>
          processLine ctx file (openIncluded ctx opened file run) indent line.ending
            (TemplateLine.parse line.body) p := by
      funext p
      rw [fileStep, hread]
      rfl
    rw [hstep]
    refine ⟨hsteps.isRecord, hsteps.adds, fun {p q} hp hq hfiles => ?_⟩
    have hadded : (p.depend file).dependencies <+: q.dependencies := hlines.adds hq
    obtain ⟨recorded, hrecorded, hsame⟩ := List.any_eq_true.mp (p.isAmong_depend file)
    have hamong : file.isAmong q.dependencies = true :=
      List.any_eq_true.mpr ⟨recorded, hadded.subset hrecorded, hsame⟩
    have hread' := readText?_of_isRecord (hsteps.isRecord hp hq) hread hamong
      fun d hd => hstore d (hfiles hd)
    rw [fileStep, hread']
    exact hsteps.repeats hp hq hfiles

theorem repeats_openIncluded {opened : List Path} {fuel : Nat}
    (h : ∀ opened target indent, Repeats ctx.store files (processFile ctx fuel opened target indent)
      (processFile { ctx with store := store } fuel opened target indent))
    (target : Path) (indent : String) :
    Repeats ctx.store files
      (openIncluded ctx opened file (processFile ctx fuel (file :: opened)) target indent)
      (openIncluded { ctx with store := store } opened file
        (processFile { ctx with store := store } fuel (file :: opened)) target indent) := by
  have htarget := h (file :: opened) target indent
  unfold openIncluded
  split
  · exact Repeats.error
  · split
    · exact Repeats.error
    · refine ⟨htarget.isRecord, htarget.adds, fun hp hq hfiles => ?_⟩
      have hagain := htarget.repeats hp hq hfiles
      -- what has been processed there is a file there
      have hfile : store.isFile target = true := isFile_of_processFile hagain
      rw [hfile]
      exact hagain

/-- **A file is processed as before** where the recorded files have the same texts. -/
theorem repeats_processFile (hstore : ∀ d ∈ files, store.readText? d = ctx.store.readText? d)
    (fuel : Nat) (opened : List Path) (file : Path) (indent : String) :
    Repeats ctx.store files (processFile ctx fuel opened file indent)
      (processFile { ctx with store := store } fuel opened file indent) := by
  induction fuel generalizing opened file indent with
  | zero => exact Repeats.error
  | succ fuel ih =>
    rw [processFile_succ, processFile_succ]
    exact repeats_fileStep hstore (repeats_openIncluded ih) indent

/-- A file is recorded before what it includes. -/
theorem prefix_of_processFile {fuel : Nat} {opened : List Path} {indent : String} {p q : Progress}
    (h : processFile ctx fuel opened file indent p = .ok q) :
    (p.depend file).dependencies <+: q.dependencies := by
  cases fuel with
  | zero => exact absurd h (by rintro ⟨⟩)
  | succ fuel =>
    rw [processFile_succ, fileStep] at h
    cases hread : ctx.store.readText? file with
    | none =>
      rw [hread] at h
      exact absurd h (by rintro ⟨⟩)
    | some text =>
      rw [hread] at h
      have hself : ∀ opened target indent, Repeats ctx.store [] (processFile ctx fuel opened target
          indent) (processFile { ctx with store := ctx.store } fuel opened target indent) :=
        repeats_processFile (fun _ _ => rfl) fuel
      exact (Repeats.foldlM fun line _ => repeats_processLine ctx.store file
        (repeats_openIncluded hself) indent line.ending (TemplateLine.parse line.body)).adds h

end Template

open Template in
/-- **The dependencies of a template** start with it, name no file twice, and cover what its text
depends on: other files that have the same texts under their names give the same text and the same
dependencies. -/
theorem processTemplate_of_dependencies {ctx : Context} {path : Path} {q : Progress}
    (h : processTemplate ctx path = .ok (some q)) :
    (∃ rest, q.dependencies = path :: rest) ∧ Path.AllDifferent q.dependencies ∧
    ∀ store : FileLookup, (∀ d ∈ q.dependencies, store.readText? d = ctx.store.readText? d) →
      processTemplate { ctx with store := store } path = .ok (some q) := by
  -- one bound for the recursion on both
  have hroom : ∀ store, ∃ fuel, ctx.remaining [path] < fuel ∧
      Context.remaining { ctx with store := store } [path] < fuel := fun store =>
    ⟨_, Nat.lt_succ_of_le (Nat.le_max_left _ _), Nat.lt_succ_of_le (Nat.le_max_right _ _)⟩
  have hempty := Progress.isRecord_empty ctx.store ""
  obtain ⟨fuel, hfuel, -⟩ := hroom ctx.store
  obtain ⟨hpath, hrun⟩ := (processTemplate_eq_ok_iff hfuel).mp h
  have hself : Repeats ctx.store q.dependencies (processFile ctx fuel [] path "")
      (processFile { ctx with store := ctx.store } fuel [] path "") :=
    repeats_processFile (fun _ _ => rfl) fuel [] path ""
  refine ⟨?_, (hself.isRecord hempty hrun).allDifferent, fun store hstore => ?_⟩
  · obtain ⟨rest, hrest⟩ := prefix_of_processFile hrun
    exact ⟨rest, hrest.symm⟩
  · obtain ⟨fuel, hfuel, hfuel'⟩ := hroom store
    obtain ⟨-, hrun⟩ := (processTemplate_eq_ok_iff hfuel).mp h
    have hagain := (repeats_processFile hstore fuel [] path "").repeats hempty hrun
      (List.Subset.refl _)
    exact (processTemplate_eq_ok_iff hfuel').mpr ⟨isFile_of_processFile hagain, hagain⟩

/-- A template that includes one file under two spellings, beside a file that it does not
include. -/
def respelledTemplate : Template.Context where
  store := FileStore.lookup ⟨[], [
    (["T"], .text "$include(\"I\")\n$V.a: $include(\"Z\")\n  $include(\".//I\")\n"),
    (["D", "I"], .text "x\n"),
    (["D", "Z"], .text "z\n")]⟩
  sharedDir := ⟨"D"⟩
  sections := []
  active := ⟨[], []⟩
  debug := false

/-- Another store with the files that the template depends on, in another order, seen from another
directory. -/
def respelledStore : FileStore :=
  ⟨["W"], [(["W", "D", "I"], .text "x\n"), (["W", "T"], .text
    "$include(\"I\")\n$V.a: $include(\"Z\")\n  $include(\".//I\")\n")]⟩

theorem processTemplate_of_dependencies_respelled :
    processTemplate respelledTemplate ⟨"T"⟩ =
        .ok (some ⟨"x\n  x\n", [⟨"T"⟩, ⟨"D/I"⟩]⟩) ∧
      processTemplate { respelledTemplate with store := respelledStore } ⟨"T"⟩ =
        .ok (some ⟨"x\n  x\n", [⟨"T"⟩, ⟨"D/I"⟩]⟩) := by
  have hfound : processTemplate respelledTemplate ⟨"T"⟩ =
      .ok (some ⟨"x\n  x\n", [⟨"T"⟩, ⟨"D/I"⟩]⟩) := by decide +kernel
  refine ⟨hfound, (processTemplate_of_dependencies hfound).2.2 respelledStore ?_⟩
  decide +kernel

end MaterialShader
