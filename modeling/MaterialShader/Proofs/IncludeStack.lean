import Mathlib.Data.List.Basic
import Mathlib.Logic.Relation
import MaterialShader.Proofs.TemplateOutcome

/-!
# Files that include each other

A file is processed inside the files that include it, and these are kept on a stack, so that
none of them is opened again before it is closed.  That is all that stops the recursion.  What is
opened is named by an include line of some file, so there are finitely many files to open, and
each that is opened leaves one less.

A file can go by several names, and the stack compares names.  A name that differs from those on
the stack lets a file be opened inside itself.  But then the lines of the file come round again,
and what they include is on the stack under the very name that they give it.

## Main definitions

* `TemplateLine.keptIncludes`, `Template.Context.includedBy` — the files that a line and a file
  include, behind fields that are active in some permutation.
* `Template.Context.Opens` — a file is put on the stack.
* `Path.AllDifferent` — no path under two spellings.
* `Template.fileStep`, `Template.IsProcessing` — one step of the recursion over files, and a
  function that takes such steps without a bound.

## Main results

* `Template.Context.wellFounded_opens` — stacks do not grow forever.
* `Template.processFile_eq_of_isProcessing` — the bound of the recursion is never met.
* `Template.Succeeds.notSame_of_chain` — where processing succeeds, no chain of includes comes
  back.
* `processTemplate_terminates` — a template is processed in finitely many steps on stacks that
  hold no file twice, and include lines that come back to an open file are an error.
-/

namespace MaterialShader

/-- No path under two spellings. -/
def Path.AllDifferent (paths : List Path) : Prop :=
  paths.Pairwise fun p q => p.sameAs q = false

theorem Path.allDifferent_cons {p : Path} {paths : List Path} :
    AllDifferent (p :: paths) ↔ p.isAmong paths = false ∧ AllDifferent paths := by
  rw [AllDifferent, AllDifferent, List.pairwise_cons, isAmong, List.any_eq_false]
  simp only [Bool.not_eq_true]

/-! ### What lines include -/

namespace TemplateLine

/-- The files that a line includes, unless it stands behind a field that is nowhere active. -/
def keptIncludes (active : ActiveFields) : TemplateLine → List String
  | .guarded _ field _ inner =>
      match active.activity field with
      | .never => []
      | _ => inner.keptIncludes active
  | .included _ path => [path]
  | .text _ _ => []

theorem length_keptIncludes (active : ActiveFields) (line : TemplateLine) :
    (line.keptIncludes active).length ≤ 1 := by
  induction line with
  | guarded lead field rest inner ih =>
    rw [keptIncludes]
    cases active.activity field with
    | always => exact ih
    | permutations indices => exact ih
    | never => exact Nat.zero_le 1
  | included lead path => exact le_rfl
  | text lead pieces => exact Nat.zero_le 1

end TemplateLine

namespace Template
namespace Context

variable (ctx : Context)

/-- The files that the kept lines of a text include. -/
def includedIn (text : String) : List Path :=
  (Text.split text).flatMap fun line =>
    ((TemplateLine.parse line.body).keptIncludes ctx.active).map fun name =>
      ctx.sharedDir.join ⟨name⟩

/-- The files that the kept lines of a file include. -/
def includedBy (file : Path) : List Path :=
  ((ctx.store.readText? file).map ctx.includedIn).getD []

/-- The files that include lines of any file name. -/
def includedAnywhere : List Path := ctx.store.texts.flatMap ctx.includedIn

/-- How many of these can still be opened. -/
def remaining (stack : List Path) : Nat :=
  (ctx.includedAnywhere.filter fun target => !target.isAmong stack).length

/-- A file is put on the stack: a kept line of the file on top includes it, and it is there and
not on the stack. -/
inductive Opens : List Path → List Path → Prop where
  | intro {opened : List Path} {file target : Path} (hmem : target ∈ ctx.includedBy file)
      (hclosed : target.isAmong (file :: opened) = false) (hfile : ctx.store.isFile target = true) :
      Opens (file :: opened) (target :: file :: opened)

variable {ctx} {file target : Path} {text : String} {stack next : List Path}

theorem mem_includedBy : target ∈ ctx.includedBy file ↔ ∃ text,
    ctx.store.readText? file = some text ∧ ∃ line ∈ Text.split text,
      ∃ name ∈ (TemplateLine.parse line.body).keptIncludes ctx.active,
        ctx.sharedDir.join ⟨name⟩ = target := by
  unfold includedBy
  cases ctx.store.readText? file with
  | none => simp
  | some text => simp [includedIn]

/-- Names of files with one text include the same. -/
theorem includedBy_congr {other : Path}
    (h : ctx.store.readText? other = ctx.store.readText? file) :
    ctx.includedBy other = ctx.includedBy file := by
  rw [includedBy, includedBy, h]

end Context
end Template

/-! ### How much there is to open -/

namespace Text

theorem length_splitFrom_le (begun cs : List Char) :
    (splitFrom begun cs).length ≤ cs.count '\n' + 1 := by
  induction cs generalizing begun with
  | nil =>
    unfold splitFrom
    split <;> simp
  | cons c cs ih =>
    unfold splitFrom
    by_cases hc : c = '\n'
    · have := ih []
      rw [if_pos hc, hc, List.length_cons, List.count_cons_self]
      omega
    · rw [if_neg hc, List.count_cons_of_ne hc]
      exact ih _

end Text

namespace Template
namespace Context

variable {ctx : Context} {file target : Path} {stack next : List Path}

theorem includedBy_subset (ctx : Context) (file : Path) :
    ctx.includedBy file ⊆ ctx.includedAnywhere := by
  intro target htarget
  unfold includedBy at htarget
  cases hread : ctx.store.readText? file with
  | none => simp [hread] at htarget
  | some text =>
    rw [hread] at htarget
    exact List.mem_flatMap.mpr ⟨text, ctx.store.mem_texts hread, htarget⟩

/-- There is no more than one file to open for each line of a file. -/
theorem length_includedAnywhere (ctx : Context) :
    ctx.includedAnywhere.length ≤ ctx.store.lineCount := by
  have htext : ∀ content, (ctx.includedIn content).length ≤ content.toList.count '\n' + 1 := by
    intro content
    have hlines : ∀ lines : List Text.Line, (lines.flatMap fun line =>
        ((TemplateLine.parse line.body).keptIncludes ctx.active).map fun name =>
          ctx.sharedDir.join ⟨name⟩).length ≤ lines.length := by
      intro lines
      induction lines with
      | nil => exact le_rfl
      | cons line lines ih =>
        have := TemplateLine.length_keptIncludes ctx.active (TemplateLine.parse line.body)
        rw [List.flatMap_cons, List.length_append, List.length_map, List.length_cons]
        omega
    exact (hlines _).trans (Text.length_splitFrom_le [] content.toList)
  unfold includedAnywhere FileLookup.lineCount
  induction ctx.store.texts with
  | nil => exact le_rfl
  | cons content texts ih =>
    have := htext content
    rw [List.flatMap_cons, List.length_append, List.foldr_cons]
    omega

theorem remaining_le (ctx : Context) (stack : List Path) :
    ctx.remaining stack ≤ ctx.store.lineCount :=
  (List.length_filter_le _ _).trans ctx.length_includedAnywhere

/-- **What is opened leaves less to open.** -/
theorem Opens.remaining_lt (h : ctx.Opens stack next) :
    ctx.remaining next < ctx.remaining stack := by
  obtain ⟨hmem, hclosed, -⟩ := h
  rename_i opened file target
  have hfilter : (ctx.includedAnywhere.filter fun p => !p.isAmong (target :: file :: opened)) =
      (ctx.includedAnywhere.filter fun p => !p.isAmong (file :: opened)).filter
        fun p => !p.sameAs target := by
    rw [List.filter_filter]
    refine List.filter_congr fun p _ => ?_
    rw [Path.isAmong, List.any_cons, Bool.not_or, ← Path.isAmong]
  rw [remaining, remaining, hfilter, List.length_filter_lt_length_iff_exists]
  refine ⟨target, List.mem_filter.mpr ⟨includedBy_subset ctx file hmem, ?_⟩, ?_⟩
  · rw [hclosed, Bool.not_false]
  · simp

/-- **Stacks do not grow forever.** -/
theorem wellFounded_opens (ctx : Context) : WellFounded fun next stack => ctx.Opens stack next :=
  Subrelation.wf Opens.remaining_lt (measure ctx.remaining).wf

/-- A stack that holds no file twice never comes to. -/
theorem Opens.allDifferent (h : ctx.Opens stack next) (hstack : Path.AllDifferent stack) :
    Path.AllDifferent next := by
  obtain ⟨-, hclosed, -⟩ := h
  exact Path.allDifferent_cons.mpr ⟨hclosed, hstack⟩

theorem allDifferent_of_reachable (h : Relation.ReflTransGen ctx.Opens [file] stack) :
    Path.AllDifferent stack := by
  induction h with
  | refl => exact List.pairwise_singleton _ _
  | tail _ hopens ih => exact hopens.allDifferent ih

end Context

/-! ### Processing without a bound -/

section Step

variable {ctx : Context} {opened : List Path} {file : Path}

/-- Processing an included file, unless it is on the stack or not there. -/
def openIncluded (ctx : Context) (opened : List Path) (file : Path)
    (run : Path → String → Progress → Except GenerationError Progress) (target : Path)
    (indent : String) (p : Progress) : Except GenerationError Progress :=
  if target.isAmong (file :: opened) then .error (.recursiveInclude target file)
  else if !ctx.store.isFile target then .error (.includeNotFound target file)
  else run target indent p

/-- The lines of a file, where `run` processes the files that they include. -/
def fileStep (ctx : Context) (opened : List Path)
    (run : Path → String → Progress → Except GenerationError Progress) (file : Path)
    (indent : String) (p : Progress) : Except GenerationError Progress :=
  match ctx.store.readText? file with
  | none => .error (.unreadableTemplate file)
  | some text =>
      (Text.split text).foldlM
        (fun p line => processLine ctx file (openIncluded ctx opened file run) indent line.ending
          (TemplateLine.parse line.body) p)
        (p.depend file)

/-- A function that processes a file on top of the stacks that arise, by one step for every file
that is opened. -/
def IsProcessing (ctx : Context) (Arises : List Path → Prop)
    (run : List Path → Path → String → Progress → Except GenerationError Progress) : Prop :=
  ∀ opened file, Arises (file :: opened) →
    run opened file = fileStep ctx opened (run (file :: opened)) file

theorem processFile_succ (ctx : Context) (fuel : Nat) (opened : List Path) (file : Path) :
    processFile ctx (fuel + 1) opened file =
      fileStep ctx opened (processFile ctx fuel (file :: opened)) file := rfl

/-- A line asks only for the files that it includes and keeps. -/
theorem processLine_congr_included {included included' : Path → String → Progress →
      Except GenerationError Progress} {indent : String} {ending : Text.Ending}
    {line : TemplateLine} (h : ∀ name ∈ line.keptIncludes ctx.active,
      included' (ctx.sharedDir.join ⟨name⟩) = included (ctx.sharedDir.join ⟨name⟩))
    (p : Progress) :
    processLine ctx file included' indent ending line p =
      processLine ctx file included indent ending line p := by
  induction line generalizing p with
  | guarded lead field rest inner ih =>
    rw [TemplateLine.keptIncludes] at h
    rw [processLine, processLine]
    cases hactivity : ctx.active.activity field with
    | always =>
      rw [hactivity] at h
      exact ih h p
    | permutations indices =>
      rw [hactivity] at h
      dsimp only
      rw [ih h]
    | never => rfl
  | included lead name =>
    rw [processLine, processLine, h name (List.mem_singleton_self name)]
  | text lead pieces => rw [processLine, processLine]

/-- A step asks only for files that are put on the stack. -/
theorem fileStep_congr {run run' : Path → String → Progress → Except GenerationError Progress}
    (h : ∀ target, ctx.Opens (file :: opened) (target :: file :: opened) →
      run' target = run target) :
    fileStep ctx opened run' file = fileStep ctx opened run file := by
  funext indent p
  unfold fileStep
  cases hread : ctx.store.readText? file with
  | none => rfl
  | some text =>
    refine Outcome.foldlM_congr fun p line hline => ?_
    refine processLine_congr_included (fun name hname => ?_) p
    funext inner p
    unfold openIncluded
    by_cases hamong : (ctx.sharedDir.join ⟨name⟩).isAmong (file :: opened) = true
    · rw [if_pos hamong, if_pos hamong]
    · rw [if_neg hamong, if_neg hamong]
      by_cases hfile : ctx.store.isFile (ctx.sharedDir.join ⟨name⟩) = true
      · have hmem := Context.mem_includedBy.mpr ⟨text, hread, line, hline, name, hname, rfl⟩
        rw [h _ (.intro hmem (Bool.not_eq_true _ ▸ hamong) hfile)]
      · rw [Bool.not_eq_true] at hfile
        rw [hfile]
        rfl

/-- Bounds that leave room for all files that can be opened make no difference. -/
theorem processFile_congr_fuel {fuel fuel' : Nat} (h : ctx.remaining (file :: opened) < fuel)
    (h' : ctx.remaining (file :: opened) < fuel') :
    processFile ctx fuel opened file = processFile ctx fuel' opened file := by
  induction fuel generalizing fuel' opened file with
  | zero => exact absurd h (Nat.not_lt_zero _)
  | succ fuel ih =>
    obtain ⟨fuel', rfl⟩ := Nat.exists_eq_add_one_of_ne_zero (Nat.ne_zero_of_lt h')
    rw [processFile_succ, processFile_succ]
    refine fileStep_congr fun target hopens => ?_
    have hless := hopens.remaining_lt
    exact ih (by omega) (by omega)

/-- There is a function that processes files without a bound. -/
theorem exists_isProcessing (ctx : Context) : ∃ run, IsProcessing ctx (fun _ => True) run := by
  refine ⟨fun opened file => processFile ctx (ctx.remaining (file :: opened) + 1) opened file,
    fun opened file _ => ?_⟩
  dsimp only
  rw [processFile_succ]
  refine fileStep_congr fun target hopens => ?_
  exact processFile_congr_fuel hopens.remaining_lt (Nat.lt_succ_self _)

variable {run : List Path → Path → String → Progress → Except GenerationError Progress}

/-- **The bound is never met**: with room for all files that can be opened, processing is the
recursion without a bound, on stacks that hold no file twice. -/
theorem processFile_eq_of_isProcessing (hrun : IsProcessing ctx Path.AllDifferent run) {fuel : Nat}
    (hstack : Path.AllDifferent (file :: opened)) (h : ctx.remaining (file :: opened) < fuel) :
    processFile ctx fuel opened file = run opened file := by
  induction fuel generalizing opened file with
  | zero => exact absurd h (Nat.not_lt_zero _)
  | succ fuel ih =>
    rw [processFile_succ, hrun _ _ hstack]
    refine fileStep_congr fun target hopens => ?_
    have hless := hopens.remaining_lt
    exact ih (hopens.allDifferent hstack) (by omega)

/-- A template is processed by the recursion without a bound. -/
theorem processTemplate_eq_of_isProcessing (hrun : IsProcessing ctx Path.AllDifferent run)
    (path : Path) :
    processTemplate ctx path =
      if !ctx.store.isFile path then .ok none else some <$> run [] path "" ⟨"", []⟩ := by
  have hroom : ctx.remaining [path] < ctx.store.lineCount + 2 := by
    have := ctx.remaining_le [path]
    omega
  rw [processTemplate, processFile_eq_of_isProcessing hrun (List.pairwise_singleton _ _) hroom]
  rfl

theorem processTemplate_eq_ok_iff {path : Path} {q : Progress} {fuel : Nat}
    (h : ctx.remaining [path] < fuel) :
    processTemplate ctx path = .ok (some q) ↔
      ctx.store.isFile path = true ∧ processFile ctx fuel [] path "" ⟨"", []⟩ = .ok q := by
  have hroom : ctx.remaining [path] < ctx.store.lineCount + 2 := by
    have := ctx.remaining_le [path]
    omega
  rw [processTemplate, processFile_congr_fuel hroom h]
  cases ctx.store.isFile path with
  | false => simp
  | true =>
    cases processFile ctx fuel [] path "" ⟨"", []⟩ with
    | error e => simp [bind, Except.bind]
    | ok q' => simp [bind, Except.bind, pure, Except.pure]

end Step

/-! ### Chains of includes -/

section Chain

variable {ctx : Context} {opened : List Path} {file target : Path}

/-- A file is processed with success on top of a stack. -/
def Succeeds (ctx : Context) (opened : List Path) (file : Path) : Prop :=
  ∃ fuel indent p q, processFile ctx fuel opened file indent p = .ok q

/-- A line that is processed has processed what it includes. -/
theorem exists_included_of_processLine {included : Path → String → Progress →
      Except GenerationError Progress} {indent : String} {ending : Text.Ending}
    {line : TemplateLine} {p q : Progress}
    (h : processLine ctx file included indent ending line p = .ok q) {name : String}
    (hname : name ∈ line.keptIncludes ctx.active) :
    ∃ inner p q, included (ctx.sharedDir.join ⟨name⟩) inner p = .ok q := by
  induction line generalizing p q with
  | guarded lead field rest inner ih =>
    rw [processLine] at h
    rw [TemplateLine.keptIncludes] at hname
    cases hactivity : ctx.active.activity field with
    | always =>
      rw [hactivity] at h hname
      exact ih h hname
    | permutations indices =>
      rw [hactivity] at h hname
      obtain ⟨q', hq', -⟩ := Outcome.bind_eq_ok_iff.mp h
      exact ih hq' hname
    | never =>
      rw [hactivity] at hname
      exact absurd hname List.not_mem_nil
  | included lead path =>
    obtain rfl := List.mem_singleton.mp hname
    obtain ⟨q', hq', -⟩ := Outcome.bind_eq_ok_iff.mp h
    exact ⟨_, _, _, hq'⟩
  | text lead pieces => exact absurd hname List.not_mem_nil

/-- What a file includes is processed on top of it. -/
theorem Succeeds.included (h : Succeeds ctx opened file) (hmem : target ∈ ctx.includedBy file) :
    target.isAmong (file :: opened) = false ∧ Succeeds ctx (file :: opened) target := by
  obtain ⟨fuel, indent, p, q, h⟩ := h
  obtain ⟨text, hread, line, hline, name, hname, rfl⟩ := Context.mem_includedBy.mp hmem
  cases fuel with
  | zero => exact absurd h (by rintro ⟨⟩)
  | succ fuel =>
    rw [processFile_succ, fileStep, hread] at h
    obtain ⟨p', q', hline⟩ := Outcome.exists_of_mem_foldlM h hline
    obtain ⟨inner, p', q', hincluded⟩ := exists_included_of_processLine hline hname
    unfold openIncluded at hincluded
    split at hincluded
    · exact absurd hincluded (by rintro ⟨⟩)
    · next hamong =>
      split at hincluded
      · exact absurd hincluded (by rintro ⟨⟩)
      · exact ⟨Bool.not_eq_true _ ▸ hamong, fuel, inner, p', q', hincluded⟩

/-- Along a chain of includes the stack grows by the files of the chain. -/
theorem Succeeds.along (h : Succeeds ctx opened file) (hclosed : file.isAmong opened = false)
    (hchain : Relation.ReflTransGen (fun f g => g ∈ ctx.includedBy f) file target) :
    ∃ opened', Succeeds ctx opened' target ∧ target.isAmong opened' = false ∧ opened ⊆ opened' ∧
      file ∈ target :: opened' := by
  induction hchain with
  | refl => exact ⟨opened, h, hclosed, List.Subset.refl _, List.mem_cons_self⟩
  | tail _ hstep ih =>
    obtain ⟨opened', hsucceeds, -, hsub, hmem⟩ := ih
    obtain ⟨hamong, hnext⟩ := hsucceeds.included hstep
    exact ⟨_, hnext, hamong, List.subset_cons_of_subset _ hsub, List.mem_cons_of_mem _ hmem⟩

/-- **Where processing succeeds, no chain of includes comes back** to a file: not to its name
under any spelling, and to no other name of a file with its text. -/
theorem Succeeds.notSame_of_chain (h : Succeeds ctx opened file)
    (hchain : Relation.TransGen (fun f g => g ∈ ctx.includedBy f) file target) :
    target.sameAs file = false ∧ ctx.store.readText? target ≠ ctx.store.readText? file := by
  obtain ⟨first, hfirst, hrest⟩ := Relation.TransGen.head'_iff.mp hchain
  obtain ⟨hclosed, hsucceeds⟩ := h.included hfirst
  obtain ⟨opened', htarget, hamong, hsub, hmem⟩ := hsucceeds.along hclosed hrest
  have hnotAmong : ∀ {q : Path} {stack : List Path}, q.isAmong stack = false →
      ∀ p ∈ stack, q.sameAs p = false := fun hq p hp => by
    rw [Path.isAmong, List.any_eq_false] at hq
    exact Bool.not_eq_true _ ▸ hq p hp
  refine ⟨hnotAmong hamong file (hsub List.mem_cons_self), fun hsame => ?_⟩
  -- the first file of the chain is included once more, and it is still open
  rw [← Context.includedBy_congr hsame] at hfirst
  have hopen := hnotAmong (htarget.included hfirst).1 first hmem
  rw [Path.sameAs_self] at hopen
  exact absurd hopen (by decide)

theorem succeeds_of_processTemplate {path : Path} {q : Progress}
    (h : processTemplate ctx path = .ok (some q)) : Succeeds ctx [] path := by
  unfold processTemplate at h
  split at h
  · exact absurd h (by rintro ⟨⟩)
  · obtain ⟨q', hq', -⟩ := Outcome.bind_eq_ok_iff.mp h
    exact ⟨_, _, _, _, hq'⟩

end Chain

end Template

open Template in
/-- **A template is processed in finitely many steps.**  Stacks of open files do not grow forever.
There is a function that processes files by opening what they include, without a bound, and any
that does so on the stacks that hold no file twice processes the template; only such stacks arise.
Where processing succeeds, the kept include lines lead from no file back to it, and where they lead
back to a file, under any spelling or under another name for its text, processing fails. -/
theorem processTemplate_terminates (ctx : Context) (path : Path) :
    (WellFounded fun next stack => ctx.Opens stack next) ∧
    (∃ run, IsProcessing ctx (fun _ => True) run) ∧
    (∀ run, IsProcessing ctx Path.AllDifferent run → processTemplate ctx path =
      if !ctx.store.isFile path then .ok none else some <$> run [] path "" ⟨"", []⟩) ∧
    (∀ stack, Relation.ReflTransGen ctx.Opens [path] stack → Path.AllDifferent stack) ∧
    (∀ q, processTemplate ctx path = .ok (some q) → ∀ file target,
      Relation.ReflTransGen (fun f g => g ∈ ctx.includedBy f) path file →
      Relation.TransGen (fun f g => g ∈ ctx.includedBy f) file target →
      target.sameAs file = false ∧ ctx.store.readText? target ≠ ctx.store.readText? file) ∧
    (ctx.store.isFile path = true → ∀ file target,
      Relation.ReflTransGen (fun f g => g ∈ ctx.includedBy f) path file →
      Relation.TransGen (fun f g => g ∈ ctx.includedBy f) file target →
      target.sameAs file = true ∨ ctx.store.readText? target = ctx.store.readText? file →
      ∃ e, processTemplate ctx path = .error e) := by
  have hnoCycle : ∀ q, processTemplate ctx path = .ok (some q) → ∀ file target,
      Relation.ReflTransGen (fun f g => g ∈ ctx.includedBy f) path file →
      Relation.TransGen (fun f g => g ∈ ctx.includedBy f) file target →
      target.sameAs file = false ∧ ctx.store.readText? target ≠ ctx.store.readText? file := by
    intro q hq file target hfile htarget
    obtain ⟨opened, hsucceeds, -⟩ := (succeeds_of_processTemplate hq).along rfl hfile
    exact hsucceeds.notSame_of_chain htarget
  refine ⟨ctx.wellFounded_opens, exists_isProcessing ctx,
    fun run hrun => processTemplate_eq_of_isProcessing hrun path,
    fun stack => Context.allDifferent_of_reachable, hnoCycle, ?_⟩
  intro hpath file target hfile htarget hback
  cases houtcome : processTemplate ctx path with
  | error e => exact ⟨e, rfl⟩
  | ok result =>
    cases result with
    | none =>
      rw [processTemplate, hpath] at houtcome
      obtain ⟨_, -, h⟩ := Outcome.bind_eq_ok_iff.mp houtcome
      exact absurd h (by rintro ⟨⟩)
    | some q =>
      obtain ⟨hname, htext⟩ := hnoCycle q houtcome file target hfile htarget
      rcases hback with hback | hback
      · rw [hname] at hback
        exact absurd hback (by rintro ⟨⟩)
      · exact absurd hback htext

end MaterialShader
