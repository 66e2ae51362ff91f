import MaterialShader.FilePlace
import MaterialShader.Proofs.IncludeStack
import MaterialShader.Proofs.IndentedLine
import MaterialShader.Proofs.SplitLine

/-!
# Templates with their includes put in place

An include line stands for the lines of a file, behind the blanks of the include line.  So a
template can be written without includes: every include line is replaced by those lines, where the
included files have been flattened in the same way.  As long as the files include each other in no
circle, this comes to an end, and the flattened template is processed like the template itself.  The
indentation of an include is handed down to the lines of the file and added up; in the flattened
template it is the start of the lines.

Both texts have the same lines except for lines of blanks, so they are compared with these counted
as empty.  Only the last line of the template itself may lack a line feed.

## Main definitions

* `Template.Flattens` — lines with their includes put in place.
* `Template.IsFlattenable` — what a template has to keep to.

## Main results

* `Template.exists_flattens`, `Template.Flattens.unique` — the includes of a template can be put
  in place, and in one way.
* `Template.alike_processLines` — the lines of a file and their flattened form are processed alike.
* `processTemplate_flattened` — a template and its flattened form are processed alike.
-/

namespace MaterialShader

/-- An include stands on a line of its own, behind no field. -/
def TemplateLine.IncludesAlone : TemplateLine → Prop
  | .guarded _ _ _ inner => inner.includes = []
  | _ => True

instance : (line : TemplateLine) → Decidable line.IncludesAlone
  | .guarded _ _ _ inner => inferInstanceAs (Decidable (inner.includes = []))
  | .included _ _ => isTrue trivial
  | .text _ _ => isTrue trivial

namespace Template

open Outcome (Alike)
open Relation (ReflTransGen TransGen)
open Text (visibleLines IsLineStart IsIndentation)

/-! ### Progress that looks alike -/

/-- Two texts at whose ends a line starts look alike. -/
structure Progress.LooksLike (p q : Progress) : Prop where
  visible : visibleLines p.text = visibleLines q.text
  left : IsLineStart p.text
  right : IsLineStart q.text

/-- Two texts go on from two others in the same way. -/
def Progress.GoesOn (s t : String) (p q : Progress) : Prop :=
  ∃ rest, p.text = s ++ rest ∧ q.text = t ++ rest

variable {indent : String} {ending : Text.Ending}

theorem Progress.LooksLike.write {p q : Progress} (h : p.LooksLike q) (he : ending ≠ .none)
    {s t : String} (hst : visibleLines (s ++ ending.text) = visibleLines (t ++ ending.text)) :
    (p.write (s ++ ending.text)).LooksLike (q.write (t ++ ending.text)) where
  visible := by
    rw [Progress.write, Progress.write, Text.visibleLines_append h.left,
      Text.visibleLines_append h.right, h.visible, hst]
  left := isLineStart_write p s he
  right := isLineStart_write q t he

theorem finishLine_of_isLineStart {p : Progress} (h : IsLineStart p.text) :
    p.finishLine = if p.text = "" then p.write "\n" else p := by
  obtain hempty | hlast := h
  · rw [if_pos hempty, Progress.finishLine, Progress.endsLine, hempty]
    rfl
  · have hne : p.text ≠ "" := by
      rintro hempty
      rw [hempty] at hlast
      exact absurd hlast (by rintro ⟨⟩)
    rw [if_neg hne, Progress.finishLine, Progress.endsLine, hlast]
    rfl

theorem carries_looksLike (hindent : IsIndentation indent) (he : ending ≠ .none) :
    Carries indent ending Progress.LooksLike where
  line h _ := h.write he rfl
  directive h _ := h.write (Text.orLineFeed_ne_none ending) rfl
  blank {p q} h := by
    have hblank := Text.visibleLines_of_isIndentation Text.isIndentation_empty he
    have hwrite := h.write he (hblank.trans (Text.visibleLines_of_isIndentation hindent he).symm)
    rwa [String.empty_append] at hwrite
  finishLine {p q} h := by
    rw [finishLine_of_isLineStart h.left, finishLine_of_isLineStart h.right]
    by_cases hempty : p.text = ""
    · rw [if_pos hempty,
        if_pos ((Text.eq_empty_iff_of_visibleLines h.left h.right h.visible).mp hempty)]
      have hfeed : Text.Ending.lf ≠ .none := by decide
      exact h.write (s := "") (t := "") hfeed rfl
    · rw [if_neg hempty, if_neg fun hq =>
        hempty ((Text.eq_empty_iff_of_visibleLines h.left h.right h.visible).mpr hq)]
      exact h

theorem Progress.GoesOn.write {s t : String} {p q : Progress} (h : p.GoesOn s t q) (u : String) :
    (p.write u).GoesOn s t (q.write u) := by
  obtain ⟨rest, hp, hq⟩ := h
  refine ⟨rest ++ u, ?_, ?_⟩
  · rw [Progress.write, hp, String.append_assoc]
  · rw [Progress.write, hq, String.append_assoc]

theorem carries_goesOn {s t : String} (hs : IsLineStart s) (ht : IsLineStart t)
    (hst : s = "" ↔ t = "") : Carries "" ending (Progress.GoesOn s t) where
  line h _ := h.write _
  directive h _ := h.write _
  blank h := by
    rw [String.empty_append]
    exact h.write _
  finishLine {p q} h := by
    have hends : p.endsLine = q.endsLine := by
      obtain ⟨rest, hp, hq⟩ := h
      unfold Progress.endsLine
      rw [hp, hq, String.toList_append, String.toList_append]
      by_cases hrest : rest.toList = []
      · rw [hrest, List.append_nil, List.append_nil]
        rcases hs with rfl | hs
        · rw [hst.mp rfl]
        · have hne : t ≠ "" := fun hempty => by
            rw [hst.mpr hempty] at hs
            exact absurd hs (by rintro ⟨⟩)
          rw [hs, ht.resolve_left hne]
      · rw [List.getLast?_append_of_ne_nil _ hrest, List.getLast?_append_of_ne_nil _ hrest]
    unfold Progress.finishLine
    rw [hends]
    split
    · exact h
    · exact h.write _

/-! ### Lines with their includes put in place -/

/-- Lines with their includes put in place. -/
inductive Flattens (ctx : Context) : List Text.Line → List Text.Line → Prop where
  | nil : Flattens ctx [] []
  /-- A line that includes nothing stays. -/
  | kept {line : Text.Line} {lines flat : List Text.Line}
      (hline : (TemplateLine.parse line.body).includes = []) (hrest : Flattens ctx lines flat) :
      Flattens ctx (line :: lines) (line :: flat)
  /-- The lines of an included file stand behind the blanks of the include line. -/
  | included {line : Text.Line} {lines inner flat : List Text.Line} {lead name text : String}
      (hline : TemplateLine.parse line.body = .included lead name)
      (hread : ctx.store.readText? (ctx.sharedDir.join ⟨name⟩) = some text)
      (hinner : Flattens ctx (Text.split text) inner) (hrest : Flattens ctx lines flat) :
      Flattens ctx (line :: lines) (inner.map (Text.Line.indented lead) ++ flat)

theorem Flattens.unique {ctx : Context} {lines flat flat' : List Text.Line}
    (h : Flattens ctx lines flat) (h' : Flattens ctx lines flat') : flat = flat' := by
  induction h generalizing flat' with
  | nil =>
    cases h'
    rfl
  | kept hline _ ih =>
    cases h' with
    | kept _ hrest => rw [ih hrest]
    | included hline' _ _ _ =>
      rw [hline'] at hline
      exact absurd hline (by rintro ⟨⟩)
  | included hline hread _ _ ihInner ih =>
    cases h' with
    | kept hline' _ =>
      rw [hline] at hline'
      exact absurd hline' (by rintro ⟨⟩)
    | included hline' hread' hinner' hrest' =>
      obtain ⟨rfl, rfl⟩ := TemplateLine.included.inj (hline.symm.trans hline')
      obtain rfl := Option.some.inj (hread.symm.trans hread')
      rw [ihInner hinner', ih hrest']

/-- A file includes another one. -/
def Context.Includes (ctx : Context) (file target : Path) : Prop := target ∈ ctx.includedBy file

/-- What a template has to keep to: no file includes itself, also not through others, the included
files are there and all of their lines end in line feeds, and includes stand alone. -/
structure IsFlattenable (ctx : Context) (path : Path) : Prop where
  acyclic : ∀ file, ReflTransGen ctx.Includes path file → ¬TransGen ctx.Includes file file
  lines : ∀ file, TransGen ctx.Includes path file → ∃ text, ctx.store.readText? file = some text ∧
    ∀ line ∈ Text.split text, line.ending = .lf
  alone : ∀ file text, ReflTransGen ctx.Includes path file → ctx.store.readText? file = some text →
    ∀ line ∈ Text.split text, (TemplateLine.parse line.body).IncludesAlone

/-- Files in an order in which each includes later ones only. -/
theorem isFlattenable_of_files {ctx : Context} {path : Path} (files : List Path)
    (hpath : path ∈ files)
    (hincludes : ∀ f ∈ files, ∀ g ∈ ctx.includedBy f, g ∈ files ∧ files.idxOf f < files.idxOf g ∧
      ∃ text ∈ ctx.store.readText? g, ∀ line ∈ Text.split text, line.ending = .lf)
    (halone : ∀ f ∈ files, ∀ text ∈ ctx.store.readText? f, ∀ line ∈ Text.split text,
      (TemplateLine.parse line.body).IncludesAlone) : IsFlattenable ctx path := by
  have hfiles : ∀ file, ReflTransGen ctx.Includes path file → file ∈ files := by
    intro file h
    induction h with
    | refl => exact hpath
    | tail _ hstep ih => exact (hincludes _ ih _ hstep).1
  have hlater : ∀ file target, file ∈ files → TransGen ctx.Includes file target →
      target ∈ files ∧ files.idxOf file < files.idxOf target := by
    intro file target hfile h
    induction h with
    | single hstep => exact ⟨(hincludes _ hfile _ hstep).1, (hincludes _ hfile _ hstep).2.1⟩
    | tail _ hstep ih =>
      obtain ⟨hmem, hless, -⟩ := hincludes _ ih.1 _ hstep
      exact ⟨hmem, ih.2.trans hless⟩
  refine ⟨fun file h hcycle => ?_, fun file h => ?_,
    fun file text h => halone file (hfiles file h) text⟩
  · exact Nat.lt_irrefl _ (hlater file file (hfiles file h) hcycle).2
  · obtain ⟨last, hlast, hstep⟩ := TransGen.tail'_iff.mp h
    exact (hincludes last (hfiles last hlast) file hstep).2.2

/-- The files on a stack lead from the template to the file that is processed. -/
def IsOpen (ctx : Context) (path : Path) (opened : List Path) (file : Path) : Prop :=
  ∀ f ∈ file :: opened, ReflTransGen ctx.Includes path f ∧ ReflTransGen ctx.Includes f file

section Stack

variable {ctx : Context} {path file target : Path} {opened : List Path}

theorem isOpen_self (ctx : Context) (path : Path) : IsOpen ctx path [] path :=
  List.forall_mem_singleton.mpr ⟨.refl, .refl⟩

theorem IsOpen.included (h : IsOpen ctx path opened file) (hmem : ctx.Includes file target) :
    IsOpen ctx path (file :: opened) target := by
  refine List.forall_mem_cons.mpr ⟨⟨?_, .refl⟩, fun f hf => ⟨(h f hf).1, (h f hf).2.tail hmem⟩⟩
  exact (h file List.mem_cons_self).1.tail hmem

theorem IsOpen.transGen (h : IsOpen ctx path opened file) (hmem : ctx.Includes file target) :
    TransGen ctx.Includes path target :=
  TransGen.tail' (h file List.mem_cons_self).1 hmem

/-- **What is included is not open**, under no spelling: the file that is open would include itself
by way of what it includes first. -/
theorem IsOpen.isAmong_eq_false (h : IsOpen ctx path opened file) (hflat : IsFlattenable ctx path)
    (hmem : ctx.Includes file target) : target.isAmong (file :: opened) = false := by
  rw [← Bool.not_eq_true]
  intro hamong
  obtain ⟨f, hf, hsame⟩ := List.any_eq_true.mp hamong
  obtain ⟨hpath, hfile⟩ := h f hf
  obtain ⟨first, hfirst, hrest⟩ := TransGen.head'_iff.mp (TransGen.tail' hfile hmem)
  obtain ⟨text, hread, -⟩ := Context.mem_includedBy.mp hfirst
  obtain ⟨text', hread', -⟩ := hflat.lines target (h.transGen hmem)
  have htext := ctx.store.readText?_eq_of_sameAs
    (ctx.store.endsInName_of_isFile (ctx.store.isFile_of_readText? hread'))
    (ctx.store.endsInName_of_isFile (ctx.store.isFile_of_readText? hread)) hsame
  have hagain : ctx.Includes target first := by
    rw [Context.Includes, Context.includedBy_congr htext]
    exact hfirst
  exact hflat.acyclic first (hpath.tail hfirst) (TransGen.tail' hrest hagain)

theorem Context.includes_of_line {text lead name : String} {line : Text.Line}
    (hread : ctx.store.readText? file = some text) (hline : line ∈ Text.split text)
    (hparse : TemplateLine.parse line.body = .included lead name) :
    ctx.Includes file (ctx.sharedDir.join ⟨name⟩) := by
  refine Context.mem_includedBy.mpr ⟨text, hread, line, hline, name, ?_, rfl⟩
  rw [hparse]
  exact List.mem_singleton_self name

/-- What an include line adds stands behind blanks, and its lines have terminators. -/
theorem IsFlattenable.of_included (hflat : IsFlattenable ctx path) {text text' lead name : String}
    {line : Text.Line} (hfile : ReflTransGen ctx.Includes path file)
    (hread : ctx.store.readText? file = some text) (hline : line ∈ Text.split text)
    (hparse : TemplateLine.parse line.body = .included lead name)
    (hread' : ctx.store.readText? (ctx.sharedDir.join ⟨name⟩) = some text') :
    ctx.Includes file (ctx.sharedDir.join ⟨name⟩) ∧
      (∀ line ∈ Text.split text', line.ending ≠ .none) ∧ IsIndentation lead := by
  have hmem := Context.includes_of_line hread hline hparse
  refine ⟨hmem, fun line hline => ?_, ?_⟩
  · obtain ⟨text'', hread'', hlf⟩ := hflat.lines _ (TransGen.tail' hfile hmem)
    obtain rfl := Option.some.inj (hread'.symm.trans hread'')
    rw [hlf line hline]
    rintro ⟨⟩
  · have hindented := isIndented_parse (Text.newline_notMem_body hline)
    rw [hparse] at hindented
    exact hindented

/-- The includes of a template can be put in place. -/
theorem exists_flattens (hflat : IsFlattenable ctx path) {text : String}
    (hopen : IsOpen ctx path opened file) (hread : ctx.store.readText? file = some text) :
    ∃ flat, Flattens ctx (Text.split text) flat := by
  -- the induction is on the stack, which does not grow forever
  obtain ⟨stack, hstack⟩ : ∃ stack, stack = file :: opened := ⟨_, rfl⟩
  induction stack using ctx.wellFounded_opens.induction generalizing opened file text with
  | _ stack ih =>
    have hpart : ∀ lines, lines ⊆ Text.split text → ∃ flat, Flattens ctx lines flat := by
      intro lines hlines
      induction lines with
      | nil => exact ⟨[], .nil⟩
      | cons line lines ihLines =>
        obtain ⟨hline, hlines⟩ := List.cons_subset.mp hlines
        obtain ⟨flat, hrest⟩ := ihLines hlines
        have halone := hflat.alone file text (hopen file List.mem_cons_self).1 hread line hline
        cases hparse : TemplateLine.parse line.body with
        | guarded lead field rest inner =>
          rw [hparse] at halone
          exact ⟨_, .kept (by rw [hparse]; exact halone) hrest⟩
        | text lead pieces => exact ⟨_, .kept (by rw [hparse]; rfl) hrest⟩
        | included lead name =>
          have hmem := Context.includes_of_line hread hline hparse
          obtain ⟨inner, hinner, -⟩ := hflat.lines _ (hopen.transGen hmem)
          have hopens := Context.Opens.intro hmem (hopen.isAmong_eq_false hflat hmem)
            (ctx.store.isFile_of_readText? hinner)
          obtain ⟨flatInner, hflatInner⟩ :=
            ih _ (hstack ▸ hopens) (hopen.included hmem) hinner rfl
          exact ⟨_, .included hparse hinner hflatInner hrest⟩
    exact hpart _ (List.Subset.refl _)

end Stack

/-! ### Processing with includes and without -/

/-- The lines of a file, one after the other. -/
def processLines (ctx : Context) (file : Path)
    (included : Path → String → Progress → Except GenerationError Progress) (indent : String)
    (lines : List Text.Line) (p : Progress) : Except GenerationError Progress :=
  lines.foldlM (fun p line =>
    processLine ctx file included indent line.ending (TemplateLine.parse line.body) p) p

variable {ctx : Context} {path file file' target : Path} {opened : List Path}
  {included included' : Path → String → Progress → Except GenerationError Progress}
  {run : List Path → Path → String → Progress → Except GenerationError Progress}

theorem processLines_cons (line : Text.Line) (lines : List Text.Line) (p : Progress) :
    processLines ctx file included indent (line :: lines) p =
      processLine ctx file included indent line.ending (TemplateLine.parse line.body) p >>=
        processLines ctx file included indent lines := List.foldlM_cons

theorem processLines_append (lines lines' : List Text.Line) (p : Progress) :
    processLines ctx file included indent (lines ++ lines') p =
      processLines ctx file included indent lines p >>=
        processLines ctx file included indent lines' := List.foldlM_append

/-- **A line that stays** is processed alike where it stands behind its indentation. -/
theorem alike_keptLine {line : Text.Line} {R : Progress → Progress → Prop}
    (hR : Carries indent line.ending R) (hindent : IsIndentation indent) (store : FileLookup)
    (hline : (TemplateLine.parse line.body).includes = []) {p q : Progress} (h : R p q) :
    Alike R (processLine ctx file included indent line.ending (TemplateLine.parse line.body) p)
      (processLine { ctx with store := store } file' included' "" line.ending
        (TemplateLine.parse (line.indented indent).body) q) := by
  by_cases hbody : line.body = []
  · have hempty : TemplateLine.parse [] = .text "" [] := by
      rw [TemplateLine.parse]
      rfl
    rw [Text.Line.indented_of_nil hbody, hbody, hempty]
    exact hR.line h ""
  · have hblanks : ∀ c ∈ indent.toList, Text.isBlank c = true := fun c hc => (hindent c hc).1
    rw [Text.Line.body_indented hbody, parse_append hblanks, String.ofList_toList]
    exact alike_processLine hR store file file' hline h

/-- **The lines of a file** and their flattened form are processed alike. -/
theorem alike_processLines (hrun : IsProcessing ctx (fun _ => True) run)
    (hflat : IsFlattenable ctx path) (store : FileLookup) {lines flat : List Text.Line}
    (h : Flattens ctx lines flat) {text : String} (hopen : IsOpen ctx path opened file)
    (hread : ctx.store.readText? file = some text) (hlines : lines ⊆ Text.split text)
    (hends : ∀ line ∈ lines.dropLast, line.ending ≠ .none) (hindent : IsIndentation indent)
    (hinner : indent = "" ∨ ∀ line ∈ lines, line.ending ≠ .none) {p q : Progress}
    (hpq : p.LooksLike q) :
    Alike (fun p q => visibleLines p.text = visibleLines q.text ∧
        ((∀ line ∈ lines, line.ending ≠ .none) → p.LooksLike q))
      (processLines ctx file (openIncluded ctx opened file (run (file :: opened))) indent lines p)
      (processLines { ctx with store := store } file' included' ""
        (flat.map (Text.Line.indented indent)) q) := by
  induction h generalizing opened file text indent p q with
  | nil => exact ⟨hpq.visible, fun _ => hpq⟩
  | @kept line lines flat hline hrest ih =>
    obtain ⟨hmem, hlines⟩ := List.cons_subset.mp hlines
    obtain ⟨hfirst, hlater⟩ := Text.forall_dropLast_cons hends
    rw [List.map_cons, processLines_cons, processLines_cons]
    by_cases hend : line.ending = .none
    · -- the last line of the template goes on from what looks alike in the same way
      obtain rfl : lines = [] := by_contra fun hne => hfirst hne hend
      obtain rfl : flat = [] := by
        cases hrest
        rfl
      obtain rfl : indent = "" :=
        hinner.resolve_right fun hall => hall line List.mem_cons_self hend
      have hempty := Text.eq_empty_iff_of_visibleLines hpq.left hpq.right hpq.visible
      have hgoesOn : p.GoesOn p.text q.text q := ⟨"", by rw [String.append_empty],
        by rw [String.append_empty]⟩
      refine (alike_keptLine (carries_goesOn hpq.left hpq.right hempty) hindent store hline
        hgoesOn).bind ?_
      rintro p' q' ⟨rest, hp', hq'⟩
      refine ⟨?_, fun hall => absurd hend (hall line List.mem_cons_self)⟩
      rw [hp', hq', Text.visibleLines_append hpq.left, Text.visibleLines_append hpq.right,
        hpq.visible]
    · refine (alike_keptLine (carries_looksLike hindent hend) hindent store hline hpq).bind ?_
      intro p' q' hpq'
      have hrest := ih hopen hread hlines hlater hindent
        (hinner.imp_right fun hall => (List.forall_mem_cons.mp hall).2) hpq'
      exact hrest.mono fun p q h => ⟨h.1, fun hall => h.2 (List.forall_mem_cons.mp hall).2⟩
  | @included line lines inner flat lead name text' hline hread' hflatInner hrest ihInner ih =>
    obtain ⟨hmem, hlines⟩ := List.cons_subset.mp hlines
    obtain ⟨-, hlater⟩ := Text.forall_dropLast_cons hends
    obtain ⟨htarget, hterminated, hlead⟩ := hflat.of_included (hopen file List.mem_cons_self).1
      hread hmem hline hread'
    -- the file is processed on top of the stack, with the blanks of both lines
    have hrunTarget : ∀ p, openIncluded ctx opened file (run (file :: opened))
        (ctx.sharedDir.join ⟨name⟩) (indent ++ lead) p =
        processLines ctx (ctx.sharedDir.join ⟨name⟩) (openIncluded ctx (file :: opened)
          (ctx.sharedDir.join ⟨name⟩) (run (ctx.sharedDir.join ⟨name⟩ :: file :: opened)))
          (indent ++ lead) (Text.split text') (p.depend (ctx.sharedDir.join ⟨name⟩)) := by
      intro p
      rw [openIncluded, hopen.isAmong_eq_false hflat htarget, ctx.store.isFile_of_readText? hread',
        hrun _ _ trivial, fileStep, hread']
      rfl
    have hindented : (inner.map (Text.Line.indented lead) ++ flat).map
          (Text.Line.indented indent) =
        inner.map (Text.Line.indented (indent ++ lead)) ++
          flat.map (Text.Line.indented indent) := by
      rw [List.map_append, List.map_map]
      refine congrArg (· ++ _) (List.map_congr_left fun l _ => ?_)
      exact Text.Line.indented_indented indent lead l
    have hdepend : (p.depend (ctx.sharedDir.join ⟨name⟩)).LooksLike q :=
      ⟨by rw [Progress.text_depend, hpq.visible], by rw [Progress.text_depend]; exact hpq.left,
        hpq.right⟩
    have hincluded := ihInner (hopen.included htarget) hread' (List.Subset.refl _)
      (fun line hline => hterminated line (List.dropLast_subset _ hline)) (hindent.append hlead)
      (Or.inr hterminated) hdepend
    rw [processLines_cons, hline, processLine, hrunTarget, hindented, processLines_append]
    refine Alike.bind (R := Progress.LooksLike) ?_ fun p' q' hpq' => ?_
    · rw [← bind_pure (processLines { ctx with store := store } _ _ _ _ q)]
      refine hincluded.bind fun p' q' hpq' => ?_
      obtain ⟨-, hlooks⟩ := hpq'
      have hended : (p'.text.isEmpty || p'.endsLine) = true := by
        rcases (hlooks hterminated).left with hempty | hlast
        · rw [hempty]
          rfl
        · rw [Progress.endsLine, hlast]
          exact Bool.or_true _
      rw [if_pos hended]
      exact hlooks hterminated
    · have hrest := ih hopen hread hlines hlater hindent
        (hinner.imp_right fun hall => (List.forall_mem_cons.mp hall).2) hpq'
      exact hrest.mono fun p q h => ⟨h.1, fun hall => h.2 (List.forall_mem_cons.mp hall).2⟩

/-! ### Templates -/

/-- Only the last line of flattened lines can lack a terminator, and all of them are read back. -/
theorem isSplit_flattens (hflat : IsFlattenable ctx path) {lines flat : List Text.Line}
    (h : Flattens ctx lines flat) {text : String} (hfile : ReflTransGen ctx.Includes path file)
    (hread : ctx.store.readText? file = some text) (hlines : lines ⊆ Text.split text)
    (hends : ∀ line ∈ lines.dropLast, line.ending ≠ .none) :
    (∀ line ∈ flat, line.IsSplit) ∧ (∀ line ∈ flat.dropLast, line.ending ≠ .none) ∧
      ((∀ line ∈ lines, line.ending ≠ .none) → ∀ line ∈ flat, line.ending ≠ .none) := by
  induction h generalizing file text with
  | nil => exact ⟨List.forall_mem_nil _, List.forall_mem_nil _, fun _ => List.forall_mem_nil _⟩
  | @kept line lines flat hline hrest ih =>
    obtain ⟨hmem, hlines⟩ := List.cons_subset.mp hlines
    obtain ⟨hfirst, hlater⟩ := Text.forall_dropLast_cons hends
    obtain ⟨hsplit, hlast, hall⟩ := ih hfile hread hlines hlater
    refine ⟨List.forall_mem_cons.mpr ⟨Text.isSplit_of_mem_split hmem, hsplit⟩, ?_, ?_⟩
    · cases flat with
      | nil => exact List.forall_mem_nil _
      | cons next flat =>
        have hne : lines ≠ [] := by
          rintro rfl
          cases hrest
        rw [List.dropLast_cons_of_ne_nil (List.cons_ne_nil _ _)]
        exact List.forall_mem_cons.mpr ⟨hfirst hne, hlast⟩
    · intro hterminated
      obtain ⟨hend, hends⟩ := List.forall_mem_cons.mp hterminated
      exact List.forall_mem_cons.mpr ⟨hend, hall hends⟩
  | @included line lines inner flat lead name text' hline hread' hflatInner hrest ihInner ih =>
    obtain ⟨hmem, hlines⟩ := List.cons_subset.mp hlines
    obtain ⟨-, hlater⟩ := Text.forall_dropLast_cons hends
    obtain ⟨htarget, hterminated, hlead⟩ := hflat.of_included hfile hread hmem hline hread'
    obtain ⟨hsplit, hlast, hall⟩ := ih hfile hread hlines hlater
    obtain ⟨hinner, -, hinnerEnds⟩ := ihInner (hfile.tail htarget) hread' (List.Subset.refl _)
      fun line hline => hterminated line (List.dropLast_subset _ hline)
    have hindented : ∀ line ∈ inner.map (Text.Line.indented lead), line.ending ≠ .none :=
      List.forall_mem_map.mpr (hinnerEnds hterminated)
    refine ⟨List.forall_mem_append.mpr ⟨List.forall_mem_map.mpr fun line hline =>
      (hinner line hline).indented hlead, hsplit⟩, ?_, fun hends => ?_⟩
    · by_cases hnil : flat = []
      · rw [hnil, List.append_nil]
        exact fun line hline => hindented line (List.dropLast_subset _ hline)
      · rw [List.dropLast_append_of_ne_nil hnil]
        exact List.forall_mem_append.mpr ⟨hindented, hlast⟩
    · exact List.forall_mem_append.mpr ⟨hindented, hall (List.forall_mem_cons.mp hends).2⟩

theorem processTemplate_eq_processLines (hrun : IsProcessing ctx (fun _ => True) run)
    {text : String} (hread : ctx.store.readText? path = some text) :
    processTemplate ctx path =
      processLines ctx path (openIncluded ctx [] path (run [path])) "" (Text.split text)
        (Progress.depend ⟨"", []⟩ path) >>= fun q => pure (some q) := by
  rw [processTemplate_eq_of_isProcessing fun opened file _ => hrun opened file trivial,
    ctx.store.isFile_of_readText? hread, hrun [] path trivial, fileStep, hread, map_eq_pure_bind]
  rfl

/-- A file and a file with its flattened lines are processed alike. -/
theorem alike_processTemplate (hflat : IsFlattenable ctx path) {text : String}
    (hread : ctx.store.readText? path = some text) {flat : List Text.Line}
    (h : Flattens ctx (Text.split text) flat) {store : FileLookup} {path' : Path}
    (hread' : store.readText? path' = some (Text.ofLines flat)) :
    Alike (fun result result' => ∃ q q', result = some q ∧ result' = some q' ∧
        visibleLines q.text = visibleLines q'.text)
      (processTemplate ctx path) (processTemplate { ctx with store := store } path') := by
  obtain ⟨run, hrun⟩ := exists_isProcessing ctx
  obtain ⟨run', hrun'⟩ := exists_isProcessing { ctx with store := store }
  have hends : ∀ line ∈ (Text.split text).dropLast, line.ending ≠ .none :=
    fun _ hline => Text.ending_ne_none_of_mem_dropLast hline
  obtain ⟨hsplit, hlast, -⟩ := isSplit_flattens hflat h .refl hread (List.Subset.refl _) hends
  have hindented : flat.map (Text.Line.indented "") = flat := by
    rw [List.map_congr_left fun l _ => l.indented_empty, List.map_id']
  have hstart : (Progress.depend ⟨"", []⟩ path).LooksLike (Progress.depend ⟨"", []⟩ path') :=
    ⟨rfl, Or.inl rfl, Or.inl rfl⟩
  rw [processTemplate_eq_processLines hrun hread, processTemplate_eq_processLines hrun' hread',
    Text.split_ofLines hsplit hlast, ← hindented]
  refine (alike_processLines hrun hflat store h (isOpen_self ctx path) hread
    (List.Subset.refl _) hends Text.isIndentation_empty (Or.inl rfl) hstart).bind ?_
  exact fun q q' hq => ⟨q, q', rfl, rfl, hq.1⟩

end Template

open Template in
/-- **A template and its flattened form** are processed alike: there is one flattened form, the one
is processed with success exactly if the other is, and the texts have the same lines if lines of
blanks count as empty. -/
theorem processTemplate_flattened {ctx : Context} {path : Path} {text : String}
    (hread : ctx.store.readText? path = some text) (hflat : IsFlattenable ctx path) :
    (∃! flat, Flattens ctx (Text.split text) flat) ∧
    ∀ flat, Flattens ctx (Text.split text) flat → ∀ (store : FileLookup) (path' : Path),
      store.readText? path' = some (Text.ofLines flat) →
      ((∃ q, processTemplate ctx path = .ok (some q)) ↔
        ∃ q', processTemplate { ctx with store := store } path' = .ok (some q')) ∧
      ∀ q q', processTemplate ctx path = .ok (some q) →
        processTemplate { ctx with store := store } path' = .ok (some q') →
        Text.visibleLines q.text = Text.visibleLines q'.text := by
  obtain ⟨flat, hflatten⟩ := exists_flattens hflat (isOpen_self ctx path) hread
  refine ⟨⟨flat, hflatten, fun flat' h => h.unique hflatten⟩, fun flat h store path' hread' => ?_⟩
  obtain ⟨e, e', hfails, hfails'⟩ | ⟨_, _, hok, hok', q, q', rfl, rfl, hvisible⟩ :=
    (alike_processTemplate hflat hread h hread').cases
  · rw [hfails, hfails']
    exact ⟨⟨fun ⟨_, h⟩ => absurd h (by rintro ⟨⟩), fun ⟨_, h⟩ => absurd h (by rintro ⟨⟩)⟩,
      fun _ _ h => absurd h (by rintro ⟨⟩)⟩
  · rw [hok, hok']
    refine ⟨⟨fun _ => ⟨q', rfl⟩, fun _ => ⟨q, rfl⟩⟩, fun _ _ h h' => ?_⟩
    obtain rfl := Option.some.inj (Except.ok.inj h)
    obtain rfl := Option.some.inj (Except.ok.inj h')
    exact hvisible

/-- A template that includes a file that includes another.  One section has two lines, and one is
empty. -/
def nestedTemplate : Template.Context where
  store := FileStore.lookup ⟨[], [
    (["T"], .text "a\r\n  $include(\"I\")\n$include(\".//J\")"),
    (["D", "I"], .text "$V.a: x\n\n\t$include(\"J\")\n$splice(E)\n"),
    (["D", "J"], .text "y $splice(P)\n")]⟩
  sharedDir := ⟨"D"⟩
  sections := [("P", "p\nq"), ("E", "")]
  active := ⟨[], [[⟨"V.a"⟩], []]⟩
  debug := false

/-- The template with its includes put in place. -/
def flatTemplate : Template.Context :=
  { nestedTemplate with store := FileStore.lookup ⟨[], [(["T"], .text
    "a\r\n  $V.a: x\n\n  \ty $splice(P)\n  $splice(E)\ny $splice(P)\n")]⟩ }

theorem processTemplate_flattened_nested :
    Template.IsFlattenable nestedTemplate ⟨"T"⟩ ∧
      ∃ q q', processTemplate nestedTemplate ⟨"T"⟩ = .ok (some q) ∧
        processTemplate flatTemplate ⟨"T"⟩ = .ok (some q') ∧ q.text ≠ q'.text ∧
        Text.visibleLines q.text = Text.visibleLines q'.text := by
  have hflat : Template.IsFlattenable nestedTemplate ⟨"T"⟩ := by
    refine Template.isFlattenable_of_files [⟨"T"⟩, ⟨"D/I"⟩, ⟨"D/J"⟩, ⟨"D/.//J"⟩]
      List.mem_cons_self ?_ ?_
    · decide +kernel
    · decide +kernel
  have hread : nestedTemplate.store.readText? ⟨"T"⟩ =
      some "a\r\n  $include(\"I\")\n$include(\".//J\")" := by decide +kernel
  have hJ : Template.Flattens nestedTemplate (Text.split "y $splice(P)\n")
      [⟨"y $splice(P)".toList, .lf⟩] := .kept (by decide +kernel) .nil
  have hI : Template.Flattens nestedTemplate
      (Text.split "$V.a: x\n\n\t$include(\"J\")\n$splice(E)\n") _ :=
    .kept (by decide +kernel) (.kept (by decide +kernel) (.included
      (by rw [TemplateLine.parse]; rfl) (by decide +kernel) hJ (.kept (by decide +kernel) .nil)))
  have hT : Template.Flattens nestedTemplate
      (Text.split "a\r\n  $include(\"I\")\n$include(\".//J\")") _ :=
    .kept (by decide +kernel) (.included (by rw [TemplateLine.parse]; rfl) (by decide +kernel) hI
      (.included (by rw [TemplateLine.parse]; rfl) (by decide +kernel) hJ .nil))
  have hok : processTemplate nestedTemplate ⟨"T"⟩ = .ok (some
      ⟨"a\r\n  #if defined(KEYWORD_PERMUTATION_0)\n  x\n  #endif\n\n  \ty p\n  \tq\n\ny p\nq\n",
        [⟨"T"⟩, ⟨"D/I"⟩, ⟨"D/J"⟩]⟩) := by decide +kernel
  have hok' : processTemplate flatTemplate ⟨"T"⟩ = .ok (some
      ⟨"a\r\n  #if defined(KEYWORD_PERMUTATION_0)\n  x\n  #endif\n\n  \ty p\n  \tq\n  \ny p\nq\n",
        [⟨"T"⟩]⟩) := by decide +kernel
  obtain ⟨-, hvisible⟩ := (processTemplate_flattened hread hflat).2 _ hT flatTemplate.store ⟨"T"⟩
    (by decide +kernel)
  exact ⟨hflat, _, _, hok, hok', by decide, hvisible _ _ hok hok'⟩

end MaterialShader
