import MaterialShader.FilePlace
import MaterialShader.Proofs.SplicedSection
import MaterialShader.Shader.Config
import MaterialShader.Shader.Sections
import MaterialShader.Target.Preview
import MaterialShader.Target.Universal

/-!
# The shipped templates

The passes of the shipped targets share two templates.  These name tokens that every pass has
sections for, and the files they include lie beside each other in the shared directory and include
nothing.  So they are processed wherever a configuration finds them.  That a template names
nothing else is read off its lines, one by one.

## Main definitions

* `sectionNames` — the names of the sections of a pass.
* `Shipped.IsIn` — the shipped files lie where a configuration looks for them.
* `Shipped.passes` — the passes of the shipped targets.

## Main results

* `Text.exists_mem_of_split_file` — the lines of a shipped file are the ones it is made of.
* `map_fst_passSections` — a pass has a section for each of the names.
* `Shipped.exists_templateTranscript` — a shipped template is processed.
-/

namespace MaterialShader

open Template (AsksOnly)

/-! ### Files of lines -/

namespace Text

variable {lines : List String}

/-- A file of lines is read as these lines. -/
theorem bodies_file (hne : lines ≠ []) (h : ∀ line ∈ lines, IsOneLine line) :
    bodies (Shipped.file lines) = lines := by
  rw [Shipped.file, ← terminated_eq_joinLines hne, bodies_terminated h]

theorem exists_mem_of_split_file (hne : lines ≠ []) (h : ∀ line ∈ lines, IsOneLine line)
    {l : Line} (hl : l ∈ split (Shipped.file lines)) : ∃ line ∈ lines, l.body = line.toList := by
  have hbody : String.ofList l.body ∈ bodies (Shipped.file lines) := List.mem_map_of_mem hl
  rw [bodies_file hne h] at hbody
  exact ⟨_, hbody, (String.toList_ofList).symm⟩

end Text

/-! ### Sections -/

/-- The names of the sections of a pass. -/
def sectionNames : List String :=
  ["PassName", "LightMode", "RenderState", "PassPragmas", "PassKeywords", "GraphKeywords",
    "PassDefines", "FieldDefines", "ShaderPass", "GraphDefines", "PreGraphIncludes", "PassStructs",
    "InterpolatorPack", "GraphProperties", "InstancedProperties", "GraphFunctions", "GraphVertex",
    "GraphPixel", "PostGraphIncludes", "Debug"]

namespace Sections

theorem foldl_set_eq_append {texts : List (String × String)} {s : Sections}
    (h : ((s ++ texts).map Prod.fst).Nodup) :
    texts.foldl (fun s p => s.set p.1 p.2) s = s ++ texts := by
  induction texts generalizing s with
  | nil => exact (List.append_nil s).symm
  | cons p texts ih =>
    have hfresh : p.1 ∉ s.map Prod.fst := by
      rw [List.map_append, List.map_cons, List.nodup_append'] at h
      exact fun hmem => h.2.2 hmem List.mem_cons_self
    have hset : s.set p.1 p.2 = s ++ [p] := if_neg (by simpa using hfresh)
    rw [List.foldl_cons, hset, ih (by rwa [List.append_assoc, List.singleton_append]),
      List.append_assoc, List.singleton_append]

/-- Sections that are added under different names stay as they are. -/
theorem ofList_eq_self {texts : List (String × String)} (h : (texts.map Prod.fst).Nodup) :
    ofList texts = texts := foldl_set_eq_append h

theorem get?_ne_none {s : Sections} {name : String} (h : name ∈ s.map Prod.fst) :
    s.get? name ≠ none := by
  obtain ⟨p, hp, rfl⟩ := List.mem_map.mp h
  intro hnone
  have hall := List.lookup_eq_none_iff.mp hnone p hp
  simp at hall

end Sections

/-- **A pass has a section for each of the names.** -/
theorem map_fst_passSections {m : Material} {p : Pass} {f : PassFields} {debug : Bool}
    {s : Sections} (h : passSections m p f debug = .ok s) : s.map Prod.fst = sectionNames := by
  obtain ⟨helpers, -, h⟩ := Outcome.bind_eq_ok_iff.mp h
  obtain ⟨vertex, -, h⟩ := Outcome.bind_eq_ok_iff.mp h
  obtain ⟨pixel, -, h⟩ := Outcome.bind_eq_ok_iff.mp h
  have hnodup : sectionNames.Nodup := by decide
  rw [← Outcome.pure_eq_ok_iff.mp h, Sections.ofList_eq_self]
  · rfl
  · exact hnodup

/-! ### What the shipped files name -/

namespace Shipped

/-- The files that the templates include. -/
def includedNames : List String :=
  ["BuildVertexDescriptionInputs.template.hlsl", "BuildSurfaceDescriptionInputs.template.hlsl",
    "PreviewMain.template.hlsl"]

/-- The characters are those of a line that names no other tokens and files than the given
ones. -/
def lineAsksOnly (names paths : List String) (line : List Char) : Bool :=
  !line.contains '\n' && !line.contains '\r' &&
    (TemplateLine.parse line).tokens.all names.contains &&
      (TemplateLine.parse line).includes.all paths.contains

variable {names paths lines : List String} {line : String} {chars : List Char}

/-- Lines are checked by their characters; a literal is made of them, but taking it apart again
is no computation to rely on. -/
theorem lineAsksOnly_of_chars (hline : line = String.ofList chars)
    (h : lineAsksOnly names paths chars = true) : lineAsksOnly names paths line.toList = true := by
  rw [hline, String.toList_ofList]
  exact h

theorem lineAsksOnly_append {other : String} {chars' : List Char}
    (hline : line = String.ofList chars) (hother : other = String.ofList chars')
    (h : lineAsksOnly names paths (chars ++ chars') = true) :
    lineAsksOnly names paths (line ++ other).toList = true :=
  lineAsksOnly_of_chars (by rw [hline, hother, String.ofList_append]) h

theorem lineAsksOnly_iff : lineAsksOnly names paths line.toList = true ↔
    Text.IsOneLine line ∧ (TemplateLine.parse line.toList).tokens ⊆ names ∧
      (TemplateLine.parse line.toList).includes ⊆ paths := by
  simp only [lineAsksOnly, Text.IsOneLine, Bool.and_eq_true, Bool.not_eq_true', List.all_eq_true,
    List.contains_iff_mem, and_assoc, ← Bool.not_eq_true, List.subset_def]

/-- A file of lines has these lines, and names what they name. -/
theorem asksOnly_file (hne : lines ≠ [])
    (h : ∀ line ∈ lines, lineAsksOnly names paths line.toList = true) :
    AsksOnly names paths (file lines) ∧ Text.bodies (file lines) = lines := by
  have hlines : ∀ line ∈ lines, Text.IsOneLine line := fun line hline =>
    (lineAsksOnly_iff.mp (h line hline)).1
  refine ⟨fun l hl => ?_, Text.bodies_file hne hlines⟩
  obtain ⟨line, hline, hbody⟩ := Text.exists_mem_of_split_file hne hlines hl
  rw [hbody]
  exact (lineAsksOnly_iff.mp (h line hline)).2

/-- The line of a section in the templates. -/
def spliceLine (name : String) : String := "    " ++ "$splice(" ++ name ++ ")"

/-- The sections of properties that the template of mesh passes names. -/
theorem asksOnly_passMesh : AsksOnly sectionNames includedNames passMesh ∧
    ["GraphProperties", "InstancedProperties"].map spliceLine ⊆ Text.bodies passMesh := by
  refine And.imp_right (fun hbodies => ?_) (asksOnly_file (List.cons_ne_nil _ _) ?_)
  · rw [passMesh, hbodies]
    refine List.forall_mem_cons.mpr ⟨List.mem_of_getElem? (i := 40) rfl, ?_⟩
    exact List.forall_mem_singleton.mpr (List.mem_of_getElem? (i := 41) rfl)
  · repeat refine List.forall_mem_cons.mpr ⟨lineAsksOnly_of_chars rfl (by decide +kernel), ?_⟩
    exact List.forall_mem_nil _

/-- The sections that the template of previews names.  It has no vertex stage of its own, and
names neither the keywords of passes nor the properties held once per instance. -/
def previewNames : List String :=
  ["PassName", "LightMode", "RenderState", "PassPragmas", "GraphKeywords", "FieldDefines",
    "ShaderPass", "GraphDefines", "PreGraphIncludes", "PassStructs", "InterpolatorPack",
    "GraphProperties", "GraphFunctions", "GraphPixel"]

theorem asksOnly_preview : AsksOnly previewNames includedNames preview ∧
    spliceLine "GraphProperties" ∈ Text.bodies preview := by
  refine And.imp_right (fun hbodies => ?_) (asksOnly_file (List.cons_ne_nil _ _) ?_)
  · rw [preview, hbodies]
    exact List.mem_of_getElem? (i := 29) rfl
  · repeat refine List.forall_mem_cons.mpr ⟨lineAsksOnly_of_chars rfl (by decide +kernel), ?_⟩
    exact List.forall_mem_nil _

theorem asksOnly_vertexInputs : AsksOnly [] [] vertexInputs := by
  refine (asksOnly_file (List.cons_ne_nil _ _) ?_).1
  repeat first
    | refine List.forall_mem_cons.mpr ⟨lineAsksOnly_of_chars rfl (by decide +kernel), ?_⟩
    | refine List.forall_mem_cons.mpr ⟨lineAsksOnly_append rfl rfl (by decide +kernel), ?_⟩
  exact List.forall_mem_nil _

theorem asksOnly_surfaceInputs : AsksOnly [] [] surfaceInputs := by
  refine (asksOnly_file (List.cons_ne_nil _ _) ?_).1
  repeat first
    | refine List.forall_mem_cons.mpr ⟨lineAsksOnly_of_chars rfl (by decide +kernel), ?_⟩
    | refine List.forall_mem_cons.mpr ⟨lineAsksOnly_append rfl rfl (by decide +kernel), ?_⟩
  exact List.forall_mem_nil _

theorem asksOnly_previewMain : AsksOnly [] [] previewMain := by
  refine (asksOnly_file (List.cons_ne_nil _ _) ?_).1
  repeat first
    | refine List.forall_mem_cons.mpr ⟨lineAsksOnly_of_chars rfl (by decide +kernel), ?_⟩
    | refine List.forall_mem_cons.mpr ⟨lineAsksOnly_append rfl rfl (by decide +kernel), ?_⟩
  exact List.forall_mem_nil _

/-! ### Processing them -/

/-- The shipped files lie where a configuration looks for them, and can be read. -/
structure IsIn (store : FileLookup) (c : Config) : Prop where
  passMesh : store.readText? (c.templateRoot.join ⟨"PassMesh.template"⟩) = some Shipped.passMesh
  preview : store.readText? (c.templateRoot.join ⟨"Preview.template"⟩) = some Shipped.preview
  vertexInputs : store.readText?
    (c.sharedTemplateDir.join ⟨"BuildVertexDescriptionInputs.template.hlsl"⟩) =
      some Shipped.vertexInputs
  surfaceInputs : store.readText?
    (c.sharedTemplateDir.join ⟨"BuildSurfaceDescriptionInputs.template.hlsl"⟩) =
      some Shipped.surfaceInputs
  previewMain : store.readText? (c.sharedTemplateDir.join ⟨"PreviewMain.template.hlsl"⟩) =
    some Shipped.previewMain

variable {store : FileLookup} {c : Config}

/-- The shipped files in the working directory are where the default configuration looks. -/
theorem isIn_storeIn : IsIn (storeIn []).lookup Config.default where
  passMesh := rfl
  preview := rfl
  vertexInputs := rfl
  surfaceInputs := rfl
  previewMain := rfl

/-- The included files are there, and name no section and no other file. -/
theorem IsIn.exists_included (h : IsIn store c) {name : String} (hname : name ∈ includedNames) :
    ∃ inner, store.readText? (c.sharedTemplateDir.join ⟨name⟩) = some inner ∧
      AsksOnly [] [] inner := by
  simp only [includedNames, List.mem_cons, List.not_mem_nil, or_false] at hname
  obtain rfl | rfl | rfl := hname
  · exact ⟨_, h.vertexInputs, asksOnly_vertexInputs⟩
  · exact ⟨_, h.surfaceInputs, asksOnly_surfaceInputs⟩
  · exact ⟨_, h.previewMain, asksOnly_previewMain⟩

/-- The names of the two templates. -/
def templateNames : List String := ["PassMesh.template", "Preview.template"]

theorem IsIn.exists_template (h : IsIn store c) {name : String} (hname : name ∈ templateNames) :
    ∃ text, store.readText? (c.templateRoot.join ⟨name⟩) = some text ∧
      AsksOnly sectionNames includedNames text := by
  simp only [templateNames, List.mem_cons, List.not_mem_nil, or_false] at hname
  obtain rfl | rfl := hname
  · exact ⟨_, h.passMesh, asksOnly_passMesh.1⟩
  · have hnames : previewNames ⊆ sectionNames := by decide
    exact ⟨_, h.preview, asksOnly_preview.1.mono hnames⟩

/-- **A shipped template is processed** with the sections of a pass, wherever it lies. -/
theorem exists_templateTranscript {ctx : Template.Context} (h : IsIn ctx.store c)
    (hdir : ctx.sharedDir = c.sharedTemplateDir)
    (hsections : ctx.sections.map Prod.fst = sectionNames) {name : String}
    (hname : name ∈ templateNames) :
    ∃ steps, templateTranscript ctx (c.templateRoot.join ⟨name⟩) = .ok steps := by
  obtain ⟨text, hread, hasks⟩ := h.exists_template hname
  refine Template.exists_templateTranscript hread hasks ?_ fun included hincluded => ⟨?_, ?_⟩
  · exact fun token htoken => Sections.get?_ne_none (hsections ▸ htoken)
  · -- no template has the name of a file that is included
    have hnames : ∀ name ∈ templateNames, ∀ included ∈ includedNames,
        Path.IsFileName included ∧ Path.IsFileName name ∧ included ≠ name := by decide +kernel
    obtain ⟨hfile, hfile', hne⟩ := hnames name hname included hincluded
    exact Path.sameAs_join_join _ _ hfile hfile' hne
  · rw [hdir]
    obtain ⟨inner, hread, hasks⟩ := h.exists_included hincluded
    exact ⟨inner, hread, hasks.mono (List.nil_subset _)⟩

/-! ### The passes of the shipped targets -/

/-- The passes of the shipped targets, with all that their subshaders give them. -/
def passes : List Pass :=
  [Universal.target, Preview.target].flatMap fun t => t.subShader.resolved.passes

theorem complete_mem_passes {t : Target} (ht : t ∈ [Universal.target, Preview.target]) {p : Pass}
    (hp : p ∈ t.subShader.passes) : t.subShader.complete p ∈ passes :=
  List.mem_flatMap.mpr ⟨t, ht, List.mem_map_of_mem hp⟩

theorem mem_passes {g : Graph} {master : Bool} {t : Target}
    (ht : t ∈ Universal.catalog.targetsFor Preview.target g master) {p : Pass}
    (hp : p ∈ t.subShader.resolved.passes) : p ∈ passes := by
  refine List.mem_flatMap.mpr ⟨t, ?_, hp⟩
  unfold Catalog.targetsFor at ht
  split at ht
  · have hcataloged := (List.mem_filter.mp ht).1
    rw [List.mem_singleton.mp hcataloged]
    exact List.mem_cons_self
  · rw [List.mem_singleton.mp ht]
    exact List.mem_cons_of_mem _ List.mem_cons_self

theorem template_mem_templateNames : ∀ p ∈ passes, p.template ∈ templateNames := by decide

/-- The passes have no structs of their own, and both subshaders give them the same. -/
theorem structs_of_mem_passes : ∀ p ∈ passes, p.structs = MeshStructs.all := by
  have htargets : ∀ t ∈ [Universal.target, Preview.target],
      t.subShader.structs = MeshStructs.all ∧ ∀ p ∈ t.subShader.passes, p.structs.isEmpty = true :=
    List.forall_mem_cons.mpr ⟨⟨rfl, by decide⟩, List.forall_mem_singleton.mpr ⟨rfl, by decide⟩⟩
  intro p hp
  obtain ⟨t, ht, hp⟩ := List.mem_flatMap.mp hp
  obtain ⟨q, hq, rfl⟩ := List.mem_map.mp hp
  obtain ⟨hstructs, hnone⟩ := htargets t ht
  rw [SubShader.complete, hnone q hq, if_pos rfl, hstructs]

end Shipped
end MaterialShader
