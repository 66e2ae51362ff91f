import MaterialShader.Graph.Decode
import MaterialShader.Proofs.KeywordError
import MaterialShader.Proofs.ShippedTemplate
import MaterialShader.Shader.Generate

/-!
# The errors of a generation

A generation starts with one walk from its output and looks up the nodes of that walk.  All that
comes later, the walks of the passes, the look-ups and the types, stays inside what that first walk
has seen, so none of it fails where the beginning has succeeded.  Two kinds of errors are left:
keyword nodes whose keyword the graph does not declare, and templates.  The shipped templates
leave the first kind alone.

## Main results

* `Generator.failsOnly_generate_of_errorsMeet` — the errors of a generation, from those of its
  nodes and templates.
* `Generator.failsOnly_generate_shipped` — the errors with the shipped targets and templates.
* `Generator.generate_eq_error_cases` — what is left once the first walk has succeeded.
-/

namespace MaterialShader

open Outcome (FailsOnly)
open Relation (ReflTransGen)
open GenerationError (IsUndeclared IsOfTemplate)

variable {output : String} {ids : List String} {mode : Mode}

/-- A graph that was read has a value for each of its keywords. -/
theorem Graph.hasValues_of_ofText {text : String} {g : Graph} (h : Graph.ofText text = .ok g) :
    ∀ k ∈ g.keywords, k.hasValues = true := by
  unfold Graph.ofText Graph.ofDocument at h
  split at h
  · exact absurd h (by rintro ⟨⟩)
  · exact (Graph.hasValues_of_checked h).2

/-- That nodes are no keyword nodes is found out by looking them up. -/
theorem Graph.exists_operation_of_check {g : Graph} (h : (ids.all fun id =>
      (g.operation id).toOption.any fun o => decide (o.kind ≠ .keyword)) = true) :
    ∀ id ∈ ids, ∃ o, g.operation id = .ok o ∧ o.kind ≠ .keyword := by
  intro id hid
  obtain ⟨o, ho, hother⟩ := Outcome.exists_of_check (List.all_eq_true.mp h id hid)
  exact ⟨o, ho, of_decide_eq_true hother⟩

/-- Without keyword nodes no keyword is undeclared. -/
theorem GenerationError.not_isUndeclared {g : Graph} {ks : Keywords} {e : GenerationError}
    (hkind : ∀ id ∈ ids, ∃ o, g.operation id = .ok o ∧ o.kind ≠ .keyword) :
    ¬IsUndeclared g ks ids e := by
  rintro ⟨id, hid, o, ho, hkeyword, -⟩
  obtain ⟨o', ho', hother⟩ := hkind id hid
  obtain rfl : o = o' := Except.ok.inj (ho.symm.trans ho')
  exact hother hkeyword

namespace Generator

variable {s : Generator} {P : GenerationError → Prop}

/-- The errors of a pass are those of its nodes and of its template. -/
theorem failsOnly_passText {m : Material} {p : Pass} (h : m.graph.ErrorsMeet P m.keywords ids)
    (hwalk : m.graph.evaluationOrder output = .ok ids)
    (hout : m.graph.operation output = .ok m.output)
    (htemplate : ∀ sections a, sections.map Prod.fst = sectionNames → FailsOnly P
      (processTemplate (s.templateContext sections a) (s.config.templateRoot.join ⟨p.template⟩))) :
    FailsOnly P (s.passText m p) := by
  have hid : m.output.node.id = output := Graph.id_of_operation hout
  unfold passText
  rw [hid]
  split
  · exact FailsOnly.ok none
  · refine FailsOnly.bind (failsOnly_passFields hwalk h.operation p m.mode m.keywords) fun f hf => ?_
    refine FailsOnly.bind (h.passSections hwalk hout hf _) fun sections hsections => ?_
    exact htemplate sections f.active (map_fst_passSections hsections)

/-- **The errors of a generation** whose first walk has succeeded are those of the nodes of the
walk and of the templates of its passes. -/
theorem failsOnly_generate_of_errorsMeet (h : s.graph.ErrorsMeet P s.graph.keywords ids)
    (hwalk : s.graph.evaluationOrder output = .ok ids)
    (htemplate : ∀ master, ∀ t ∈ s.catalog.targetsFor s.preview s.graph master,
      ∀ p ∈ t.subShader.resolved.passes, ∀ sections a, sections.map Prod.fst = sectionNames →
        FailsOnly P (processTemplate (s.templateContext sections a)
          (s.config.templateRoot.join ⟨p.template⟩))) :
    FailsOnly P (s.generate output mode) := by
  have houtput : output ∈ ids := (Walk.isOrdered_of_collect hwalk).2
  refine FailsOnly.bind (FailsOnly.of_exists ⟨ids, hwalk⟩) fun ids' hids' => ?_
  obtain rfl : ids = ids' := Except.ok.inj (hwalk.symm.trans hids')
  refine FailsOnly.bind (h.operation output houtput) fun o ho => ?_
  refine FailsOnly.bind (failsOnly_collectProperties h.operation mode) fun properties _ => ?_
  split
  · exact FailsOnly.ok _
  · refine FailsOnly.map (FailsOnly.mapM fun sub hsub => FailsOnly.map (FailsOnly.mapM ?_))
    obtain ⟨t, ht, rfl⟩ := List.mem_map.mp hsub
    exact fun p hp => failsOnly_passText (m := ⟨s.graph, o, mode, properties⟩) h hwalk ho
      (htemplate o.isMaster t ht p hp)

/-- Where every node of the walk is known, its errors are those of undeclared keywords and of
templates. -/
theorem failsOnly_generate (h : s.graph.IsWalked output ids)
    (hvalues : ∀ k ∈ s.graph.keywords, k.hasValues = true)
    (hundeclared : ∀ e, IsUndeclared s.graph s.graph.keywords ids e → P e)
    (htemplate : ∀ master, ∀ t ∈ s.catalog.targetsFor s.preview s.graph master,
      ∀ p ∈ t.subShader.resolved.passes, ∀ sections a, sections.map Prod.fst = sectionNames →
        FailsOnly P (processTemplate (s.templateContext sections a)
          (s.config.templateRoot.join ⟨p.template⟩))) :
    FailsOnly P (s.generate output mode) :=
  failsOnly_generate_of_errorsMeet ((h.errorsMeet hvalues).mono hundeclared) h.walk htemplate

/-! ### The shipped targets -/

/-- **The templates of the shipped passes** are processed without errors. -/
theorem failsOnly_shippedTemplate (hfiles : Shipped.IsIn s.store s.config) {p : Pass}
    (hp : p ∈ Shipped.passes) {sections : Sections}
    (hsections : sections.map Prod.fst = sectionNames) (a : ActiveFields) :
    FailsOnly P (processTemplate (s.templateContext sections a)
      (s.config.templateRoot.join ⟨p.template⟩)) := by
  have htranscript : ∃ steps, templateTranscript (s.templateContext sections a)
      (s.config.templateRoot.join ⟨p.template⟩) = .ok steps :=
    Shipped.exists_templateTranscript hfiles rfl hsections
      (Shipped.template_mem_templateNames p hp)
  exact Template.failsOnly_processTemplate_of_transcript (FailsOnly.of_exists htranscript)

/-- **With the shipped targets and templates**, the errors of a generation whose first walk has
succeeded are undeclared keywords. -/
theorem failsOnly_generate_shipped (h : s.graph.IsWalked output ids)
    (hvalues : ∀ k ∈ s.graph.keywords, k.hasValues = true)
    (hcatalog : s.catalog = Universal.catalog) (hpreview : s.preview = Preview.target)
    (hfiles : Shipped.IsIn s.store s.config) :
    FailsOnly (IsUndeclared s.graph s.graph.keywords ids) (s.generate output mode) := by
  refine failsOnly_generate h hvalues (fun e he => he) fun _ t ht p hp sections a hsections => ?_
  rw [hcatalog, hpreview] at ht
  exact failsOnly_shippedTemplate hfiles (Shipped.mem_passes ht hp) hsections a

/-- With the shipped targets and templates, a walk without keyword nodes leads to a shader. -/
theorem exists_generate_shipped (h : s.graph.IsWalked output ids)
    (hvalues : ∀ k ∈ s.graph.keywords, k.hasValues = true)
    (hcatalog : s.catalog = Universal.catalog) (hpreview : s.preview = Preview.target)
    (hfiles : Shipped.IsIn s.store s.config)
    (hkind : ∀ id ∈ ids, ∃ o, s.graph.operation id = .ok o ∧ o.kind ≠ .keyword) :
    ∃ shader, s.generate output mode = .ok shader := by
  have hfails : FailsOnly (IsUndeclared s.graph s.graph.keywords ids) (s.generate output mode) :=
    failsOnly_generate_shipped h hvalues hcatalog hpreview hfiles
  exact FailsOnly.exists_ok (hfails.mono fun _ => GenerationError.not_isUndeclared hkind)

/-- The text of a pass that is part of a shader is its template, processed with its sections. -/
theorem passText_eq {m : Material} {p : Pass} {f : PassFields} {sections : Sections}
    (hincluded : includesPass m p = true)
    (hf : passFields m.graph m.output.node.id p m.mode m.keywords = .ok f)
    (hsections : passSections m p f s.config.debugOutput = .ok sections) :
    s.passText m p = processTemplate (s.templateContext sections f.active)
      (s.config.templateRoot.join ⟨p.template⟩) := by
  rw [passText, hincluded, Bool.not_true, if_neg Bool.false_ne_true, hf]
  show passSections m p f s.config.debugOutput >>= _ = _
  rw [hsections]
  rfl

/-- A shipped pass that is part of a shader has a text, if the walk has no keyword nodes. -/
theorem exists_passText_shipped {m : Material} {p : Pass} (hp : p ∈ Shipped.passes)
    (h : m.graph.IsWalked m.output.node.id ids) (hvalues : ∀ k ∈ m.keywords, k.hasValues = true)
    (hout : m.graph.operation m.output.node.id = .ok m.output)
    (hfiles : Shipped.IsIn s.store s.config)
    (hkind : ∀ id ∈ ids, ∃ o, m.graph.operation id = .ok o ∧ o.kind ≠ .keyword)
    (hincluded : includesPass m p = true) {f : PassFields}
    (hf : passFields m.graph m.output.node.id p m.mode m.keywords = .ok f) :
    ∃ sections out, passSections m p f s.config.debugOutput = .ok sections ∧
      s.passText m p = .ok (some out) := by
  have hdeclared := (h.errorsMeet hvalues).passSections h.walk hout hf s.config.debugOutput
  obtain ⟨sections, hsections⟩ :=
    FailsOnly.exists_ok (hdeclared.mono fun _ => GenerationError.not_isUndeclared hkind)
  have htemplate := Shipped.template_mem_templateNames p hp
  obtain ⟨text, hread, -⟩ := hfiles.exists_template htemplate
  have hstore : (s.templateContext sections f.active).store.isFile
      (s.config.templateRoot.join ⟨p.template⟩) = true := FileLookup.isFile_of_readText? _ hread
  have htranscript : ∃ steps, templateTranscript (s.templateContext sections f.active)
      (s.config.templateRoot.join ⟨p.template⟩) = .ok steps :=
    Shipped.exists_templateTranscript hfiles rfl (map_fst_passSections hsections) htemplate
  obtain ⟨steps, hsteps⟩ := htranscript
  obtain ⟨_, hprocessed, out, rfl, -⟩ := (agree_processTemplate hstore).exists_left hsteps
  exact ⟨sections, out, hsections, (passText_eq hincluded hf hsections).trans hprocessed⟩

/-- **Once the first walk has succeeded**, and with it the look-ups of its nodes, little can go
wrong.  An error is that of a keyword node whose keyword is not declared, or of a template.
Types are followed from the nodes of the walk to other nodes of the walk only, and every such
recursion ends, with the same result under every bound above the number of nodes.  With the
shipped targets and templates, undeclared keywords are all that is left. -/
theorem generate_eq_error_cases {text : String} (hgraph : Graph.ofText text = .ok s.graph)
    (hids : (s.graph.connections.map Connection.id).Nodup)
    (hwalk : s.graph.evaluationOrder output = .ok ids)
    (hknown : ∀ id ∈ ids, ∃ o, s.graph.operation id = .ok o) :
    (∀ e, s.generate output mode = .error e →
        IsUndeclared s.graph s.graph.keywords ids e ∨ IsOfTemplate e) ∧
      (∀ id ∈ ids, ∀ o, s.graph.operation id = .ok o →
        Acc (fun source o => s.graph.IsFedBy o source) o ∧
          (∀ source, ReflTransGen s.graph.IsFedBy o source → source.node.id ∈ ids) ∧
          ∀ socket,
            (∃ t, ∀ bound, s.graph.nodes.length < bound →
              s.graph.outputTypeWithin bound o socket = .ok t) ∧
            ∃ value?, s.graph.connectedOutput o.node socket = .ok value?) ∧
      (s.catalog = Universal.catalog → s.preview = Preview.target →
        Shipped.IsIn s.store s.config → ∀ e, s.generate output mode = .error e →
          IsUndeclared s.graph s.graph.keywords ids e) := by
  have h : s.graph.IsWalked output ids := ⟨hids, hwalk, hknown⟩
  have hvalues := Graph.hasValues_of_ofText hgraph
  refine ⟨?_, fun id hid o ho => ⟨h.acc_isFedBy hid ho, fun source hfed => ?_, fun socket => ?_⟩,
    fun hcatalog hpreview hfiles => ?_⟩
  · refine failsOnly_generate h hvalues (fun e he => Or.inl he) fun _ t _ p _ sections a _ => ?_
    exact (failsOnly_processTemplate _ _).mono fun e he => Or.inr he
  · exact (h.mem_of_isFedBy hid ho hfed).1
  · exact ⟨h.exists_outputTypeWithin hid ho socket, h.exists_connectedOutput hid ho socket⟩
  · exact failsOnly_generate_shipped h hvalues hcatalog hpreview hfiles

/-- A number that feeds a keyword node, whose keyword is not declared. -/
def undeclaredText : String :=
  "\x7b\"version\":\"1\",\"metadata\":\x7b\"name\":\"N\"\x7d,\"nodes\":[" ++
    "\x7b\"id\":\"k\",\"type\":\"Keyword\",\"params\":\x7b\"keyword\":\"_K\"\x7d\x7d," ++
    "\x7b\"id\":\"f\",\"type\":\"Float\"\x7d],\"connections\":[\x7b\"id\":\"c\"," ++
    "\"from\":\x7b\"nodeId\":\"f\",\"portId\":\"Out\"\x7d," ++
    "\"to\":\x7b\"nodeId\":\"k\",\"portId\":\"On\"\x7d\x7d]\x7d"

/-- A generation with the shipped targets and templates. -/
def shippedWith (g : Graph) : Generator :=
  ⟨g, Universal.catalog, Preview.target, Config.default, Shipped.storeIn []⟩

theorem generate_eq_error_cases_undeclared :
    ∃ g, Graph.ofText undeclaredText = .ok g ∧ g.evaluationOrder "k" = .ok ["f", "k"] ∧
      ∃ e, (shippedWith g).generate "k" .final = .error e ∧
        IsUndeclared g g.keywords ["f", "k"] e := by
  obtain ⟨g, hg, hchecked⟩ : ∃ g, Graph.ofText undeclaredText = .ok g ∧
      decide ((g.connections.map Connection.id).Nodup ∧ g.evaluationOrder "k" = .ok ["f", "k"] ∧
        (∀ id ∈ ["f", "k"], (g.operation id).isOk = true) ∧
          ((shippedWith g).generate "k" .final).isOk = false) = true :=
    Outcome.exists_of_check (by decide +kernel)
  obtain ⟨hids, hwalk, hknown, hfails⟩ := of_decide_eq_true hchecked
  cases hgenerate : (shippedWith g).generate "k" .final with
  | ok shader =>
    rw [hgenerate] at hfails
    exact absurd hfails.symm Bool.false_ne_true
  | error e =>
    obtain ⟨-, -, hshipped⟩ := generate_eq_error_cases (s := shippedWith g) hg hids hwalk
      fun id hid => Outcome.exists_of_isOk (hknown id hid)
    exact ⟨g, hg, hwalk, e, hgenerate, hshipped rfl rfl Shipped.isIn_storeIn e hgenerate⟩

end Generator
end MaterialShader
