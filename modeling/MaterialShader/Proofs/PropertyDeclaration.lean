import MaterialShader.Proofs.InputMember
import MaterialShader.Proofs.PropertyReader

/-!
# Properties that are read are declared

The code of a node reads the property behind it and no other, and a property of that name is
collected wherever the node is walked.  Its declaration goes into one of two sections of a pass,
one for the material and one for what is held once per instance, and a template with the token of
that section has the declaration in its text.  The template of mesh passes has both tokens.  That
of previews lacks the second, so there a property that is held per instance is read and not
declared.

## Main definitions

* `Shading.Expr.properties`, `Shading.Statement.properties` — the properties that code reads.
* `Property.declaration` — the lines that declare the name of a property.

## Main results

* `Operation.Computes.exists_property` — the statements of a node read the property behind it.
* `Property.declaration_subset_bodies` — a declaration is in the text of a pass.
* `declaration_subset_of_readsProperty` — a property that is read is declared, in the text of the
  same pass.
* `Generator.passText_preview` — what is held per instance has no part in a preview.
-/

namespace MaterialShader

open Shading (ValueType Typed Expr Statement)
open Text (IsName IsOneLine joinLines)

/-! ### The properties that code reads -/

namespace Shading

/-- The properties that an expression reads. -/
def Expr.properties : Expr → List String
  | .variable _ => []
  | .property name => [name]
  | .input _ => []
  | .constant _ => []
  | .group e => e.properties
  | .lanes e _ => e.properties
  | .channel e _ => e.properties
  | .pad _ e _ => e.properties
  | .quotient a b => a.properties ++ b.properties
  | .sample texture uv _ => texture :: uv.properties
  | .scene _ uv => uv.properties

/-- The properties that a statement reads. -/
def Statement.properties : Statement → List String
  | .define _ _ value => value.properties
  | .declare _ _ => []
  | .call _ left right _ => left.properties ++ right.properties
  | .select _ _ arms => arms.flatMap fun a => a.value.properties

theorem Expr.properties_coerce (v : Typed) (target : ValueType) :
    (v.coerce target).expr.properties = v.expr.properties := by
  unfold Typed.coerce
  split
  · rfl
  · split
    · rfl
    · split <;> rfl

end Shading

/-- The value of an input reads no property, unless its default does. -/
theorem Graph.properties_inputValue {g : Graph} {n : Node} {socket : String} {type : ValueType}
    {default : Expr} {v : Typed} (h : g.inputValue n socket type default = .ok v)
    (hdefault : default.properties = []) : v.expr.properties = [] := by
  obtain ⟨-, rfl⟩ | ⟨c, source, t, -, -, -, rfl⟩ := inputValue_spec h
  · exact hdefault
  · exact Expr.properties_coerce _ _

namespace Operation

variable {e : Evaluation} {o : Operation} {statements : List Statement}

/-- **The statements of a node read the property behind it**, and no other. -/
theorem Computes.exists_property (h : o.Computes e statements) :
    ∀ s ∈ statements, ∀ name ∈ s.properties,
      ∃ p, o.property? e.mode = some p ∧ p.referenceName = name := by
  intro s hs name hname
  cases h with
  | master hkind => exact absurd hs List.not_mem_nil
  | constant hvalue =>
    rw [List.mem_singleton.mp hs] at hname
    replace hname : name ∈ Expr.properties _ := hname
    cases hproperty : o.backingProperty? e.mode with
    | some p =>
      rw [hproperty, Expr.properties, List.mem_singleton] at hname
      exact ⟨p, property?_of_backingProperty? hproperty, hname.symm⟩
    | none =>
      rw [hproperty] at hname
      rename_i value
      cases value <;> exact absurd hname List.not_mem_nil
  | time hkind =>
    obtain ⟨p, -, rfl⟩ := List.mem_map.mp hs
    exact absurd hname List.not_mem_nil
  | geometry hinput =>
    rw [List.mem_singleton.mp hs] at hname
    exact absurd hname List.not_mem_nil
  | operator hop htype hleft hright =>
    rcases List.mem_cons.mp hs with rfl | hs
    · exact absurd hname List.not_mem_nil
    · rw [List.mem_singleton.mp hs, Statement.properties, Graph.properties_inputValue hleft rfl,
        Graph.properties_inputValue hright rfl] at hname
      exact absurd hname List.not_mem_nil
  | texture hkind huv =>
    rcases List.mem_cons.mp hs with rfl | hs
    · rw [Statement.properties, Expr.properties, Graph.properties_inputValue huv rfl,
        List.mem_singleton] at hname
      refine ⟨o.node.textureProperty, ?_, ?_⟩
      · rw [property?, hkind]
      · rw [Node.referenceName_textureProperty, hname]
    · -- the channels are taken from the colour
      obtain ⟨c, -, rfl⟩ := List.mem_map.mp hs
      exact absurd hname List.not_mem_nil
  | scene hbuffer huv =>
    rw [List.mem_singleton.mp hs, Statement.properties, Expr.properties,
      Graph.properties_inputValue huv rfl] at hname
    exact absurd hname List.not_mem_nil
  | keyword hkind hk htype hvalue =>
    rw [List.mem_singleton.mp hs] at hname
    obtain ⟨a, ha, hname⟩ := List.mem_flatMap.mp hname
    obtain ⟨b, hb, rfl⟩ := List.mem_map.mp ha
    obtain ⟨v, hv, hexpr⟩ := hvalue b hb
    rw [hexpr, Graph.properties_inputValue hv rfl] at hname
    exact absurd hname List.not_mem_nil

/-- The name of the property behind a node is an identifier. -/
theorem isName_property {mode : Mode} {p : Property} (h : o.property? mode = some p) :
    IsName p.referenceName := by
  unfold property? at h
  split at h
  · rw [← Option.some.inj h]
    exact Text.isName_identifier _
  · exact isName_backingProperty h

end Operation

/-- The value of a slot of the master node has a default without properties. -/
theorem MasterSlot.properties_default {stage : Stage} {s : MasterSlot}
    (h : s ∈ MasterSlot.ofStage stage) : s.default.properties = [] := by
  revert s
  cases stage <;> decide

/-- **The values of slots read no property**: what they pass on are variables and defaults. -/
theorem properties_descriptionSlots {e : Evaluation} {out : Operation} {p : Pass}
    {slots : List DescriptionSlot} {d : DescriptionSlot}
    (h : descriptionSlots e out p = .ok slots) (hd : d ∈ slots) :
    d.value.expr.properties = [] := by
  obtain ⟨-, s, hs, v, hv, rfl⟩ | ⟨-, -, t, -, rfl⟩ := descriptionSlots_spec h hd
  · obtain ⟨hslot, -⟩ := MasterSlot.mem_ofStage_of_mem_masked hs
    exact Graph.properties_inputValue hv (MasterSlot.properties_default hslot)
  · exact Expr.properties_coerce _ _

/-! ### Lines of a section -/

namespace Text

/-- A line with something to read in it. -/
def IsPrinted (line : String) : Prop := isAllBlank line = false ∧ IsOneLine line

instance (line : String) : Decidable (IsPrinted line) := inferInstanceAs (Decidable (_ ∧ _))

theorem IsPrinted.append {s t : String} (hs : IsPrinted s) (ht : IsOneLine t) :
    IsPrinted (s ++ t) := by
  refine ⟨?_, isOneLine_append.mpr ⟨hs.2, ht⟩⟩
  have hblank : s.toList.all isBlank = false := hs.1
  rw [isAllBlank, String.toList_append, List.all_append, hblank, Bool.false_and]

theorem IsPrinted.ne_empty {line : String} (h : IsPrinted line) : line ≠ "" := by
  rintro rfl
  exact absurd h.1 (by decide)

end Text

open Text (IsPrinted)

/-- A section of printed lines has no placeholder. -/
theorem linesOrNone_of_isPrinted {lines : List String} (hne : lines ≠ [])
    (h : ∀ line ∈ lines, IsPrinted line) : linesOrNone lines = joinLines lines := by
  obtain ⟨line, hline⟩ := List.exists_mem_of_ne_nil lines hne
  refine if_neg fun hblank => ?_
  exact absurd (isAllBlank_of_joinLines hblank line hline) (by simpa using (h line hline).1)

/-! ### The lines that declare properties -/

theorem PropertyValue.isPrinted_typeName (v : PropertyValue) : IsPrinted v.typeName := by
  have hnames : ∀ name ∈ ["float", "float4", "TEXTURE2D"], IsPrinted name := by decide
  refine hnames _ ?_
  cases v <;> exact List.elem_iff.mp rfl

namespace Property

variable {p : Property} {properties : List Property}

/-- The lines that declare the name of a property. -/
def declaration (p : Property) : List String :=
  if p.isTexture then p.textureLines
  else if p.isPerInstance then [p.instanceLine]
  else [p.bufferLine]

/-- The section that the lines go into. -/
def sectionName (p : Property) : String :=
  if p.isPerInstance then "InstancedProperties" else "GraphProperties"

/-- The lines of that section. -/
def sectionLines (p : Property) (properties : List Property) : List String :=
  if p.isPerInstance then instancedDeclarations properties else materialDeclarations properties

/-- The name of the section is one that a token can have. -/
theorem sectionName_spec (p : Property) :
    p.sectionName ≠ "" ∧ ∀ c ∈ p.sectionName.toList, Text.isWordChar c = true := by
  unfold sectionName
  split <;> exact ⟨by decide, List.all_eq_true.mp (by decide +kernel)⟩

theorem declaration_ne_nil (p : Property) : p.declaration ≠ [] := by
  unfold declaration
  split
  · exact List.cons_ne_nil _ _
  · split <;> exact List.cons_ne_nil _ _

theorem declaration_subset_sectionLines (hp : p ∈ properties) :
    p.declaration ⊆ p.sectionLines properties := by
  unfold declaration sectionLines
  by_cases htexture : p.isTexture = true
  · have hmaterial : p.isPerInstance = false := by
      rw [isPerInstance, htexture, Bool.not_true, Bool.and_false]
    rw [if_pos htexture, hmaterial, if_neg Bool.false_ne_true]
    exact textureLines_subset_materialDeclarations hp htexture
  · rw [if_neg htexture]
    by_cases hinstance : p.isPerInstance = true
    · rw [if_pos hinstance, if_pos hinstance]
      exact List.forall_mem_singleton.mpr (instanceLine_mem_instancedDeclarations hp hinstance)
    · rw [if_neg hinstance, if_neg hinstance]
      exact List.forall_mem_singleton.mpr
        (bufferLine_mem_materialDeclarations hp (by simpa using hinstance))

theorem isPrinted_bufferLine (h : IsName p.referenceName) : IsPrinted p.bufferLine := by
  unfold bufferLine
  split
  · have hstart : IsPrinted "float4 " := by decide
    exact (hstart.append h.isOneLine).append (by decide)
  · have htype := p.value.isPrinted_typeName
    exact ((htype.append (by decide)).append h.isOneLine).append (by decide)

theorem isPrinted_textureLines (h : IsName p.referenceName) :
    ∀ line ∈ p.textureLines, IsPrinted line := by
  have hobject : IsPrinted "TEXTURE2D(" := by decide
  have hsampler : IsPrinted "SAMPLER(sampler" := by decide
  have hend : IsOneLine ");" := by decide
  refine List.forall_mem_cons.mpr ⟨(hobject.append h.isOneLine).append hend, ?_⟩
  exact List.forall_mem_singleton.mpr ((hsampler.append h.isOneLine).append hend)

theorem isPrinted_instanceLine (h : IsName p.referenceName) : IsPrinted p.instanceLine := by
  unfold instanceLine
  have hstart : IsPrinted "    UNITY_DEFINE_INSTANCED_PROP(" := by decide
  exact (((hstart.append p.value.isPrinted_typeName.2).append (by decide)).append h.isOneLine).append (by decide)

theorem isPrinted_accessLine (h : IsName p.referenceName) : IsPrinted p.accessLine := by
  unfold accessLine
  have hstart : IsPrinted "#define " := by decide
  have hmacro : IsOneLine " UNITY_ACCESS_INSTANCED_PROP(Props, " := by decide
  exact (((hstart.append h.isOneLine).append hmacro).append h.isOneLine).append (by decide)

end Property

/-- The lines of the section of the material are printed. -/
theorem isPrinted_materialDeclarations {properties : List Property}
    (h : ∀ p ∈ properties, IsName p.referenceName) :
    ∀ line ∈ materialDeclarations properties, IsPrinted line := by
  intro line hline
  unfold materialDeclarations at hline
  dsimp only at hline
  split at hline
  · exact absurd hline List.not_mem_nil
  · simp only [List.cons_append, List.mem_cons, List.mem_append, List.mem_map,
      List.mem_flatMap] at hline
    obtain rfl | ⟨p, hp, rfl⟩ | rfl | ⟨p, hp, hline⟩ := hline
    · decide
    · exact Property.isPrinted_bufferLine (h p (List.mem_filter.mp hp).1)
    · decide
    · have hcollected := (List.mem_filter.mp (List.mem_filter.mp hp).1).1
      exact Property.isPrinted_textureLines (h p hcollected) line hline

/-- The lines of the section of instances are printed. -/
theorem isPrinted_instancedDeclarations {properties : List Property}
    (h : ∀ p ∈ properties, IsName p.referenceName) :
    ∀ line ∈ instancedDeclarations properties, IsPrinted line := by
  intro line hline
  unfold instancedDeclarations at hline
  dsimp only at hline
  split at hline
  · exact absurd hline List.not_mem_nil
  · simp only [List.cons_append, List.mem_cons, List.mem_append, List.mem_map] at hline
    obtain rfl | ⟨p, hp, rfl⟩ | rfl | ⟨p, hp, rfl⟩ := hline
    · decide
    · exact Property.isPrinted_instanceLine (h p (List.mem_filter.mp hp).1)
    · decide
    · exact Property.isPrinted_accessLine (h p (List.mem_filter.mp hp).1)

theorem Property.isPrinted_sectionLines {q : Property} {properties : List Property}
    (h : ∀ p ∈ properties, IsName p.referenceName) :
    ∀ line ∈ q.sectionLines properties, IsPrinted line := by
  unfold sectionLines
  split
  · exact isPrinted_instancedDeclarations h
  · exact isPrinted_materialDeclarations h

/-! ### Declarations in the text of a pass -/

/-- A pass has the section that a property is declared in. -/
theorem get?_passSections {m : Material} {p : Pass} {f : PassFields} {debug : Bool} {s : Sections}
    (h : passSections m p f debug = .ok s) (q : Property) :
    s.get? q.sectionName = some (linesOrNone (q.sectionLines m.properties)) := by
  obtain ⟨helpers, -, h⟩ := Outcome.bind_eq_ok_iff.mp h
  obtain ⟨vertex, -, h⟩ := Outcome.bind_eq_ok_iff.mp h
  obtain ⟨pixel, -, h⟩ := Outcome.bind_eq_ok_iff.mp h
  have hnodup : sectionNames.Nodup := by decide
  rw [← Outcome.pure_eq_ok_iff.mp h, Sections.ofList_eq_self]
  · unfold Property.sectionName Property.sectionLines
    split <;> rfl
  · exact hnodup

/-- The template of a pass names the section of a property, but for properties that are held per
instance in a preview. -/
theorem Shipped.IsIn.exists_spliceLine {store : FileLookup} {c : Config} (h : IsIn store c)
    {p : Pass} (hp : p ∈ passes) {q : Property}
    (hq : q.isPerInstance = false ∨ p.template = "PassMesh.template") :
    ∃ text, store.readText? (c.templateRoot.join ⟨p.template⟩) = some text ∧
      spliceLine q.sectionName ∈ Text.bodies text := by
  have htemplate := template_mem_templateNames p hp
  rw [templateNames, List.mem_cons, List.mem_singleton] at htemplate
  unfold Property.sectionName
  rcases htemplate with htemplate | htemplate
  · have hname : (if q.isPerInstance then "InstancedProperties" else "GraphProperties") ∈
        ["GraphProperties", "InstancedProperties"] := by
      split
      · exact List.mem_cons_of_mem _ List.mem_cons_self
      · exact List.mem_cons_self
    rw [htemplate]
    exact ⟨_, h.passMesh, asksOnly_passMesh.2 (List.mem_map_of_mem hname)⟩
  · have hpreview : q.isPerInstance = false := by
      refine hq.resolve_right fun hmesh => ?_
      exact absurd (htemplate.symm.trans hmesh) (by decide)
    rw [htemplate, hpreview]
    exact ⟨_, h.preview, asksOnly_preview.2⟩

variable {s : Generator} {m : Material} {p : Pass} {out : Template.Progress}

/-- **A declaration is in the text of a pass** whose template names its section. -/
theorem Property.declaration_subset_bodies (hp : p ∈ Shipped.passes)
    (hfiles : Shipped.IsIn s.store s.config) (hnames : ∀ q ∈ m.properties, IsName q.referenceName)
    {q : Property} (hq : q ∈ m.properties)
    (htemplate : q.isPerInstance = false ∨ p.template = "PassMesh.template")
    (h : s.passText m p = .ok (some out)) :
    q.declaration.map ("    " ++ ·) ⊆ Text.bodies out.text := by
  unfold Generator.passText at h
  split at h
  · exact absurd h (by rintro ⟨⟩)
  · obtain ⟨f, -, h⟩ := Outcome.bind_eq_ok_iff.mp h
    obtain ⟨sections, hsections, h⟩ := Outcome.bind_eq_ok_iff.mp h
    obtain ⟨text, hread, hline⟩ := hfiles.exists_spliceLine hp htemplate
    have hread : (s.templateContext sections f.active).store.readText?
        (s.config.templateRoot.join ⟨p.template⟩) = some text := hread
    have hline : "    " ++ "$splice(" ++ q.sectionName ++ ")" ∈ Text.bodies text := hline
    have hprinted := isPrinted_sectionLines (q := q) hnames
    have hdeclared := declaration_subset_sectionLines hq
    have hne : q.sectionLines m.properties ≠ [] := fun hnil =>
      q.declaration_ne_nil (List.subset_nil.mp (hnil ▸ hdeclared))
    have hsection := get?_passSections hsections q
    rw [linesOrNone_of_isPrinted hne hprinted] at hsection
    have hblanks : ∀ c ∈ "    ".toList, Text.isBlank c = true :=
      List.all_eq_true.mp (by decide)
    have hlead : IsOneLine "    " := by decide
    have hlines := map_subset_bodies hread hline hblanks hlead q.sectionName_spec hsection hne
      (fun line hline => ⟨(hprinted line hline).ne_empty, (hprinted line hline).2⟩) h
    exact fun line hline => hlines (List.map_subset _ hdeclared hline)

/-- The names of collected properties are identifiers. -/
theorem isName_of_collectProperties {g : Graph} {mode : Mode} {ids : List String}
    {properties : List Property} (h : collectProperties g mode ids = .ok properties) :
    ∀ q ∈ properties, IsName q.referenceName := by
  intro q hq
  obtain ⟨hsubset, -, -⟩ := collectProperties_spec h
  obtain ⟨id, -, o, -, hproperty⟩ := Graph.mem_propertiesBehind.mp (hsubset hq)
  exact Operation.isName_property hproperty

/-- **Properties that are read are declared** in the text of the same pass, unless they are held
per instance in a preview.  Under each name that the code of a node reads a property is collected,
and the lines that declare it are in the text of the pass if its template is that of mesh passes
or the property is not held per instance.  The values of the slots read no property. -/
theorem declaration_subset_of_readsProperty {ids : List String} {r : PassFields}
    (hp : p ∈ Shipped.passes) (hfiles : Shipped.IsIn s.store s.config)
    (hwalk : m.graph.evaluationOrder m.output.node.id = .ok ids)
    (hproperties : collectProperties m.graph m.mode ids = .ok m.properties)
    (hfields : passFields m.graph m.output.node.id p m.mode m.keywords = .ok r)
    (htext : s.passText m p = .ok (some out)) (stage : Stage) :
    (∀ n ∈ (r.stage stage).nodes, ∃ o, m.graph.operation n.id = .ok o ∧
      ∀ statements, o.statements (m.evaluation stage) = .ok statements →
        ∀ statement ∈ statements, ∀ name ∈ statement.properties,
          ∃ q ∈ m.properties, q.referenceName = name ∧
            (q.isPerInstance = false ∨ p.template = "PassMesh.template" →
              q.declaration.map ("    " ++ ·) ⊆ Text.bodies out.text)) ∧
      ∀ slots, descriptionSlots (m.evaluation stage) m.output p = .ok slots →
        ∀ d ∈ slots, d.value.expr.properties = [] := by
  refine ⟨fun n hn => ?_, fun slots hslots d hd => properties_descriptionSlots hslots hd⟩
  obtain ⟨o, ho, -⟩ := exists_operation_of_passFields hfields hn
  refine ⟨o, ho, fun statements hstatements statement hstatement name hname => ?_⟩
  obtain ⟨behind, hbehind, rfl⟩ := (Operation.computes_of_statements hstatements).exists_property
    statement hstatement name hname
  obtain ⟨-, htaken, -⟩ := collectProperties_spec hproperties
  obtain ⟨q, hq, hqname⟩ := htaken behind
    (Graph.mem_propertiesBehind.mpr ⟨n.id, mem_of_passFields hwalk hfields hn, o, ho, hbehind⟩)
  exact ⟨q, hq, hqname, fun htemplate => Property.declaration_subset_bodies hp hfiles
    (isName_of_collectProperties hproperties) hq htemplate htext⟩

/-- A material whose opacity is a number that is held per instance. -/
def instanceGraph : Graph where
  version := "1"
  metadata := { name := "Instance" }
  nodes := [
    { id := "out", type := "Master", inputs := [{ id := "Alpha" }] },
    { id := "f", type := "Float", params := [("property", .text "_X"), ("instanced", .bool true)] }]
  connections := [⟨"c", ⟨"f", "Out"⟩, ⟨"out", "Alpha"⟩⟩]

/-- The generation of its shaders. -/
def instanceGenerator : Generator := Generator.shippedWith instanceGraph

/-- The code of the number reads its property. -/
theorem exists_statement_instance :
    ∃ f statements, instanceGraph.operation "f" = .ok f ∧
      f.statements ⟨instanceGraph, [], .final, .pixel⟩ = .ok statements ∧
        ∃ statement ∈ statements, "_X" ∈ statement.properties := by
  obtain ⟨statements, hstatements, hreads⟩ : ∃ statements,
      (instanceGraph.operation "f" >>= fun o =>
        o.statements ⟨instanceGraph, [], .final, .pixel⟩) = .ok statements ∧
          decide (∃ statement ∈ statements, "_X" ∈ statement.properties) = true :=
    Outcome.exists_of_check (by decide +kernel)
  obtain ⟨f, hf, hstatements⟩ := Outcome.bind_eq_ok_iff.mp hstatements
  exact ⟨f, statements, hf, hstatements, of_decide_eq_true hreads⟩

/-- The pass that lights the surface, with the structs of its target. -/
def forwardPass : Pass := Universal.target.subShader.complete Universal.forward

theorem declaration_subset_of_readsProperty_instance :
    forwardPass ∈ Shipped.passes ∧ instanceGraph.evaluationOrder "out" = .ok ["f", "out"] ∧
      ∃ m f statements out, m.graph = instanceGraph ∧ m.output.node.id = "out" ∧
        instanceGraph.operation "f" = .ok f ∧ f.statements (m.evaluation .pixel) = .ok statements ∧
        (∃ statement ∈ statements, "_X" ∈ statement.properties) ∧
          instanceGenerator.passText m forwardPass = .ok (some out) ∧
            "        UNITY_DEFINE_INSTANCED_PROP(float, _X)" ∈ Text.bodies out.text := by
  have hp : forwardPass ∈ Shipped.passes :=
    Shipped.complete_mem_passes List.mem_cons_self List.mem_cons_self
  have hwalk : instanceGraph.evaluationOrder "out" = .ok ["f", "out"] := by decide +kernel
  obtain ⟨properties, hproperties, hdeclared⟩ : ∃ properties,
      collectProperties instanceGraph .final ["f", "out"] = .ok properties ∧
        decide (∀ q ∈ properties,
          q.declaration = ["    UNITY_DEFINE_INSTANCED_PROP(float, _X)"]) = true :=
    Outcome.exists_of_check (by decide +kernel)
  obtain ⟨master, hmaster, hincluded⟩ : ∃ o, instanceGraph.operation "out" = .ok o ∧
      Generator.includesPass ⟨instanceGraph, o, .final, []⟩ forwardPass = true :=
    Outcome.exists_of_check (by decide +kernel)
  obtain ⟨r, hr, hn⟩ : ∃ r, passFields instanceGraph "out" forwardPass .final [] = .ok r ∧
      decide ((⟨"f", none⟩ : LiveNode) ∈ r.pixel.nodes) = true :=
    Outcome.exists_of_check (by decide +kernel)
  obtain ⟨f, statements, hf, hstatements, hreads⟩ := exists_statement_instance
  have hkind : ∀ id ∈ ["f", "out"], ∃ o, instanceGraph.operation id = .ok o ∧ o.kind ≠ .keyword :=
    Graph.exists_operation_of_check (by decide +kernel)
  have hids : (instanceGraph.connections.map Connection.id).Nodup := by decide
  have hfiles : Shipped.IsIn instanceGenerator.store instanceGenerator.config :=
    Shipped.isIn_storeIn
  let m : Material := ⟨instanceGraph, master, .final, properties⟩
  have hid : m.output.node.id = "out" := Graph.id_of_operation hmaster
  have hwalked : m.graph.IsWalked m.output.node.id ["f", "out"] :=
    ⟨hids, hid ▸ hwalk, fun id hid => (hkind id hid).imp fun _ => And.left⟩
  have hout : m.graph.operation m.output.node.id = .ok m.output := hid ▸ hmaster
  have hfields : passFields m.graph m.output.node.id forwardPass m.mode m.keywords = .ok r :=
    hid ▸ hr
  obtain ⟨-, out, -, htext⟩ := Generator.exists_passText_shipped hp hwalked
    (List.forall_mem_nil _) hout hfiles hkind hincluded hfields
  obtain ⟨hnodes, -⟩ := declaration_subset_of_readsProperty hp hfiles hwalked.walk hproperties
    hfields htext .pixel
  obtain ⟨o, ho, hread⟩ := hnodes ⟨"f", none⟩ (of_decide_eq_true hn)
  obtain rfl : f = o := Except.ok.inj (hf.symm.trans ho)
  obtain ⟨statement, hstatement, hname⟩ := hreads
  obtain ⟨q, hq, -, hlines⟩ := hread statements hstatements statement hstatement "_X" hname
  have hline : "    UNITY_DEFINE_INSTANCED_PROP(float, _X)" ∈ q.declaration := by
    rw [of_decide_eq_true hdeclared q hq]
    exact List.mem_cons_self
  exact ⟨hp, hwalk, m, f, statements, out, rfl, hid, hf, hstatements,
    ⟨statement, hstatement, hname⟩, htext, hlines (Or.inr rfl) (List.mem_map_of_mem hline)⟩

/-! ### Previews -/

/-- The other sections stay as they are where one is replaced. -/
theorem Sections.get?_set_of_ne (sections : Sections) {name other : String} (hne : other ≠ name)
    (text : String) : (sections.set name text).get? other = sections.get? other := by
  have hother : (other == name) = false := beq_false_of_ne hne
  have hreplaced : ∀ l : Sections,
      (l.map fun p => if p.1 == name then (name, text) else p).lookup other = l.lookup other := by
    intro l
    induction l with
    | nil => rfl
    | cons p l ih =>
      rw [List.map_cons, List.lookup_cons, List.lookup_cons, ih]
      by_cases hp : p.1 = name
      · rw [if_pos (beq_iff_eq.mpr hp), hp, hother]
      · rw [if_neg (mt beq_iff_eq.mp hp)]
  unfold set
  split
  · exact hreplaced sections
  · rw [get?, List.lookup_append, List.lookup_cons, hother]
    exact Option.or_none

/-- **What is held per instance has no part in a preview**: its template asks for other sections,
and the text of the pass is the same whatever this one says. -/
theorem Generator.passText_preview {f : PassFields} {sections : Sections}
    (hfiles : Shipped.IsIn s.store s.config) (htemplate : p.template = "Preview.template")
    (hincluded : includesPass m p = true)
    (hf : passFields m.graph m.output.node.id p m.mode m.keywords = .ok f)
    (hsections : passSections m p f s.config.debugOutput = .ok sections) (text : String) :
    processTemplate (s.templateContext (sections.set "InstancedProperties" text) f.active)
      (s.config.templateRoot.join ⟨p.template⟩) = s.passText m p := by
  have hnames : ∀ name ∈ Shipped.previewNames,
      (sections.set "InstancedProperties" text).get? name = sections.get? name := by
    intro name hname
    have hother : ∀ name ∈ Shipped.previewNames, name ≠ "InstancedProperties" := by decide
    exact sections.get?_set_of_ne (hother name hname) text
  have hread : (s.templateContext sections f.active).store.readText?
      (s.config.templateRoot.join ⟨"Preview.template"⟩) = some Shipped.preview := hfiles.preview
  have hfile : ∀ name ∈ Shipped.includedNames, ∃ inner,
      (s.templateContext sections f.active).store.readText?
          ((s.templateContext sections f.active).sharedDir.join ⟨name⟩) = some inner ∧
        Template.AsksOnly Shipped.previewNames [] inner := by
    intro name hname
    obtain ⟨inner, hinner, hasks⟩ := hfiles.exists_included hname
    exact ⟨inner, hinner, hasks.mono (List.nil_subset _)⟩
  have hsame := processTemplate_congr hread Shipped.asksOnly_preview.1 hnames hfile
  rw [passText_eq hincluded hf hsections, htemplate]
  exact hsame

/-- **A property that is read and nowhere declared**: the shader of a preview is generated, the
code of its live node reads a property that is held per instance, the material declares nothing,
and the text does not depend on the section that declares it. -/
theorem exists_property_without_declaration :
    (∃ shader, instanceGenerator.generate "f" .final = .ok shader) ∧
      previewPass ∈ Shipped.passes ∧
      ∃ m r statements sections out, m.graph = instanceGraph ∧ m.mode = .final ∧
        instanceGraph.operation "f" = .ok m.output ∧
        collectProperties instanceGraph .final ["f"] = .ok m.properties ∧
        passFields instanceGraph "f" previewPass .final [] = .ok r ∧
        (⟨"f", none⟩ : LiveNode) ∈ r.pixel.nodes ∧
        m.output.statements (m.evaluation .pixel) = .ok statements ∧
        (∃ statement ∈ statements, "_X" ∈ statement.properties) ∧
        passSections m previewPass r instanceGenerator.config.debugOutput = .ok sections ∧
        instanceGenerator.passText m previewPass = .ok (some out) ∧
          materialDeclarations m.properties = [] ∧
          ∀ text, processTemplate (instanceGenerator.templateContext
              (sections.set "InstancedProperties" text) r.active)
            (instanceGenerator.config.templateRoot.join ⟨previewPass.template⟩) = .ok (some out) := by
  have hp := previewPass_mem_passes
  have hwalk : instanceGraph.evaluationOrder "f" = .ok ["f"] := by decide +kernel
  have hkind : ∀ id ∈ ["f"], ∃ o, instanceGraph.operation id = .ok o ∧ o.kind ≠ .keyword :=
    Graph.exists_operation_of_check (by decide +kernel)
  have hids : (instanceGraph.connections.map Connection.id).Nodup := by decide
  have hwalked : instanceGraph.IsWalked "f" ["f"] :=
    ⟨hids, hwalk, fun id hid => (hkind id hid).imp fun _ => And.left⟩
  have hvalues : ∀ k ∈ instanceGraph.keywords, k.hasValues = true := List.forall_mem_nil _
  have hfiles : Shipped.IsIn instanceGenerator.store instanceGenerator.config :=
    Shipped.isIn_storeIn
  refine ⟨Generator.exists_generate_shipped hwalked hvalues rfl rfl hfiles hkind, hp, ?_⟩
  obtain ⟨properties, hproperties, hnone⟩ : ∃ properties,
      collectProperties instanceGraph .final ["f"] = .ok properties ∧
        decide (materialDeclarations properties = []) = true :=
    Outcome.exists_of_check (by decide +kernel)
  obtain ⟨f, hf, hincluded⟩ : ∃ o, instanceGraph.operation "f" = .ok o ∧
      Generator.includesPass ⟨instanceGraph, o, .final, []⟩ previewPass = true :=
    Outcome.exists_of_check (by decide +kernel)
  obtain ⟨r, hr, hn⟩ : ∃ r, passFields instanceGraph "f" previewPass .final [] = .ok r ∧
      decide ((⟨"f", none⟩ : LiveNode) ∈ r.pixel.nodes) = true :=
    Outcome.exists_of_check (by decide +kernel)
  obtain ⟨o, statements, ho, hstatements, hreads⟩ := exists_statement_instance
  obtain rfl : f = o := Except.ok.inj (hf.symm.trans ho)
  let m : Material := ⟨instanceGraph, f, .final, properties⟩
  have hid : m.output.node.id = "f" := Graph.id_of_operation hf
  have hout : m.graph.operation m.output.node.id = .ok m.output := hid ▸ hf
  have hincluded : Generator.includesPass m previewPass = true := hincluded
  have hfields : passFields m.graph m.output.node.id previewPass m.mode m.keywords = .ok r :=
    hid ▸ hr
  have hwalked : m.graph.IsWalked m.output.node.id ["f"] := hid ▸ hwalked
  obtain ⟨sections, out, hsections, htext⟩ := Generator.exists_passText_shipped hp hwalked
    (List.forall_mem_nil _) hout hfiles hkind hincluded hfields
  refine ⟨m, r, statements, sections, out, rfl, rfl, hf, hproperties, hr, of_decide_eq_true hn,
    hstatements, hreads, hsections, htext, of_decide_eq_true hnone,
    fun text => ?_⟩
  exact (Generator.passText_preview hfiles rfl hincluded hfields hsections text).trans htext

end MaterialShader
