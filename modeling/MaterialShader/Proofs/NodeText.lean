import MaterialShader.Node.Code
import MaterialShader.Proofs.Choice
import MaterialShader.Proofs.Outcome

/-!
# The lines of nodes

Every statement of a node is written on lines of its own.  The names in it are made of
identifier characters, whatever a document calls its nodes, sockets and properties, so no name
can break a line, and no line but a directive looks like one.

## Main definitions

* `Shading.Expr.names` — the names that an expression is written with.
* `Shading.Statement.IsPlain` — a statement of one line.

## Main results

* `Shading.Expr.isOneLine_text` — an expression is written on one line.
* `Operation.isPlain_statements` — the statements of a node are plain, unless it is a keyword
  node.
* `Operation.statements_keyword` — those of a keyword node are one choice among its inputs.
-/

namespace MaterialShader

open Shading (ValueType Typed Expr Statement Arm)

/-! ### Names -/

namespace Text

/-- A name holds identifier characters only. -/
def IsName (s : String) : Prop := ∀ c ∈ s.toList, isIdentChar c = true

instance (s : String) : Decidable (IsName s) :=
  decidable_of_iff (s.toList.all isIdentChar = true) List.all_eq_true

theorem isName_append {s t : String} : IsName (s ++ t) ↔ IsName s ∧ IsName t := by
  unfold IsName
  rw [String.toList_append]
  exact List.forall_mem_append

theorem IsName.isOneLine {s : String} (h : IsName s) : IsOneLine s :=
  ⟨fun hmem => absurd (h _ hmem) (by decide), fun hmem => absurd (h _ hmem) (by decide)⟩

theorem isName_identifier (name : String) : IsName (identifier name) := by
  intro c hc
  rw [identifier, String.toList_ofList] at hc
  exact List.all_eq_true.mp (all_identifierChars name.toList) c hc

theorem isName_toString (n : Nat) : IsName (toString n) := by
  intro c hc
  rw [Nat.toString_eq_ofList_toDigits, String.toList_ofList] at hc
  simp [isIdentChar, Char.isAlphanum, Nat.isDigit_of_mem_toDigits (by decide) (by decide) hc]

end Text

open Text (IsName IsOneLine isName_append isName_identifier isOneLine_append isOneLine_intercalate)

theorem Node.isName_variable (n : Node) (socket : String) : IsName (n.variable socket) := by
  have hname : ∀ a b c : String, IsName a → IsName b → IsName c →
      IsName ("_" ++ a ++ "_" ++ b ++ "_" ++ c) := by
    intro a b c ha hb hc
    simp only [isName_append, ha, hb, hc, and_true]
    decide
  exact hname _ _ _ (isName_identifier _) (isName_identifier _) (isName_identifier _)

theorem Node.isOneLine_variable (n : Node) (socket : String) : IsOneLine (n.variable socket) :=
  (n.isName_variable socket).isOneLine

/-! ### Constants -/

namespace Single

theorem mem_unitsText {units : Nat} {c : Char} (h : c ∈ unitsText units) :
    c = '.' ∨ c.isDigit = true := by
  have hdigits : ∀ n, ∀ c ∈ Nat.toDigits 10 n, c.isDigit = true := fun n c hc =>
    Nat.isDigit_of_mem_toDigits (by decide) (by decide) hc
  have hfraction : ∀ c ∈ dropTrailing '0' (paddedDigits places (units % Nat.pow 10 places)),
      c.isDigit = true := by
    intro c hc
    rw [dropTrailing, List.mem_reverse] at hc
    have hc := List.mem_reverse.mp ((List.dropWhile_sublist _).subset hc)
    rcases List.mem_append.mp hc with hc | hc
    · rw [List.eq_of_mem_replicate hc]
      decide
    · exact hdigits _ c hc
  rw [unitsText] at h
  split at h
  · exact Or.inr (hdigits _ c h)
  · rcases List.mem_append.mp h with h | h
    · exact Or.inr (hdigits _ c h)
    · rcases List.mem_cons.mp h with h | h
      · exact Or.inl h
      · exact Or.inr (hfraction c h)

theorem mem_literal {s : Single} {c : Char} (h : c ∈ s.literal.toList) :
    c = '-' ∨ c = '.' ∨ c.isDigit = true := by
  unfold literal at h
  split at h
  · rw [List.mem_singleton.mp h]
    decide
  · rw [String.toList_ofList] at h
    rcases List.mem_append.mp h with h | h
    · split at h
      · exact Or.inl (List.mem_singleton.mp h)
      · exact absurd h List.not_mem_nil
    · exact Or.inr (mem_unitsText h)

theorem isOneLine_literal (s : Single) : IsOneLine s.literal :=
  ⟨fun hmem => absurd (mem_literal hmem) (by decide),
    fun hmem => absurd (mem_literal hmem) (by decide)⟩

end Single

namespace Shading

theorem ValueType.isOneLine_name (t : ValueType) : IsOneLine t.name := by cases t <;> decide

theorem isOneLine_constantText (values : List Single) : IsOneLine (constantText values) := by
  have hliterals : ∀ text ∈ values.map Single.literal, IsOneLine text := by
    intro text htext
    obtain ⟨s, -, rfl⟩ := List.mem_map.mp htext
    exact s.isOneLine_literal
  unfold constantText
  split
  · cases values.head? with
    | none =>
      rw [Option.map_none, Option.getD_none]
      exact Single.isOneLine_literal _
    | some s =>
      rw [Option.map_some, Option.getD_some]
      exact s.isOneLine_literal
  · simp only [isOneLine_append, ValueType.isOneLine_name,
      isOneLine_intercalate (by decide : IsOneLine ", ") hliterals]
    decide

theorem isOneLine_selection (lanes : List Lane) : IsOneLine (Lane.selection lanes) := by
  refine Text.IsName.isOneLine fun c hc => ?_
  rw [Lane.selection, String.toList_ofList] at hc
  obtain ⟨l, -, rfl⟩ := List.mem_map.mp hc
  cases l <;> decide

/-! ### Expressions -/

namespace Expr

/-- The names that an expression is written with. -/
def names : Expr → List String
  | .variable name => [name]
  | .property name => [name]
  | .input member => [member]
  | .constant _ => []
  | .group e => e.names
  | .lanes e _ => e.names
  | .channel e _ => e.names
  | .pad _ e _ => e.names
  | .quotient a b => a.names ++ b.names
  | .sample texture uv _ => texture :: uv.names
  | .scene _ uv => uv.names

/-- **An expression is written on one line** if its names are. -/
theorem isOneLine_text {e : Expr} (h : ∀ name ∈ e.names, IsOneLine name) : IsOneLine e.text := by
  induction e with
  | «variable» name => exact h name (List.mem_singleton_self _)
  | property name => exact h name (List.mem_singleton_self _)
  | input member =>
    exact isOneLine_append.mpr ⟨by decide, h member (List.mem_singleton_self _)⟩
  | constant values =>
    show IsOneLine (constantText values)
    exact isOneLine_constantText values
  | group e ih =>
    show IsOneLine ("(" ++ e.text ++ ")")
    simp only [isOneLine_append, ih h]
    decide
  | lanes e selected ih =>
    show IsOneLine (e.text ++ "." ++ Lane.selection selected)
    simp only [isOneLine_append, ih h, isOneLine_selection selected]
    decide
  | channel e selected ih =>
    have hletter : IsOneLine selected.letter := by cases selected <;> decide
    show IsOneLine (e.text ++ "." ++ selected.letter)
    simp only [isOneLine_append, ih h, hletter]
    decide
  | pad type e zeros ih =>
    have hparts : ∀ text ∈ e.text :: List.replicate zeros "0", IsOneLine text := by
      intro text htext
      rcases List.mem_cons.mp htext with rfl | htext
      · exact ih h
      · rw [List.eq_of_mem_replicate htext]
        decide
    show IsOneLine
      (type.name ++ "(" ++ ", ".intercalate (e.text :: List.replicate zeros "0") ++ ")")
    simp only [isOneLine_append, ValueType.isOneLine_name,
      isOneLine_intercalate (by decide : IsOneLine ", ") hparts]
    decide
  | quotient a b iha ihb =>
    have ha := iha fun name hn => h name (List.mem_append_left _ hn)
    have hb := ihb fun name hn => h name (List.mem_append_right _ hn)
    show IsOneLine (a.text ++ " / " ++ b.text)
    simp only [isOneLine_append, ha, hb]
    decide
  | sample texture uv explicitLevel ih =>
    obtain ⟨htexture, huv⟩ := List.forall_mem_cons.mp h
    cases explicitLevel with
    | false =>
      show IsOneLine
        ("SAMPLE_TEXTURE2D(" ++ texture ++ ", sampler" ++ texture ++ ", " ++ uv.text ++ ")")
      simp only [isOneLine_append, htexture, ih huv]
      decide
    | true =>
      show IsOneLine ("SAMPLE_TEXTURE2D_LOD(" ++ texture ++ ", sampler" ++ texture ++ ", " ++
        uv.text ++ ", 0)")
      simp only [isOneLine_append, htexture, ih huv]
      decide
  | scene buffer uv ih =>
    have hsampler : IsOneLine buffer.sampler := by cases buffer <;> decide
    show IsOneLine (buffer.sampler ++ "(" ++ uv.text ++ ")")
    simp only [isOneLine_append, hsampler, ih h]
    decide

theorem names_coerce (v : Typed) (target : ValueType) :
    (v.coerce target).expr.names = v.expr.names := by
  unfold Typed.coerce
  split
  · rfl
  · split
    · rfl
    · split <;> rfl

end Expr

end Shading

namespace Graph

variable {g : Graph} {n : Node} {socket : String} {type : ValueType} {default : Expr} {v : Typed}

/-- The value of an input is a variable of the node connected to it, or the default. -/
theorem isOneLine_of_mem_names (h : g.inputValue n socket type default = .ok v)
    (hdefault : ∀ name ∈ default.names, IsOneLine name) :
    ∀ name ∈ v.expr.names, IsOneLine name := by
  intro name hname
  obtain ⟨source?, hsource, h⟩ := Outcome.bind_eq_ok_iff.mp h
  cases source? with
  | none =>
    obtain rfl := Outcome.pure_eq_ok_iff.mp h
    exact hdefault name hname
  | some value =>
    obtain rfl := Outcome.pure_eq_ok_iff.mp h
    rw [Expr.names_coerce] at hname
    obtain ⟨connected?, -, hvalue⟩ := Outcome.bind_eq_ok_iff.mp hsource
    cases connected? with
    | none => simp [Outcome.pure_eq_ok_iff] at hvalue
    | some c =>
      obtain ⟨t, -, hvalue⟩ := Outcome.bind_eq_ok_iff.mp hvalue
      rw [Outcome.pure_eq_ok_iff, Option.some_inj] at hvalue
      subst hvalue
      rw [List.mem_singleton.mp hname]
      exact c.1.node.isOneLine_variable c.2

theorem isOneLine_inputValue (h : g.inputValue n socket type default = .ok v)
    (hdefault : ∀ name ∈ default.names, IsOneLine name) : IsOneLine v.expr.text :=
  Expr.isOneLine_text (isOneLine_of_mem_names h hdefault)

end Graph

/-! ### Statements -/

namespace Shading

open Writer (lineBody)
open Preprocessor (lineRole lineRole_eq_text)

/-- A statement of one line, which nothing it is made of breaks. -/
def Statement.IsPlain : Statement → Prop
  | .define _ name value => IsOneLine name ∧ IsOneLine value.text
  | .declare _ name => IsOneLine name
  | .call _ left right result => IsOneLine left.text ∧ IsOneLine right.text ∧ IsOneLine result
  | .select _ _ _ => False

theorem isOneLine_definitionLine {type : ValueType} {name : String} {value : Expr}
    (hname : IsOneLine name) (hvalue : IsOneLine value.text) :
    IsOneLine (definitionLine type name value) := by
  simp only [definitionLine, isOneLine_append, type.isOneLine_name, hname, hvalue]
  decide

/-- A line that starts with the name of a type is text to the preprocessor. -/
theorem lineRole_type (type : ValueType) (rest : String) (depth : Nat) :
    lineRole (lineBody depth (type.name ++ rest)) = .text := by
  have hfirst : (type.name ++ rest).toList.head? = some 'f' := by
    rw [String.toList_append, List.head?_append]
    cases type <;> rfl
  exact lineRole_eq_text depth hfirst (by decide) (by decide)

theorem lineRole_definitionLine (type : ValueType) (name : String) (value : Expr) (depth : Nat) :
    lineRole (lineBody depth (definitionLine type name value)) = .text := by
  have hline : definitionLine type name value =
      type.name ++ (" " ++ name ++ " = " ++ value.text ++ ";") := by
    simp [definitionLine, String.append_assoc]
  rw [hline]
  exact lineRole_type type _ depth

/-- A plain statement is one line of text. -/
theorem Statement.IsPlain.code_eq {s : Statement} (h : s.IsPlain) :
    ∃ line, s.code = [.line line] ∧ IsOneLine line ∧
      ∀ depth, lineRole (lineBody depth line) = .text := by
  cases s with
  | define type name value =>
    exact ⟨_, rfl, isOneLine_definitionLine h.1 h.2, lineRole_definitionLine type name value⟩
  | declare type name =>
    refine ⟨_, rfl, ?_, fun depth => ?_⟩
    · have hname : IsOneLine name := h
      simp only [isOneLine_append, type.isOneLine_name, hname]
      decide
    · rw [String.append_assoc, String.append_assoc]
      exact lineRole_type type _ depth
  | call helper left right result =>
    obtain ⟨hleft, hright, hresult⟩ := h
    refine ⟨_, rfl, ?_, fun depth => ?_⟩
    · have hoperator : IsOneLine helper.operator.name := by cases helper.operator <;> decide
      simp only [Helper.name, isOneLine_append, helper.type.isOneLine_name, hoperator, hleft,
        hright, hresult]
      decide
    · have hfirst : (helper.name ++ "(" ++ left.text ++ ", " ++ right.text ++ ", " ++ result ++
          ");").toList.head? = some 'U' := by
        simp [Helper.name]
      exact lineRole_eq_text depth hfirst (by decide) (by decide)
  | select type name arms => exact h.elim

end Shading

/-! ### The statements of nodes -/

/-- The zero of a type, as an expression. -/
def zeroExpr (type : ValueType) : Expr := .constant (List.replicate type.width (.ofNat 0))

namespace Operation

variable {e : Evaluation} {o : Operation} {statements : List Statement}

theorem isName_backingProperty {mode : Mode} {p : Property}
    (h : o.backingProperty? mode = some p) : IsName p.referenceName := by
  obtain ⟨value, -, hp⟩ := Option.bind_eq_some_iff.mp h
  split at hp
  · rw [← Option.some.inj hp]
    exact isName_identifier _
  · split at hp
    · rw [← Option.some.inj hp]
      exact isName_identifier _
    · exact absurd hp (by simp)

theorem isPlain_define_input {type : ValueType} {socket member : String}
    (hmember : IsOneLine member) :
    (Statement.define type (o.node.variable socket) (.input member)).IsPlain :=
  ⟨o.node.isOneLine_variable socket,
    Expr.isOneLine_text (List.forall_mem_singleton.mpr hmember)⟩

theorem isPlain_constantStatements {mode : Mode} {value : PropertyValue} :
    ∀ s ∈ o.constantStatements mode value, s.IsPlain := by
  intro s hs
  rw [List.mem_singleton.mp hs]
  refine ⟨o.node.isOneLine_variable "Out", Expr.isOneLine_text fun name hname => ?_⟩
  cases hproperty : o.backingProperty? mode with
  | none =>
    rw [hproperty] at hname
    cases value <;> exact absurd hname List.not_mem_nil
  | some p =>
    rw [hproperty] at hname
    rw [List.mem_singleton.mp hname]
    exact (isName_backingProperty hproperty).isOneLine

theorem isPlain_geometryStatements : ∀ s ∈ o.geometryStatements, s.IsPlain := by
  intro s hs
  have huv : IsOneLine (Requirements.uvInput o.node.uvChannel) :=
    isOneLine_append.mpr ⟨by decide, (Text.isName_toString _).isOneLine⟩
  have hspace : IsOneLine o.node.space.inputName := by cases o.node.space <;> decide
  unfold geometryStatements at hs
  split at hs
  · obtain ⟨p, -, rfl⟩ := List.mem_map.mp hs
    exact ⟨o.node.isOneLine_variable p.1, Expr.isOneLine_text
      (List.forall_mem_singleton.mpr (by decide))⟩
  · rw [List.mem_singleton.mp hs]
    exact isPlain_define_input huv
  · rw [List.mem_singleton.mp hs]
    exact isPlain_define_input (isOneLine_append.mpr ⟨hspace, by decide⟩)
  · rw [List.mem_singleton.mp hs]
    exact isPlain_define_input (isOneLine_append.mpr ⟨hspace, by decide⟩)
  · rw [List.mem_singleton.mp hs]
    exact isPlain_define_input (by decide)
  · exact absurd hs List.not_mem_nil

theorem isPlain_operatorStatements {n : Node} {op : Shading.Operator} {type : ValueType}
    (h : operatorStatements e n op type = .ok statements) : ∀ s ∈ statements, s.IsPlain := by
  obtain ⟨left, hleft, h⟩ := Outcome.bind_eq_ok_iff.mp h
  obtain ⟨right, hright, h⟩ := Outcome.bind_eq_ok_iff.mp h
  obtain rfl := Outcome.pure_eq_ok_iff.mp h
  have hnone : ∀ name ∈ (Expr.constant (List.replicate type.width op.identity)).names,
      IsOneLine name := List.forall_mem_nil _
  refine List.forall_mem_cons.mpr ⟨n.isOneLine_variable "Out", List.forall_mem_singleton.mpr ?_⟩
  exact ⟨Graph.isOneLine_inputValue hleft hnone, Graph.isOneLine_inputValue hright hnone,
    n.isOneLine_variable "Out"⟩

theorem isPlain_textureStatements {n : Node} (h : textureStatements e n = .ok statements) :
    ∀ s ∈ statements, s.IsPlain := by
  obtain ⟨uv, huv, h⟩ := Outcome.bind_eq_ok_iff.mp h
  obtain rfl := Outcome.pure_eq_ok_iff.mp h
  have hmesh : ∀ name ∈ (meshUv n.uvChannel).names, IsOneLine name :=
    List.forall_mem_singleton.mpr
      (isOneLine_append.mpr ⟨by decide, (Text.isName_toString _).isOneLine⟩)
  refine List.forall_mem_cons.mpr ⟨⟨n.isOneLine_variable "RGBA", Expr.isOneLine_text ?_⟩, ?_⟩
  · exact List.forall_mem_cons.mpr
      ⟨(isName_identifier _).isOneLine, Graph.isOneLine_of_mem_names huv hmesh⟩
  · intro s hs
    obtain ⟨c, -, rfl⟩ := List.mem_map.mp hs
    exact ⟨n.isOneLine_variable _, Expr.isOneLine_text
      (List.forall_mem_singleton.mpr (n.isOneLine_variable "RGBA"))⟩

theorem isPlain_sceneStatements {n : Node} {buffer : Shading.SceneBuffer} {type : ValueType}
    (h : sceneStatements e n buffer type = .ok statements) : ∀ s ∈ statements, s.IsPlain := by
  obtain ⟨uv, huv, h⟩ := Outcome.bind_eq_ok_iff.mp h
  obtain rfl := Outcome.pure_eq_ok_iff.mp h
  have hscreen : ∀ name ∈ screenUv.names, IsOneLine name := by decide
  exact List.forall_mem_singleton.mpr ⟨n.isOneLine_variable "Out",
    Expr.isOneLine_text (Graph.isOneLine_of_mem_names huv hscreen)⟩

/-- **The statements of a node are plain**, unless it is a keyword node. -/
theorem isPlain_statements (hkind : o.kind ≠ .keyword) (h : o.statements e = .ok statements) :
    ∀ s ∈ statements, s.IsPlain := by
  have hconstant : ∀ s ∈ (o.constant?.map (o.constantStatements e.mode)).getD [], s.IsPlain := by
    cases o.constant? with
    | none => exact List.forall_mem_nil _
    | some value => exact isPlain_constantStatements
  unfold Operation.statements at h
  cases hk : o.kind with
  | master =>
    rw [hk] at h
    rw [← Except.ok.inj h]
    exact List.forall_mem_nil _
  | color | float | vector =>
    rw [hk] at h
    rw [← Except.ok.inj h]
    exact hconstant
  | time | uv | position | normal | vertexColor =>
    rw [hk] at h
    rw [← Except.ok.inj h]
    exact isPlain_geometryStatements
  | add | multiply =>
    rw [hk] at h
    obtain ⟨type, -, h⟩ := Outcome.bind_eq_ok_iff.mp h
    exact isPlain_operatorStatements h
  | sampleTexture =>
    rw [hk] at h
    exact isPlain_textureStatements h
  | sceneDepth | sceneColor =>
    rw [hk] at h
    exact isPlain_sceneStatements h
  | keyword => exact absurd hk hkind

/-- The statements of a keyword node: one variable, with a branch for each branch of the
keyword, which gives it the value of the input of that branch. -/
theorem statements_keyword (hkind : o.kind = .keyword) (h : o.statements e = .ok statements) :
    ∃ k type, ∃ value : String → Expr, o.node.keyword e.keywords = .ok k ∧
      e.graph.outputType o "Out" = .ok type ∧
      (∀ b ∈ k.branches, ∃ v, e.graph.inputValue o.node b.2 type (zeroExpr type) = .ok v ∧
        value b.2 = v.expr) ∧
      statements =
        [.select type (o.node.variable "Out") (k.branches.map fun b => ⟨b.1, value b.2⟩)] := by
  unfold Operation.statements at h
  rw [hkind] at h
  obtain ⟨k, hk, h⟩ := Outcome.bind_eq_ok_iff.mp h
  obtain ⟨type, htype, h⟩ := Outcome.bind_eq_ok_iff.mp h
  obtain ⟨arms, harms, h⟩ := Outcome.bind_eq_ok_iff.mp h
  rw [Outcome.pure_eq_ok_iff] at h
  -- the arms are known once the values of the inputs are a function of the sockets
  let value : String → Expr := fun socket =>
    match e.graph.inputValue o.node socket type (zeroExpr type) with
    | .ok v => v.expr
    | .error _ => zeroExpr type
  have hvalue : ∀ {socket v}, e.graph.inputValue o.node socket type (zeroExpr type) = .ok v →
      value socket = v.expr := by
    intro socket v hv
    simp only [value, hv]
  have harm : ∀ (b : Shading.Directive × String) (a : Arm), (do
      return Arm.mk b.1 (← e.graph.inputValue o.node b.2 type (zeroExpr type)).expr) = .ok a →
      a = ⟨b.1, value b.2⟩ := by
    intro b a hba
    obtain ⟨v, hv, hba⟩ := Outcome.bind_eq_ok_iff.mp hba
    rw [hvalue hv, ← Outcome.pure_eq_ok_iff.mp hba]
  refine ⟨k, type, value, hk, htype, fun b hb => ?_, ?_⟩
  · obtain ⟨a, ha⟩ := Outcome.exists_of_mapM harms hb
    obtain ⟨v, hv, -⟩ := Outcome.bind_eq_ok_iff.mp ha
    exact ⟨v, hv, hvalue hv⟩
  · rw [← h, Outcome.eq_map_of_mapM harms harm]

end Operation
end MaterialShader
