import MaterialShader.Graph.Decode
import MaterialShader.Proofs.ResolvedCode
import MaterialShader.Proofs.StageType
import MaterialShader.Proofs.VariableName

/-!
# Variables that a description declares

A line declares a variable if it begins with a type and a name, and then either gives a value or
ends.  The function of a description declares the struct that it fills in, and then the variables
of its nodes, one node after the other.  What stands behind the guard of another permutation is
gone by then, and of the branches of a keyword node, which all declare the same variable, one is
left.

So the variables that are declared can be told from the live nodes, and whether one of them is
declared twice from the ids of these nodes.  The ids themselves differ, but their identifiers need
not: nodes `a.b` and `a_b` of one type are spelled alike.

## Main definitions

* `declaredVariable?`, `declaredVariables` — the variables that the lines of a text declare.
* `Code.Declares` — what a preprocessor leaves of some code declares certain variables.
* `Code.takenArm?` — the branch of a choice that is taken.
* `Keywords.AreSet` — the keywords have values.

## Main results

* `Operation.declares_keyword_unless` — the variable that the code of a keyword node declares.
* `Operation.declares_code`, `exists_declares_stageCode` — the variables that the code of a node
  and of a stage declare.
* `declaredVariables_descriptionFunction` — the variables that the function of a description
  declares, and when these differ.
* `exists_variable_declared_twice` — a graph in which they do not.
-/

namespace MaterialShader

open Shading (Statement)
open Preprocessor
open Writer (lineBody)

/-! ### Reading declarations -/

/-- The types of the variables of a description. -/
def variableTypes : List String :=
  ["float", "float2", "float3", "float4", "VertexDescription", "SurfaceDescription"]

/-- The variable that a line declares.  The line begins with a type and a name, and then it gives
a value or ends. -/
def declaredVariable? (line : String) : Option String :=
  match words line.toList with
  | [type, name] =>
      if String.ofList type ∈ variableTypes ∧ name.getLast? = some ';' then
        some (String.ofList name.dropLast)
      else none
  | type :: name :: sign :: _ =>
      if String.ofList type ∈ variableTypes ∧ sign = ['='] then some (String.ofList name) else none
  | _ => none

/-- The variables that a text declares where some symbols are defined. -/
def declaredVariables (defined : String → Bool) (text : String) : List String :=
  (preprocess (fun s => some (defined s)) text).filterMap declaredVariable?

theorem declaredVariable?_lineBody (depth : Nat) (line : String) :
    declaredVariable? (lineBody depth line) = declaredVariable? line := by
  rw [declaredVariable?, words_lineBody, declaredVariable?]

section Lines

variable {line type name : String}

theorem words_of_mem_variableTypes (h : type ∈ variableTypes) :
    words type.toList = [type.toList] := by
  have hall : ∀ type ∈ variableTypes, ' ' ∉ type.toList ∧ type.toList ≠ [] := by decide
  exact words_of_notMem (hall type h).1 (hall type h).2

/-- A line that gives a variable its value. -/
theorem declaredVariable?_value (value : String) (htype : type ∈ variableTypes)
    (hblank : ' ' ∉ name.toList) (hne : name ≠ "")
    (hline : line = type ++ " " ++ name ++ " = " ++ value) :
    declaredVariable? line = some name := by
  have hchars : line.toList = type.toList ++ ' ' :: (name.toList ++ ' ' ::
      (['='] ++ ' ' :: value.toList)) := by simp [hline]
  have hwords : words line.toList =
      type.toList :: name.toList :: ['='] :: words value.toList := by
    rw [hchars, words_append_blank, words_append_blank, words_append_blank,
      words_of_mem_variableTypes htype, words_of_notMem hblank (mt String.toList_eq_nil_iff.mp hne),
      words_of_notMem (by decide) (by decide)]
    rfl
  rw [declaredVariable?, hwords]
  simp [htype]

/-- A line that only declares a variable. -/
theorem declaredVariable?_plain (htype : type ∈ variableTypes) (hblank : ' ' ∉ name.toList)
    (hline : line = type ++ " " ++ name ++ ";") : declaredVariable? line = some name := by
  have hchars : line.toList = type.toList ++ ' ' :: (name.toList ++ [';']) := by simp [hline]
  have hwords : words line.toList = [type.toList, name.toList ++ [';']] := by
    rw [hchars, words_append_blank, words_of_mem_variableTypes htype,
      words_of_notMem (by simp [hblank]) (by simp)]
    rfl
  rw [declaredVariable?, hwords]
  simp [htype]

example : declaredVariable? "    float _Add_sum_Out;" = some "_Add_sum_Out" := by decide +kernel

/-- A line that does not begin as a type does declares nothing. -/
theorem declaredVariable?_eq_none {first : Char} (hline : line.toList.head? = some first)
    (hblank : first ≠ ' ') (htypes : ∀ t ∈ variableTypes, t.toList.head? ≠ some first) :
    declaredVariable? line = none := by
  obtain ⟨rest, hrest⟩ := List.head?_eq_some_iff.mp hline
  obtain ⟨w, later, hwords⟩ := words_cons_of_ne rest hblank
  have htype : String.ofList (first :: w) ∉ variableTypes := by
    intro hmem
    exact htypes _ hmem (by rw [String.toList_ofList]; rfl)
  rw [declaredVariable?, hrest, hwords]
  split
  · next heq =>
    obtain ⟨rfl, -⟩ := List.cons.inj heq
    rw [if_neg fun h => htype h.1]
  · next heq =>
    obtain ⟨rfl, -⟩ := List.cons.inj heq
    rw [if_neg fun h => htype h.1]
  · rfl

end Lines

/-! ### Code that declares variables -/

namespace Code

/-- A preprocessor leaves lines of the code that declare some variables, wherever the code
stands. -/
def Declares (known : String → Option Bool) (code : List Code) (names : List String) : Prop :=
  ∃ left, LeavesLines known code left ∧
    ∀ depth, (left depth).filterMap declaredVariable? = names

/-- The first branch of a choice whose condition holds. -/
def takenArm? (defined : String → Bool) (arms : List (Shading.Directive × String)) :
    Option (Shading.Directive × String) :=
  arms.find? fun a => directiveValue (fun s => some (defined s)) a.1 == some true

namespace Declares

variable {known : String → Option Bool} {code rest : List Code} {names names' : List String}

theorem nil : Declares known [] [] := ⟨_, LeavesLines.nil, fun _ => rfl⟩

theorem line {s : String} (h : IsPlain s) :
    Declares known [.line s] (declaredVariable? s).toList := by
  refine ⟨_, LeavesLines.line h, fun depth => ?_⟩
  rw [List.filterMap_cons, declaredVariable?_lineBody]
  cases declaredVariable? s <;> rfl

theorem append (h : Declares known code names) (hrest : Declares known rest names') :
    Declares known (code ++ rest) (names ++ names') := by
  obtain ⟨left, hleft, hnames⟩ := h
  obtain ⟨left', hleft', hnames'⟩ := hrest
  refine ⟨_, hleft.append hleft', fun depth => ?_⟩
  rw [List.filterMap_append, hnames, hnames']

theorem flatMap {ι : Type} {items : List ι} {f : ι → List Code} {g : ι → List String}
    (h : ∀ i ∈ items, Declares known (f i) (g i)) :
    Declares known (items.flatMap f) (items.flatMap g) := by
  induction items with
  | nil => exact nil
  | cons i items ih =>
    obtain ⟨hi, hitems⟩ := List.forall_mem_cons.mp h
    rw [List.flatMap_cons, List.flatMap_cons]
    exact hi.append (ih hitems)

/-- Braces declare nothing. -/
theorem block (h : Declares known code names) : Declares known [.nested .block code] names := by
  obtain ⟨left, hleft, hnames⟩ := h
  have hbraces : ∀ brace ∈ ["\x7b", "\x7d"], declaredVariable? brace = none := by decide +kernel
  refine ⟨_, hleft.nested .block, fun depth => ?_⟩
  have hedge : ∀ brace ∈ ["\x7b", "\x7d"],
      [lineBody depth brace].filterMap declaredVariable? = [] := by
    intro brace hbrace
    rw [List.filterMap_cons, declaredVariable?_lineBody, hbraces brace hbrace]
    rfl
  rw [List.filterMap_append, List.filterMap_append, hnames]
  show [lineBody depth "\x7b"].filterMap declaredVariable? ++ names ++
    [lineBody depth "\x7d"].filterMap declaredVariable? = names
  rw [hedge _ (by decide), hedge _ (by decide), List.nil_append, List.append_nil]

/-- Code under a condition declares its variables or none. -/
theorem guarded {c : Shading.Condition} {holds : Bool} (hread : IsReadable c)
    (hvalue : conditionValue known c = some holds) (h : Declares known code names) :
    Declares known (Code.guarded c code) (if holds then names else []) := by
  obtain ⟨left, hleft, hnames⟩ := h
  refine ⟨_, hleft.guarded hread hvalue, fun depth => ?_⟩
  cases holds with
  | true => exact hnames depth
  | false => rfl

/-- The code of a node declares the same in the code of its stage. -/
theorem stageBody (h : Declares known code names) :
    Declares known (stageBody code) names := by
  obtain ⟨left, hleft, hnames⟩ := h
  exact ⟨left, hleft.congr fun depth => StandsIn.writtenLines_stageBody depth (hleft.isOneLine 0),
    hnames⟩

/-- A choice whose branches all declare one variable declares it once, if one of them is
taken. -/
theorem choice {defined : String → Bool} {arms : List (Shading.Directive × String)} {name : String}
    (hchoice : IsChoice (arms.map Prod.fst))
    (hread : ∀ a ∈ arms, ∀ c ∈ directiveCondition? a.1, IsReadable c)
    (htext : ∀ a ∈ arms, Text.IsOneLine a.2 ∧ ∀ depth, lineRole (lineBody depth a.2) = .text)
    (hname : ∀ a ∈ arms, declaredVariable? a.2 = some name) :
    Declares (fun s => some (defined s)) (Code.choice arms)
      (if (takenArm? defined arms).isSome then [name] else []) := by
  have hvalue : ∀ a ∈ arms, (directiveValue (fun s => some (defined s)) a.1).isSome = true :=
    fun a ha => isSome_directiveValue defined (hread a ha)
  have hleft : LeavesLines (fun s => some (defined s)) (Code.choice arms)
      fun depth => ((takenArm? defined arms).map fun a => lineBody (depth + 1) a.2).toList := {
    isOneLine := fun depth => isOneLine_writtenLines_choice depth hread fun a ha => (htext a ha).1
    yields := fun depth =>
      yields_choice depth hchoice hread hvalue fun a ha => (htext a ha).2 (depth + 1) }
  refine ⟨_, hleft, fun depth => ?_⟩
  cases htaken : takenArm? defined arms with
  | none => rfl
  | some a => simp [declaredVariable?_lineBody, hname a (List.mem_of_find?_eq_some htaken)]

/-- The variables that the text of some code declares. -/
theorem declaredVariables_fullText {defined : String → Bool}
    (h : Declares (fun s => some (defined s)) code names) (depth : Nat) :
    declaredVariables defined (fullText depth code) = names := by
  obtain ⟨left, hleft, hnames⟩ := h
  rw [declaredVariables, preprocess, bodies_fullText (hleft.isOneLine depth),
    (hleft.yields depth).resolve_eq, hnames]

end Declares
end Code

/-! ### The code of a node -/

theorem Shading.ValueType.name_mem_variableTypes (type : ValueType) :
    type.name ∈ variableTypes := by
  cases type <;> decide

theorem Node.blank_notMem_variable (n : Node) (socket : String) :
    ' ' ∉ (n.variable socket).toList ∧ n.variable socket ≠ "" := by
  refine ⟨fun hmem => absurd (n.isName_variable socket _ hmem) (by decide), fun hempty => ?_⟩
  have hchars := n.toList_variable socket
  rw [hempty] at hchars
  exact List.cons_ne_nil _ _ hchars.symm

/-- A definition declares its variable. -/
theorem declaredVariable?_definitionLine (n : Node) (socket : String) (type : Shading.ValueType)
    (value : Shading.Expr) :
    declaredVariable? (Shading.definitionLine type (n.variable socket) value) =
      some (n.variable socket) :=
  declaredVariable?_value (value.text ++ ";") type.name_mem_variableTypes
    (n.blank_notMem_variable socket).1 (n.blank_notMem_variable socket).2
    (by simp [Shading.definitionLine, String.append_assoc])

/-- Each keyword has one of its values. -/
def Keywords.AreSet (ks : Keywords) (defined : String → Bool) : Prop :=
  ∀ k ∈ ks, k.hasValues = true → ∃ v < k.valueCount, (k.valueTest v).holds defined = true

/-- Where a keyword has a value, one of its branches is taken. -/
theorem Keyword.leavesOpen_eq_false {k : Keyword} {defined : String → Bool} {v : Nat}
    (hv : v < k.valueCount) (htest : (k.valueTest v).holds defined = true) :
    k.leavesOpen defined = false := by
  unfold leavesOpen
  split
  · next entry hkind hentries =>
    have hcount : k.valueCount = 1 := by simp [valueCount, hkind, hentries]
    obtain rfl : v = 0 := by omega
    have hsymbol : (k.valueTest 0).holds defined = defined (k.entrySymbol entry) := by
      simp [valueTest, valueSymbol?, hkind, hentries, Shading.Test.holds, Shading.Test.defined]
    rw [← hsymbol, htest]
    rfl
  · rfl

namespace Operation

variable {e : Evaluation} {o : Operation} {code : List Code} {defined : String → Bool}

/-- A plain statement declares its variable, if it has one. -/
theorem declares_statement {known : String → Option Bool} {n : Node} {s : Statement}
    (h : s.IsPlain) (hnames : ∀ d ∈ s.declarations, ∃ socket, d.1 = n.variable socket) :
    Code.Declares known s.code (s.declarations.map Prod.fst) := by
  obtain ⟨line, hcode, hline, hrole⟩ := h.code_eq
  have hplain : IsPlain line := ⟨hline, (Writer.lineBody_zero line ▸ hrole 0 :)⟩
  suffices hvariable : (declaredVariable? line).toList = s.declarations.map Prod.fst by
    rw [hcode, ← hvariable]
    exact .line hplain
  cases s with
  | define type name value =>
    obtain ⟨socket, rfl⟩ := hnames (name, type) (List.mem_singleton_self _)
    rw [← Code.line.inj (List.singleton_inj.mp hcode), declaredVariable?_definitionLine]
    rfl
  | declare type name =>
    obtain ⟨socket, rfl⟩ := hnames (name, type) (List.mem_singleton_self _)
    rw [← Code.line.inj (List.singleton_inj.mp hcode),
      declaredVariable?_plain type.name_mem_variableTypes (n.blank_notMem_variable socket).1 rfl]
    rfl
  | call helper left right result =>
    have hfirst : (helper.name ++ "(" ++ left.text ++ ", " ++ right.text ++ ", " ++ result ++
        ");").toList.head? = some 'U' := by
      simp [Shading.Helper.name]
    rw [← Code.line.inj (List.singleton_inj.mp hcode),
      declaredVariable?_eq_none hfirst (by decide) (by decide)]
    rfl
  | select type name arms => exact h.elim

/-- An arm of a keyword node is taken unless the keyword has no branch that is. -/
theorem isSome_takenArm? {k : Keyword} {type : Shading.ValueType} {value : String → Shading.Expr}
    (hvalues : k.hasValues = true) :
    (Code.takenArm? defined (o.writtenBranches k type value)).isSome = !k.leavesOpen defined := by
  rw [Bool.eq_iff_iff, Code.takenArm?, List.find?_isSome, Bool.not_eq_true',
    ← Keyword.exists_taken_branch_iff hvalues]
  constructor
  · rintro ⟨a, ha, hholds⟩
    obtain ⟨b, hb, rfl⟩ := List.mem_map.mp ha
    exact ⟨b, hb, beq_iff_eq.mp hholds⟩
  · rintro ⟨b, hb, hholds⟩
    exact ⟨_, List.mem_map_of_mem hb, beq_iff_eq.mpr hholds⟩

theorem declaredVariable?_writtenBranches {k : Keyword} {type : Shading.ValueType}
    {value : String → Shading.Expr} :
    ∀ a ∈ o.writtenBranches k type value,
      declaredVariable? a.2 = some (o.node.variable "Out") := by
  intro a ha
  obtain ⟨b, -, rfl⟩ := List.mem_map.mp ha
  exact declaredVariable?_definitionLine o.node "Out" type (value b.2)

/-- The code of a keyword node declares its variable, unless no branch is taken. -/
theorem declares_keyword_unless {k : Keyword} (hkind : o.kind = .keyword)
    (hk : o.node.keyword e.keywords = .ok k) (hidentifiers : k.HasIdentifiers)
    (h : o.code e = .ok code) :
    Code.Declares (fun s => some (defined s)) code
      (if k.leavesOpen defined then [] else [o.node.variable "Out"]) := by
  obtain ⟨k', type, value, hk', -, htext, -, rfl⟩ := code_keyword hkind h
  obtain rfl : k = k' := Except.ok.inj (hk.symm.trans hk')
  obtain ⟨-, hvalues⟩ := Keywords.named?_of_keyword hk
  have hdeclares : Code.Declares (fun s => some (defined s))
      (Code.choice (o.writtenBranches k type value)) _ :=
    .choice (isChoice_writtenBranches hvalues) (isReadable_writtenBranches hidentifiers)
      (fun a ha => ⟨(writtenBranches_text 0 htext a ha).1, fun depth =>
        (writtenBranches_text depth htext a ha).2⟩) declaredVariable?_writtenBranches
  rw [isSome_takenArm? hvalues] at hdeclares
  cases hopen : k.leavesOpen defined with
  | true => simpa [hopen] using hdeclares
  | false => simpa [hopen] using hdeclares

theorem declares_keyword (hnames : ∀ k ∈ e.keywords, k.HasIdentifiers)
    (hset : e.keywords.AreSet defined) (hkind : o.kind = .keyword) (h : o.code e = .ok code) :
    Code.Declares (fun s => some (defined s)) code o.declaredVariables := by
  obtain ⟨k, -, -, hk, -⟩ := code_keyword hkind h
  obtain ⟨hnamed, hvalues⟩ := Keywords.named?_of_keyword hk
  have hmem := (Keywords.mem_of_named? hnamed).1
  obtain ⟨v, hv, htest⟩ := hset k hmem hvalues
  have hvariables : o.declaredVariables = [o.node.variable "Out"] := by
    rw [declaredVariables, declaredOutputs, hkind]
    rfl
  have hdeclares : Code.Declares (fun s => some (defined s)) code _ :=
    declares_keyword_unless hkind hk (hnames k hmem) h
  rw [Keyword.leavesOpen_eq_false hv htest] at hdeclares
  rw [hvariables]
  exact hdeclares

/-- Declarations of outputs have the variables of these outputs. -/
theorem map_fst_of_declaresOutput {declarations : List (String × Shading.ValueType)}
    {outputs : List String} (h : List.Forall₂ (o.DeclaresOutput e) declarations outputs) :
    declarations.map Prod.fst = outputs.map o.node.variable := by
  induction h with
  | nil => rfl
  | cons hd _ ih => rw [List.map_cons, List.map_cons, hd.1, ih]

/-- **The variables that the code of a node declares** are those of its outputs. -/
theorem declares_code (hnames : ∀ k ∈ e.keywords, k.HasIdentifiers)
    (hset : e.keywords.AreSet defined) (h : o.code e = .ok code) :
    Code.Declares (fun s => some (defined s)) code o.declaredVariables := by
  by_cases hkind : o.kind = .keyword
  · exact declares_keyword hnames hset hkind h
  · obtain ⟨statements, hstatements, h⟩ := Outcome.bind_eq_ok_iff.mp h
    obtain rfl := Outcome.pure_eq_ok_iff.mp h
    have hvariables := map_fst_of_declaresOutput (computes_of_statements hstatements).declarations
    rw [declaredVariables, ← hvariables, List.map_flatMap]
    refine .flatMap fun s hs => declares_statement (n := o.node)
      (isPlain_statements hkind hstatements s hs) fun d hd => ?_
    have hmem : d.1 ∈ (statements.flatMap Statement.declarations).map Prod.fst :=
      List.mem_map_of_mem (List.mem_flatMap.mpr ⟨s, hs, hd⟩)
    rw [hvariables] at hmem
    obtain ⟨socket, -, heq⟩ := List.mem_map.mp hmem
    exact ⟨socket, heq.symm⟩

end Operation

/-! ### The code of a stage -/

variable {e : Evaluation} {output : String} {out : Operation} {p : Pass} {r : PassFields}
  {s : StageNodes} {n : LiveNode} {nodes : List LiveNode} {count index : Nat}
  {code step : List Code} {slots : List DescriptionSlot} {defined : String → Bool}

section Stage

variable (hnames : ∀ k ∈ e.keywords, k.HasIdentifiers) (hset : e.keywords.AreSet defined)
  (hdefined : ∀ i < count, defined (permutationSymbol i) = decide (i = index))

include hnames hset hdefined

/-- The code of a node and its guard declare the variables of the node where it is live, and
nothing elsewhere. -/
theorem StandsIn.declares (h : StandsIn e count index n code step) :
    (n.LiveIn index ∧ ∃ o, e.graph.operation n.id = .ok o ∧
      Code.Declares (fun s => some (defined s)) step o.declaredVariables) ∨
    (¬n.LiveIn index ∧ Code.Declares (fun s => some (defined s)) step []) := by
  have hnode : ∀ code, e.codeOf n.id = .ok code → ∃ o, e.graph.operation n.id = .ok o ∧
      Code.Declares (fun s => some (defined s)) code o.declaredVariables := by
    intro code hcode
    obtain ⟨o, ho, hcode⟩ := Outcome.bind_eq_ok_iff.mp hcode
    exact ⟨o, ho, Operation.declares_code hnames hset hcode⟩
  cases h with
  | absent hnot => exact Or.inr ⟨hnot, .nil⟩
  | empty hcode =>
    by_cases hlive : n.LiveIn index
    · exact Or.inl ⟨hlive, hnode [] hcode⟩
    · exact Or.inr ⟨hlive, .nil⟩
  | always hcode hlive =>
    obtain ⟨o, ho, hdeclares⟩ := hnode code hcode
    exact Or.inl ⟨hlive, o, ho, hdeclares.stageBody⟩
  | @guarded _ indices hcode hne hlt hlive =>
    obtain ⟨o, ho, hdeclares⟩ := hnode code hcode
    have hvalue : conditionValue (fun s => some (defined s)) (permutationsCondition indices) =
        some (decide (index ∈ indices)) :=
      conditionValue_permutationsCondition_of_known hne fun i hi =>
        congrArg some (hdefined i (hlt i hi))
    have hguarded := hdeclares.stageBody.guarded (isReadable_permutationsCondition hne) hvalue
    by_cases hindex : index ∈ indices
    · rw [decide_eq_true hindex] at hguarded
      exact Or.inl ⟨hlive.mp hindex, o, ho, hguarded⟩
    · rw [decide_eq_false hindex] at hguarded
      exact Or.inr ⟨mt hlive.mpr hindex, hguarded⟩

/-- The parts of a stage declare the variables of the nodes that are live. -/
theorem exists_declares_parts {parts : List (List Code)}
    (h : List.Forall₂ (fun n part => ∃ body, StandsIn e count index n body part) nodes parts) :
    ∃ operations, (nodes.filter fun n => n.LiveIn index).mapM
        (fun n => e.graph.operation n.id) = .ok operations ∧
      Code.Declares (fun s => some (defined s)) parts.flatten
        (operations.flatMap Operation.declaredVariables) := by
  induction h with
  | nil => exact ⟨[], rfl, .nil⟩
  | @cons n part nodes parts hpart _ ih =>
    obtain ⟨operations, hoperations, hrest⟩ := ih
    obtain ⟨body, hbody⟩ := hpart
    obtain ⟨hlive, o, ho, hdeclares⟩ | ⟨hlive, hdeclares⟩ := hbody.declares hnames hset hdefined
    · refine ⟨o :: operations, ?_, hdeclares.append hrest⟩
      rw [List.filter_cons_of_pos (by simpa using hlive), List.mapM_cons, ho, hoperations]
      rfl
    · refine ⟨operations, ?_, hdeclares.append hrest⟩
      rw [List.filter_cons_of_neg (by simpa using hlive), hoperations]

/-- **The variables that the code of a stage declares** are those of the nodes that are live. -/
theorem exists_declares_stageCode (hnodes : ∀ n ∈ s.nodes, n.IsSpread count)
    (hindex : count = 0 ∨ index < count) (h : stageCode e s count = .ok code) :
    ∃ operations, (s.liveIn index).mapM (fun n => e.graph.operation n.id) = .ok operations ∧
      Code.Declares (fun s => some (defined s)) code
        (operations.flatMap Operation.declaredVariables) := by
  obtain ⟨parts, rfl, hparts⟩ := exists_parts_of_stageCode hnodes hindex h
  exact exists_declares_parts hnames hset hdefined hparts

end Stage

/-! ### The function of a description -/

theorem MasterSlot.isOneLine_of_mem_ofStage {stage : Stage} {s : MasterSlot}
    (h : s ∈ MasterSlot.ofStage stage) :
    Text.IsOneLine s.id ∧ ∀ name ∈ s.default.names, Text.IsOneLine name := by
  revert s
  cases stage <;> decide

theorem isOneLine_descriptionSlots (h : descriptionSlots e out p = .ok slots)
    {d : DescriptionSlot} (hd : d ∈ slots) :
    Text.IsOneLine d.name ∧ Text.IsOneLine d.value.expr.text := by
  obtain ⟨-, s, hs, v, hv, rfl⟩ | ⟨-, -, t, -, rfl⟩ := descriptionSlots_spec h hd
  · obtain ⟨hid, hdefault⟩ :=
      MasterSlot.isOneLine_of_mem_ofStage (MasterSlot.mem_ofStage_of_mem_masked hs).1
    exact ⟨hid, Graph.isOneLine_inputValue hv hdefault⟩
  · refine ⟨(by decide : Text.IsOneLine "Out"), Shading.Expr.isOneLine_text fun name hname => ?_⟩
    rw [Shading.Expr.names_coerce] at hname
    rw [List.mem_singleton.mp hname]
    exact out.node.isOneLine_variable out.primaryOutput

/-- The lines of the function that are always the same: of these only the one that declares the
struct declares something. -/
theorem descriptionFunction_lines (stage : Stage) :
    (IsPlain (stage.descriptionName ++ " " ++ stage.descriptionName ++ "Function(" ++
        stage.inputsTag ++ " IN)") ∧
      declaredVariable? (stage.descriptionName ++ " " ++ stage.descriptionName ++ "Function(" ++
        stage.inputsTag ++ " IN)") = none) ∧
    (IsPlain (stage.descriptionName ++ " " ++ stage.descriptionVariable ++ " = (" ++
        stage.descriptionName ++ ")0;") ∧
      declaredVariable? (stage.descriptionName ++ " " ++ stage.descriptionVariable ++ " = (" ++
        stage.descriptionName ++ ")0;") = some stage.descriptionVariable) ∧
    (IsPlain ("return " ++ stage.descriptionVariable ++ ";") ∧
      declaredVariable? ("return " ++ stage.descriptionVariable ++ ";") = none) := by
  cases stage <;> decide +kernel

/-- The lines that fill in the struct declare nothing. -/
theorem declares_slotLines {known : String → Option Bool} (stage : Stage)
    (h : ∀ d ∈ slots, Text.IsOneLine d.name ∧ Text.IsOneLine d.value.expr.text) :
    Code.Declares known (slots.map fun d =>
      .line (stage.descriptionVariable ++ "." ++ d.name ++ " = " ++ d.value.expr.text ++ ";"))
      [] := by
  induction slots with
  | nil => exact .nil
  | cons d slots ih =>
    obtain ⟨⟨hname, hvalue⟩, hslots⟩ := List.forall_mem_cons.mp h
    obtain ⟨first, hfirst, hblank, hsign, htypes⟩ : ∃ first,
        stage.descriptionVariable.toList.head? = some first ∧ first ≠ ' ' ∧ first ≠ '#' ∧
          ∀ t ∈ variableTypes, t.toList.head? ≠ some first := by
      cases stage with
      | vertex => exact ⟨'d', rfl, by decide, by decide, by decide⟩
      | pixel => exact ⟨'s', rfl, by decide, by decide, by decide⟩
    have hhead : (stage.descriptionVariable ++ "." ++ d.name ++ " = " ++ d.value.expr.text ++
        ";").toList.head? = some first := by
      simp [hfirst]
    have hvariable : Text.IsOneLine stage.descriptionVariable := by cases stage <;> decide
    have honeLine : Text.IsOneLine (stage.descriptionVariable ++ "." ++ d.name ++ " = " ++
        d.value.expr.text ++ ";") := by
      simp only [Text.isOneLine_append, hvariable, hname, hvalue]
      decide
    have hline : Code.Declares known _ _ := .line (isPlain_of_head honeLine hhead hblank hsign)
    rw [declaredVariable?_eq_none hhead hblank htypes] at hline
    exact hline.append (ih hslots)

/-- The function of a description declares its struct and the variables of the nodes. -/
theorem declares_descriptionFunction {known : String → Option Bool} {body : List Code}
    {names : List String}
    (hslots : ∀ d ∈ slots, Text.IsOneLine d.name ∧ Text.IsOneLine d.value.expr.text)
    (hbody : stageCode e s count = .ok body) (hdeclares : Code.Declares known body names)
    (h : descriptionFunction e s count slots = .ok code) :
    Code.Declares known code (e.stage.descriptionVariable :: names) := by
  obtain ⟨body', hbody', h⟩ := Outcome.bind_eq_ok_iff.mp h
  obtain rfl : body = body' := Except.ok.inj (hbody.symm.trans hbody')
  rw [← Outcome.pure_eq_ok_iff.mp h]
  obtain ⟨⟨hsignature, hnone⟩, ⟨hstruct, hvariable⟩, hreturn, hnothing⟩ :=
    descriptionFunction_lines e.stage
  have hopening : Code.Declares known _ _ := .line hsignature
  have hfirst : Code.Declares known _ _ := .line hstruct
  have hlast : Code.Declares known _ _ := .line hreturn
  rw [hnone] at hopening
  rw [hvariable] at hfirst
  rw [hnothing] at hlast
  have hinside := ((hfirst.append hdeclares).append (declares_slotLines e.stage hslots)).append
    hlast
  have hfunction := hopening.append hinside.block
  simp only [Option.toList, List.append_nil, List.nil_append] at hfunction
  exact hfunction

/-- The variable of the struct is that of no node. -/
theorem descriptionVariable_notMem_declaredVariables (stage : Stage)
    (operations : List Operation) :
    stage.descriptionVariable ∉ operations.flatMap Operation.declaredVariables := by
  intro hmem
  obtain ⟨o, -, hmem⟩ := List.mem_flatMap.mp hmem
  obtain ⟨socket, -, heq⟩ := List.mem_map.mp hmem
  -- a variable of a node begins with an underscore
  have hhead := congrArg (fun name => name.toList.head?) heq
  simp only [Node.toList_variable, List.head?_cons] at hhead
  cases stage <;> exact absurd hhead (by decide)

/-- A stage has no two nodes with one id. -/
theorem nodup_of_passFields (h : passFields e.graph output p e.mode e.keywords = .ok r)
    (stage : Stage) : ((r.stage stage).nodes.map LiveNode.id).Nodup := by
  obtain ⟨_, -, -, hnodes | ⟨hnil, -⟩⟩ := passFields_liveNodes h stage
  · exact (Walk.isOrdered_of_collect (liveNodes_spec hnodes).1).1.nodup
  · rw [hnil]
    exact List.nodup_nil

/-- The function of a description declares its struct and the variables of the live nodes. -/
theorem exists_declares_of_passFields
    (hnames : ∀ k ∈ e.keywords, k.HasIdentifiers) (hset : e.keywords.AreSet defined)
    (h : passFields e.graph output p e.mode e.keywords = .ok r)
    (hindex : index < e.keywords.permutationCount)
    (hdefined : ∀ i < r.active.permutationCount,
      defined (permutationSymbol i) = decide (i = index))
    (hslots : descriptionSlots e out p = .ok slots)
    (hcode : descriptionFunction e (r.stage e.stage) r.active.permutationCount slots = .ok code) :
    ∃ operations, ((r.stage e.stage).liveIn index).mapM (fun n => e.graph.operation n.id) =
        .ok operations ∧
      Code.Declares (fun s => some (defined s)) code
        (e.stage.descriptionVariable :: operations.flatMap Operation.declaredVariables) := by
  have hcount := permutationCount_of_passFields h
  have hpermutation : r.active.permutationCount = 0 ∨ index < r.active.permutationCount := by
    omega
  obtain ⟨body, hbody, -⟩ := Outcome.bind_eq_ok_iff.mp hcode
  obtain ⟨operations, hoperations, hdeclares⟩ := exists_declares_stageCode hnames hset hdefined
    (isSpread_of_passFields h e.stage) hpermutation hbody
  exact ⟨operations, hoperations, declares_descriptionFunction
    (fun d hd => isOneLine_descriptionSlots hslots hd) hbody hdeclares hcode⟩

/-- **The variables that the function of a description declares** in a permutation, where every
keyword has a value, are that of its struct and those of the nodes that are live, each output once
and in the order of the nodes.  They differ exactly if, among the live nodes of each type, the ids
have different identifiers. -/
theorem declaredVariables_descriptionFunction
    (hnames : ∀ k ∈ e.keywords, k.HasIdentifiers) (hset : e.keywords.AreSet defined)
    (h : passFields e.graph output p e.mode e.keywords = .ok r)
    (hindex : index < e.keywords.permutationCount)
    (hdefined : ∀ i < r.active.permutationCount,
      defined (permutationSymbol i) = decide (i = index))
    (hslots : descriptionSlots e out p = .ok slots)
    (hcode : descriptionFunction e (r.stage e.stage) r.active.permutationCount slots = .ok code) :
    ∃ operations, ((r.stage e.stage).liveIn index).mapM (fun n => e.graph.operation n.id) =
        .ok operations ∧
      declaredVariables defined (Code.fullText 0 code) =
        e.stage.descriptionVariable :: operations.flatMap Operation.declaredVariables ∧
      ((declaredVariables defined (Code.fullText 0 code)).Nodup ↔
        ∀ o ∈ operations, ∀ u ∈ operations, o.isMaster = false → o.node.type = u.node.type →
          Text.identifier o.node.id = Text.identifier u.node.id → o.node.id = u.node.id) := by
  obtain ⟨operations, hoperations, hdeclares⟩ :=
    exists_declares_of_passFields hnames hset h hindex hdefined hslots hcode
  have hvariables := hdeclares.declaredVariables_fullText 0
  refine ⟨operations, hoperations, hvariables, ?_⟩
  have hkinds : ∀ o ∈ operations, NodeKind.ofTypeName? o.node.type = some o.kind := by
    intro o ho
    obtain ⟨n, -, ho⟩ := Outcome.exists_of_mem_mapM hoperations ho
    exact Graph.kind_of_operation ho
  have hids : (operations.map fun o => o.node.id).Nodup := by
    rw [Outcome.map_eq_map_of_mapM hoperations fun n o ho => Graph.id_of_operation ho]
    exact (nodup_of_passFields h e.stage).sublist (List.filter_sublist.map LiveNode.id)
  rw [hvariables, List.nodup_cons,
    and_iff_right (descriptionVariable_notMem_declaredVariables e.stage operations),
    nodup_flatMap_declaredVariables_iff hkinds hids]

theorem declaredVariables_descriptionFunction_detail :
    let e : Evaluation := ⟨detailGraph, detailGraph.keywords, .final, .pixel⟩
    ∃ r out slots code, passFields detailGraph "master" detailPass .final detailGraph.keywords =
        .ok r ∧ detailGraph.operation "master" = .ok out ∧
      descriptionSlots e out detailPass = .ok slots ∧
      descriptionFunction e r.pixel r.active.permutationCount slots = .ok code ∧
      declaredVariables (fun s => s == "_DETAIL" || s == "KEYWORD_PERMUTATION_1")
        (Code.fullText 0 code) = ["surface", "_UV_uv_Out", "_Keyword_k_Out"] := by
  intro e
  let defined : String → Bool := fun s => s == "_DETAIL" || s == "KEYWORD_PERMUTATION_1"
  obtain ⟨live, hlive, hvariables⟩ : ∃ live, (passFields detailGraph "master" detailPass .final
      detailGraph.keywords >>= fun r => detailGraph.operation "master" >>= fun out =>
        descriptionSlots e out detailPass >>= fun slots =>
          descriptionFunction e r.pixel r.active.permutationCount slots >>= fun _ =>
            (r.pixel.liveIn 1).mapM fun n => detailGraph.operation n.id) = .ok live ∧
      decide (live.flatMap Operation.declaredVariables = ["_UV_uv_Out", "_Keyword_k_Out"]) =
        true := Outcome.exists_of_check (by decide +kernel)
  obtain ⟨r, hr, hlive⟩ := Outcome.bind_eq_ok_iff.mp hlive
  obtain ⟨out, hout, hlive⟩ := Outcome.bind_eq_ok_iff.mp hlive
  obtain ⟨slots, hslots, hlive⟩ := Outcome.bind_eq_ok_iff.mp hlive
  obtain ⟨code, hcode, hlive⟩ := Outcome.bind_eq_ok_iff.mp hlive
  have hset : e.keywords.AreSet defined := by
    intro k hk _
    obtain rfl := List.mem_singleton.mp hk
    exact ⟨1, by decide, by decide⟩
  have hdefined : ∀ i < r.active.permutationCount,
      defined (permutationSymbol i) = decide (i = 1) := by
    obtain ⟨-, -, hcount, -⟩ := passFields_liveNodes hr .pixel
    rw [hcount]
    decide +kernel
  obtain ⟨operations, hoperations, hlist, -⟩ := declaredVariables_descriptionFunction (e := e)
    (by decide) hset hr (by decide +kernel) hdefined hslots hcode
  obtain rfl : operations = live := Except.ok.inj (hoperations.symm.trans hlive)
  rw [of_decide_eq_true hvariables] at hlist
  exact ⟨r, out, slots, code, hr, hout, hslots, hcode, hlist⟩

/-! ### Nodes that are spelled alike -/

/-- A sum of two numbers, whose ids differ in a character that no identifier holds. -/
def aliasGraph : Graph where
  version := "1"
  metadata := { name := "Alias" }
  nodes := [
    { id := "sum", type := "Add", inputs := [{ id := "A" }, { id := "B" }] },
    { id := "a.b", type := "Float" },
    { id := "a_b", type := "Float" }]
  connections := [
    ⟨"c1", ⟨"a.b", "Out"⟩, ⟨"sum", "A"⟩⟩,
    ⟨"c2", ⟨"a_b", "Out"⟩, ⟨"sum", "B"⟩⟩]

/-- **Two nodes may declare the same variable**, and then the function of the description declares
it twice. -/
theorem exists_variable_declared_twice :
    let e : Evaluation := ⟨aliasGraph, [], .final, .pixel⟩
    aliasGraph.checked = .ok aliasGraph ∧
    ∃ r out slots code o u, passFields aliasGraph "sum" {} .final [] = .ok r ∧
      aliasGraph.operation "sum" = .ok out ∧ descriptionSlots e out {} = .ok slots ∧
      descriptionFunction e r.pixel r.active.permutationCount slots = .ok code ∧
      aliasGraph.operation "a.b" = .ok o ∧ aliasGraph.operation "a_b" = .ok u ∧
      o.node.variable "Out" = u.node.variable "Out" ∧
      declaredVariables (fun _ => false) (Code.fullText 0 code) =
        ["surface", "_Float_a_b_Out", "_Float_a_b_Out", "_Add_sum_Out"] ∧
      ¬(declaredVariables (fun _ => false) (Code.fullText 0 code)).Nodup := by
  intro e
  let defined : String → Bool := fun _ => false
  obtain ⟨live, hlive, hvariables⟩ : ∃ live, (passFields aliasGraph "sum" {} .final [] >>= fun r =>
      aliasGraph.operation "sum" >>= fun out => descriptionSlots e out {} >>= fun slots =>
        descriptionFunction e r.pixel r.active.permutationCount slots >>= fun _ =>
          (r.pixel.liveIn 0).mapM fun n => aliasGraph.operation n.id) = .ok live ∧
      decide (live.flatMap Operation.declaredVariables =
        ["_Float_a_b_Out", "_Float_a_b_Out", "_Add_sum_Out"]) = true :=
    Outcome.exists_of_check (by decide +kernel)
  obtain ⟨r, hr, hlive⟩ := Outcome.bind_eq_ok_iff.mp hlive
  obtain ⟨out, hout, hlive⟩ := Outcome.bind_eq_ok_iff.mp hlive
  obtain ⟨slots, hslots, hlive⟩ := Outcome.bind_eq_ok_iff.mp hlive
  obtain ⟨code, hcode, hlive⟩ := Outcome.bind_eq_ok_iff.mp hlive
  have hdefined : ∀ i < r.active.permutationCount,
      defined (permutationSymbol i) = decide (i = 0) := by
    obtain ⟨-, -, hcount, -⟩ := passFields_liveNodes hr .pixel
    rw [hcount]
    decide +kernel
  obtain ⟨operations, hoperations, hdeclares⟩ := exists_declares_of_passFields (e := e)
    (List.forall_mem_nil _) (List.forall_mem_nil _) hr Nat.one_pos hdefined hslots hcode
  obtain rfl : operations = live := Except.ok.inj (hoperations.symm.trans hlive)
  have hlist := hdeclares.declaredVariables_fullText 0
  rw [of_decide_eq_true hvariables] at hlist
  refine ⟨rfl, r, out, slots, code, ⟨aliasGraph.nodes[1], .float⟩, ⟨aliasGraph.nodes[2], .float⟩,
    hr, hout, hslots, hcode, rfl, rfl, by decide +kernel, hlist, ?_⟩
  rw [hlist]
  decide

end MaterialShader
