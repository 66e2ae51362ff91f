import MaterialShader.Proofs.NodeText
import MaterialShader.Proofs.ValueSymbol

/-!
# The branch of a keyword node

The input of a keyword node is chosen twice: the walk of a permutation follows the input that
the value of the keyword selects, and the code of the node leaves the choice to the
preprocessor, which knows the value by its symbol.  Both choose the same input.

## Main definitions

* `Keyword.leavesOpen` — no branch of a keyword is taken.

## Main results

* `Keyword.exists_taken_branch_iff` — when a branch is taken.
* `Keyword.find?_branches` — of the branches for the values, the first whose condition holds is
  that of the chosen value.
* `Operation.followsSocket_iff_of_keyword` — the line that the preprocessor leaves of a keyword
  node reads the input that the walk follows.
-/

namespace MaterialShader

open Shading (Directive Condition Test ValueType Statement Arm)
open Preprocessor
open Writer (lineBody)

/-! ### The branches of a keyword -/

namespace Keyword

variable {k : Keyword} {v w : Nat} {defined : String → Bool}

theorem hasValues_enum (hkind : k.kind = .enum) (h : k.hasValues = true) :
    0 < k.entries.length ∧ k.valueCount = k.entries.length := by
  simp only [hasValues, hkind, Bool.not_eq_true', List.isEmpty_eq_false_iff] at h
  have hpos := List.length_pos_iff.mpr h
  simp only [valueCount, hkind]
  omega

/-- The branch for a value of an enum keyword. -/
def enumBranch? (k : Keyword) (value : Nat) : Option (Directive × String) :=
  (k.branchSocket? value).map fun socket => (k.branchDirective value, socket)

theorem branches_boolean (hkind : k.kind = .boolean) :
    k.branches =
      [(.ifTrue (.all [.defined k.referenceName]), "On"), (.otherwise, "Off")] := by
  rw [branches, hkind]

theorem branches_enum (hkind : k.kind = .enum) :
    k.branches = (List.range k.valueCount).filterMap k.enumBranch? := by
  rw [branches, hkind]
  rfl

theorem branchSocket?_enum (hkind : k.kind = .enum) (hv : v < k.entries.length) :
    k.branchSocket? v = some k.entries[v].referenceName := by
  rw [branchSocket?, hkind, List.getElem?_eq_getElem hv]
  rfl

theorem enumBranch?_eq_some (hkind : k.kind = .enum) (hv : v < k.entries.length) :
    k.enumBranch? v = some (k.branchDirective v, k.entries[v].referenceName) := by
  rw [enumBranch?, branchSocket?_enum hkind hv]
  rfl

/-- The branch for a value is among the branches of an enum keyword. -/
theorem mem_branches_enum (hkind : k.kind = .enum) (h : k.hasValues = true)
    (hv : v < k.entries.length) :
    (k.branchDirective v, k.entries[v].referenceName) ∈ k.branches := by
  rw [branches_enum hkind, List.mem_filterMap]
  obtain ⟨-, hcount⟩ := hasValues_enum hkind h
  exact ⟨v, List.mem_range.mpr (hcount ▸ hv), enumBranch?_eq_some hkind hv⟩

theorem isReadable_valueTest (hk : k.HasIdentifiers) (v : Nat) :
    IsReadable (.all [k.valueTest v]) :=
  ⟨List.cons_ne_nil _ _, List.forall_mem_singleton.mpr (isIdentifier_valueTest hk)⟩

theorem directiveCondition?_branchDirective {c : Condition}
    (h : c ∈ directiveCondition? (k.branchDirective v)) : c = .all [k.valueTest v] := by
  unfold branchDirective at h
  split at h
  · exact (Option.some.inj h).symm
  · split at h
    · exact absurd h (by simp [directiveCondition?])
    · exact (Option.some.inj h).symm

/-- The branches ask for values of the keyword. -/
theorem exists_valueTest_of_mem_branches {b : Directive × String} (hb : b ∈ k.branches)
    {c : Condition} (hc : c ∈ directiveCondition? b.1) : ∃ v, c = .all [k.valueTest v] := by
  cases hkind : k.kind with
  | boolean =>
    rw [branches_boolean hkind] at hb
    rcases List.mem_pair.mp hb with rfl | rfl
    · refine ⟨1, ?_⟩
      rw [← Option.some.inj hc, valueTest, valueSymbol?, hkind]
      rfl
    · exact absurd hc (by simp [directiveCondition?])
  | enum =>
    rw [branches_enum hkind] at hb
    obtain ⟨v, -, hb⟩ := List.mem_filterMap.mp hb
    obtain ⟨socket, -, rfl⟩ := Option.map_eq_some_iff.mp hb
    exact ⟨v, directiveCondition?_branchDirective hc⟩

theorem isReadable_of_mem_branches (hk : k.HasIdentifiers) :
    ∀ b ∈ k.branches, ∀ c ∈ directiveCondition? b.1, IsReadable c := by
  intro b hb c hc
  obtain ⟨v, rfl⟩ := exists_valueTest_of_mem_branches hb hc
  exact isReadable_valueTest hk v

theorem branchDirective_of_pos (hv : 0 < v) :
    (∃ c, k.branchDirective v = .elseIf c) ∨ k.branchDirective v = .otherwise := by
  rw [branchDirective, if_neg (by omega)]
  split
  · exact Or.inr rfl
  · exact Or.inl ⟨_, rfl⟩

theorem isChoice_branches (h : k.hasValues = true) : IsChoice (k.branches.map Prod.fst) := by
  cases hkind : k.kind with
  | boolean =>
    rw [branches_boolean hkind]
    exact ⟨⟨_, rfl⟩, List.forall_mem_singleton.mpr (Or.inr rfl)⟩
  | enum =>
    obtain ⟨hpos, hcount⟩ := hasValues_enum hkind h
    obtain ⟨n, hn⟩ : ∃ n, k.valueCount = n + 1 := ⟨k.valueCount - 1, by omega⟩
    have hfirst : k.enumBranch? 0 =
        some (.ifTrue (.all [k.valueTest 0]), k.entries[0].referenceName) :=
      enumBranch?_eq_some hkind hpos
    rw [branches_enum hkind, hn, List.range_succ_eq_map, List.filterMap_cons, hfirst]
    refine ⟨⟨_, rfl⟩, fun d hd => ?_⟩
    obtain ⟨b, hb, rfl⟩ := List.mem_map.mp hd
    obtain ⟨v, hv, hb⟩ := List.mem_filterMap.mp hb
    obtain ⟨u, -, rfl⟩ := List.mem_map.mp hv
    obtain ⟨socket, -, rfl⟩ := Option.map_eq_some_iff.mp hb
    exact branchDirective_of_pos (Nat.succ_pos u)

/-- The branch of the last value takes all that is left, and any other asks for its value. -/
theorem directiveValue_branchDirective :
    directiveValue (fun s => some (defined s)) (k.branchDirective v) =
      some (if v ≠ 0 ∧ v = k.valueCount - 1 then true else (k.valueTest v).holds defined) := by
  have hcondition := conditionValue_of_test defined (k.valueTest v)
  unfold branchDirective
  by_cases hzero : v = 0
  · rw [if_pos hzero, if_neg fun h => h.1 hzero]
    exact hcondition
  · by_cases hlast : v = k.valueCount - 1
    · rw [if_neg hzero, if_pos hlast, if_pos ⟨hzero, hlast⟩]
      rfl
    · rw [if_neg hzero, if_neg hlast, if_neg fun h => hlast h.2]
      exact hcondition

/-- **The branch of the chosen value** is the first whose condition holds. -/
theorem find?_branches (hvalues : k.hasValues = true) (hv : v < k.valueCount)
    (htest : ∀ w < k.valueCount, (k.valueTest w).holds defined = true ↔ w = v) :
    ∃ b, k.branches.find? (fun b => directiveValue (fun s => some (defined s)) b.1 == some true) =
      some b ∧ k.branchSocket? v = some b.2 := by
  cases hkind : k.kind with
  | boolean =>
    have hcount : k.valueCount = 2 := by rw [valueCount, hkind]
    have hon : (Test.defined k.referenceName).holds defined = true ↔ 1 = v := by
      have := htest 1 (by omega)
      rw [valueTest, valueSymbol?, hkind] at this
      exact this
    have hvalue : directiveValue (fun s => some (defined s))
        (.ifTrue (.all [.defined k.referenceName])) =
          some ((Test.defined k.referenceName).holds defined) :=
      conditionValue_of_test defined _
    rw [branches_boolean hkind, branchSocket?, hkind]
    by_cases hone : v = 1
    · refine ⟨_, List.find?_cons_of_pos ?_, by rw [if_pos hone]⟩
      rw [hvalue, hon.mpr hone.symm]
      rfl
    · refine ⟨_, (List.find?_cons_of_neg ?_).trans (List.find?_cons_of_pos rfl),
        by rw [if_neg hone]⟩
      rw [hvalue, Bool.eq_false_iff.mpr fun h => hone (hon.mp h).symm]
      decide
  | enum =>
    obtain ⟨hpos, hcount⟩ := hasValues_enum hkind hvalues
    have hentry : v < k.entries.length := hcount ▸ hv
    -- the branches are in the order of the values, and no earlier one holds
    refine ⟨(k.branchDirective v, k.entries[v].referenceName), ?_, branchSocket?_enum hkind hentry⟩
    rw [branches_enum hkind, List.find?_filterMap, Option.bind_eq_some_iff]
    refine ⟨v, ?_, enumBranch?_eq_some hkind hentry⟩
    rw [List.find?_range_eq_some]
    refine ⟨?_, List.mem_range.mpr hv, fun w hw => ?_⟩
    · rw [enumBranch?_eq_some hkind hentry, Option.any_some, directiveValue_branchDirective,
        (htest v hv).mpr rfl, ite_self]
      rfl
    · -- an earlier value is neither chosen nor the last
      have hfalse : (k.valueTest w).holds defined = false :=
        Bool.eq_false_iff.mpr fun h => absurd ((htest w (hw.trans hv)).mp h) hw.ne
      rw [enumBranch?_eq_some hkind (hw.trans hentry), Option.any_some,
        directiveValue_branchDirective, hfalse, if_neg (by omega)]
      rfl

/-- No branch is taken: an enum keyword has one entry, whose branch is the only one, and its symbol
is not defined. -/
def leavesOpen (k : Keyword) (defined : String → Bool) : Bool :=
  match k.kind, k.entries with
  | .enum, [entry] => !defined (k.entrySymbol entry)
  | _, _ => false

/-- **A branch is taken** whatever symbols are defined, unless the only entry of an enum keyword
has no branch beside it. -/
theorem exists_taken_branch_iff (hvalues : k.hasValues = true) :
    (∃ b ∈ k.branches, directiveValue (fun s => some (defined s)) b.1 = some true) ↔
      k.leavesOpen defined = false := by
  cases hkind : k.kind with
  | boolean =>
    have hopen : k.leavesOpen defined = false := by simp [leavesOpen, hkind]
    simp only [hopen, iff_true, branches_boolean hkind]
    exact ⟨_, List.mem_cons_of_mem _ (List.mem_singleton_self _), rfl⟩
  | enum =>
    obtain ⟨hpos, hcount⟩ := hasValues_enum hkind hvalues
    by_cases hone : k.entries.length = 1
    · -- the only branch asks for the only entry
      obtain ⟨entry, hentries⟩ := List.length_eq_one_iff.mp hone
      have hbranches : k.branches = [(k.branchDirective 0, entry.referenceName)] := by
        rw [branches_enum hkind, hcount, hone]
        simp [enumBranch?, branchSocket?, hkind, hentries]
      have hvalue : directiveValue (fun s => some (defined s)) (k.branchDirective 0) =
          some (defined (k.entrySymbol entry)) := by
        rw [directiveValue_branchDirective, if_neg fun h => h.1 rfl]
        simp [valueTest, valueSymbol?, hkind, hentries, Test.holds, Test.defined]
      simp [hbranches, hvalue, leavesOpen, hkind, hentries]
    · -- the branch of the last of several entries takes all that is left
      have hopen : k.leavesOpen defined = false := by
        unfold leavesOpen
        split
        · next entry _ hentries => exact absurd (by rw [hentries]; rfl) hone
        · rfl
      simp only [hopen, iff_true]
      refine ⟨_, mem_branches_enum hkind hvalues (by omega : k.entries.length - 1 < _), ?_⟩
      rw [directiveValue_branchDirective, hcount, if_pos ⟨by omega, rfl⟩]

end Keyword

/-! ### The keyword of a node -/

namespace Keywords

variable {ks : Keywords} {n : Node} {k : Keyword}

theorem named?_of_keyword (hk : n.keyword ks = .ok k) :
    ks.named? n.keywordName = some k ∧ k.hasValues = true := by
  unfold Node.keyword at hk
  split at hk
  · exact absurd hk (by rintro ⟨⟩)
  · next k' hnamed =>
    split at hk
    · next hvalues =>
      obtain rfl := Except.ok.inj hk
      exact ⟨hnamed, hvalues⟩
    · exact absurd hk (by rintro ⟨⟩)

theorem mem_of_named? {name : String} (h : ks.named? name = some k) :
    k ∈ ks ∧ k.referenceName = name :=
  ⟨List.mem_of_find?_eq_some h, by simpa using List.find?_some h⟩

theorem mem_permuting {k : Keyword} : k ∈ ks.permuting ↔ k ∈ ks ∧ k.permutes = true :=
  List.mem_filter

end Keywords

namespace Operation

variable {e : Evaluation} {o : Operation} {k : Keyword} {type : ValueType}
  {value : String → Shading.Expr}

/-! ### The choice of a keyword node -/

/-- The branches of a keyword node as they are written: each gives the variable of the node the
value of an input. -/
def writtenBranches (o : Operation) (k : Keyword) (type : ValueType)
    (value : String → Shading.Expr) : List (Directive × String) :=
  k.branches.map fun b =>
    (b.1, Shading.definitionLine type (o.node.variable "Out") (value b.2))

theorem map_fst_writtenBranches :
    (o.writtenBranches k type value).map Prod.fst = k.branches.map Prod.fst := by
  rw [writtenBranches, List.map_map]
  rfl

theorem isChoice_writtenBranches (h : k.hasValues = true) :
    IsChoice ((o.writtenBranches k type value).map Prod.fst) := by
  rw [map_fst_writtenBranches]
  exact Keyword.isChoice_branches h

theorem writtenBranches_text (depth : Nat)
    (hvalue : ∀ b ∈ k.branches, Text.IsOneLine (value b.2).text) :
    ∀ a ∈ o.writtenBranches k type value,
      Text.IsOneLine a.2 ∧ lineRole (lineBody depth a.2) = .text := by
  intro a ha
  obtain ⟨b, hb, rfl⟩ := List.mem_map.mp ha
  exact ⟨Shading.isOneLine_definitionLine (o.node.isOneLine_variable "Out") (hvalue b hb),
    Shading.lineRole_definitionLine _ _ _ depth⟩

theorem isReadable_writtenBranches (hk : k.HasIdentifiers) :
    ∀ a ∈ o.writtenBranches k type value, ∀ c ∈ directiveCondition? a.1, IsReadable c := by
  intro a ha
  obtain ⟨b, hb, rfl⟩ := List.mem_map.mp ha
  exact Keyword.isReadable_of_mem_branches hk b hb

/-- The code of a keyword node is a choice among the values of its inputs. -/
theorem code_keyword {code : List Code} (hkind : o.kind = .keyword) (h : o.code e = .ok code) :
    ∃ k type, ∃ value : String → Shading.Expr, o.node.keyword e.keywords = .ok k ∧
      (∀ b ∈ k.branches, ∃ v, e.graph.inputValue o.node b.2 type (zeroExpr type) = .ok v ∧
        value b.2 = v.expr) ∧
      (∀ b ∈ k.branches, Text.IsOneLine (value b.2).text) ∧
      e.graph.outputType o "Out" = .ok type ∧
      code = Code.choice (o.writtenBranches k type value) := by
  obtain ⟨statements, hstatements, h⟩ := Outcome.bind_eq_ok_iff.mp h
  obtain ⟨k, type, value, hk, htype, hvalue, rfl⟩ := statements_keyword hkind hstatements
  refine ⟨k, type, value, hk, hvalue, fun b hb => ?_, htype, ?_⟩
  · obtain ⟨v, hv, hb⟩ := hvalue b hb
    rw [hb]
    exact Graph.isOneLine_inputValue hv (List.forall_mem_nil _)
  · rw [← Outcome.pure_eq_ok_iff.mp h, List.flatMap_singleton, Shading.Statement.code_select,
      List.map_map]
    rfl

/-- **The code and the walk choose the same input**: where the values of a permutation are in
force, the preprocessor leaves one line of the code of a keyword node, and the walk of the
permutation follows the input that this line reads and no other. -/
theorem followsSocket_iff_of_keyword {code : List Code} {defined : String → Bool} {p : Nat}
    (h : e.keywords.WellNamed) (hkind : o.kind = .keyword)
    (hk : o.node.keyword e.keywords = .ok k) (hpermutes : k.permutes = true)
    (hcode : o.code e = .ok code) (hselect : e.keywords.Selects (e.keywords.tuple p) defined)
    (depth : Nat) :
    ∃ socket type value, e.graph.outputType o "Out" = .ok type ∧
      e.graph.inputValue o.node socket type (zeroExpr type) = .ok value ∧
      preprocess (fun s => some (defined s)) (Code.fullText depth code) =
        [lineBody (depth + 1)
          (Shading.definitionLine type (o.node.variable "Out") value.expr)] ∧
      ∀ s, e.keywords.followsSocket o.node s p = true ↔ s = socket := by
  obtain ⟨hnamed, hvalues⟩ := Keywords.named?_of_keyword hk
  obtain ⟨hdeclared, hname⟩ := Keywords.mem_of_named? hnamed
  have hmem := Keywords.mem_permuting.mpr ⟨hdeclared, hpermutes⟩
  obtain ⟨k', type, value, hk', hvalue, htext, htype, rfl⟩ := code_keyword hkind hcode
  obtain rfl : k = k' := Except.ok.inj (hk.symm.trans hk')
  -- the digit of the keyword is the value that its symbols are defined for
  obtain ⟨v, hv⟩ := exists_mem_zip_valuesAt hmem p
  have hlt : v < k.valueCount := (areValues_valuesAt _ p).lt_of_mem_zip hv
  rw [Keywords.tuple_eq_valuesAt h.references] at hselect
  obtain ⟨b, hfind, hsocket⟩ := Keyword.find?_branches hvalues hlt fun w hw =>
    Keywords.holds_valueTest_iff h hselect hv hvalues hlt hw
  obtain ⟨input, hinput, hread⟩ := hvalue b (List.mem_of_find?_eq_some hfind)
  refine ⟨b.2, type, input, htype, hinput, ?_, fun s => ?_⟩
  · have hchoice : IsChoice ((o.writtenBranches k type value).map Prod.fst) := by
      rw [map_fst_writtenBranches]
      exact Keyword.isChoice_branches hvalues
    rw [preprocess_choice defined depth hchoice
      (isReadable_writtenBranches (h.identifiers k hmem)) (writtenBranches_text (depth + 1) htext),
      writtenBranches, List.find?_map]
    have hfind' : k.branches.find? ((fun a => directiveValue (fun s => some (defined s)) a.1 ==
        some true) ∘ fun b => (b.1, Shading.definitionLine type (o.node.variable "Out")
          (value b.2))) = some b := hfind
    rw [hfind', ← hread]
    rfl
  · have hvalueIn : e.keywords.valueIn? p o.node.keywordName = some v := by
      rw [← hname]
      exact Keywords.valueIn?_of_mem_zip h.references hv
    rw [Keywords.followsSocket, hnamed]
    simp only [hvalueIn, hsocket]
    rw [beq_iff_eq, Option.some_inj]
    exact eq_comm

end Operation

/-! ### A node with three inputs -/

/-- A keyword node that takes a texture coordinate at medium quality. -/
def qualityNode : Node where
  id := "quality"
  type := "Keyword"
  params := [("keyword", .text "QUALITY")]
  inputs := [{ id := "LOW" }, { id := "MEDIUM" }, { id := "HIGH" }]

/-- The graph of the node. -/
def qualityGraph : Graph where
  version := "1"
  metadata := { name := "Quality" }
  nodes := [qualityNode, { id := "uv", type := "UV" }]
  connections := [⟨"c", ⟨"uv", "Out"⟩, ⟨"quality", "MEDIUM"⟩⟩]
  keywords := sampleKeywords

theorem followsSocket_iff_of_keyword_quality :
    ∃ code, Operation.code ⟨qualityGraph, sampleKeywords, .final, .pixel⟩ ⟨qualityNode, .keyword⟩ =
      .ok code ∧ ∃ socket line,
        preprocess (fun s => some (s == "SNOW" || s == "QUALITY_MEDIUM")) (Code.fullText 0 code) =
          [line] ∧
        ∀ s, sampleKeywords.followsSocket qualityNode s 4 = true ↔ s = socket := by
  obtain ⟨code, hcode⟩ : ∃ code, Operation.code ⟨qualityGraph, sampleKeywords, .final, .pixel⟩
      ⟨qualityNode, .keyword⟩ = .ok code := Outcome.exists_of_isOk (by decide +kernel)
  have hk : qualityNode.keyword sampleKeywords = .ok sampleKeywords[2] := by decide +kernel
  have hnames : sampleKeywords.WellNamed := by decide +kernel
  have hselect : sampleKeywords.Selects (sampleKeywords.tuple 4)
      fun s => s == "SNOW" || s == "QUALITY_MEDIUM" := by decide +kernel
  obtain ⟨socket, type, value, -, -, hlines, hfollows⟩ :=
    Operation.followsSocket_iff_of_keyword hnames rfl hk (by decide) hcode hselect 0
  exact ⟨code, hcode, socket, _, hlines, hfollows⟩

end MaterialShader
