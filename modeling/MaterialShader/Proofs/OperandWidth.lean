import Mathlib.Data.List.Forall2
import MaterialShader.Graph.Decode
import MaterialShader.Proofs.InputText
import MaterialShader.Proofs.TypeBound
import MaterialShader.Proofs.NodeStatement

/-!
# Widths of operands

A sum, a product and a choice convert what they read to the type of their output.  Whether a
conversion loses a component is a matter of widths.  The type of the output is the least one that
is wide enough for all inputs that it is computed from: the two operands of a sum or a product,
and the declared inputs of a keyword node.

A keyword node reads other inputs than these: those that the values of its keyword name.  Declaring
inputs is optional, so a branch may come by an input that is not declared, and then it is cut if it
is wider than everything that is connected to declared ones.

## Main definitions

* `Typed.IsKept`, `Typed.IsTruncated` — a conversion loses nothing, or cuts components off.
* `Statement.operands`, `Operation.operandSockets` — what a sum, a product or a choice reads.
* `Operation.Overlooks` — the type of the output takes no account of what is read by an input.

## Main results

* `Graph.width_outputType_le_iff` — how wide the output of such a node is.
* `Operation.isKept_iff_not_overlooks` — an operand is kept exactly if it is not overlooked.
* `exists_branch_truncated` — a branch may be cut.
-/

namespace MaterialShader

open Shading (ValueType Typed Expr Statement Lane Arm)

/-! ### Conversions -/

namespace Shading

namespace Typed

/-- The conversion keeps every component of the value: it is no conversion, it fills every
component with a float, or it fills up with zeros. -/
def IsKept (v : Typed) (target : ValueType) : Prop :=
  v.type = target ∧ (v.coerce target).expr = v.expr ∨
    v.type = .float ∧
      (v.coerce target).expr = .lanes (.group v.expr) (List.replicate target.width .x) ∨
    v.type.width < target.width ∧
      (v.coerce target).expr = .pad target v.expr (target.width - v.type.width)

/-- The conversion selects the first components of the value and drops others. -/
def IsTruncated (v : Typed) (target : ValueType) : Prop :=
  target.width < v.type.width ∧
    (v.coerce target).expr = .lanes (.group v.expr) (Lane.all.take target.width)

variable {v : Typed} {target : ValueType}

theorem isTruncated_iff : v.IsTruncated target ↔ target.width < v.type.width := by
  refine ⟨And.left, fun h => ⟨h, ?_⟩⟩
  have hne : v.type ≠ target := by
    rintro rfl
    exact lt_irrefl _ h
  have hfloat : v.type ≠ .float := by
    intro hfloat
    have hone : ValueType.float.width = 1 := rfl
    have := target.width_pos
    rw [hfloat, hone] at h
    omega
  simp [coerce, hne, hfloat, h]

/-- **A conversion keeps every component** exactly if the type is as wide as the value. -/
theorem isKept_iff : v.IsKept target ↔ v.type.width ≤ target.width := by
  constructor
  · rintro (⟨rfl, -⟩ | ⟨hfloat, -⟩ | ⟨h, -⟩)
    · exact le_refl _
    · rw [hfloat]
      exact target.width_pos
    · exact le_of_lt h
  · intro h
    by_cases heq : v.type = target
    · exact Or.inl ⟨heq, by rw [coerce, if_pos heq]⟩
    by_cases hfloat : v.type = .float
    · exact Or.inr (Or.inl ⟨hfloat, by rw [coerce, if_neg heq, if_pos hfloat]⟩)
    · have hlt : v.type.width < target.width := by
        refine lt_of_le_of_ne h fun hwidth => heq ?_
        rw [← ValueType.ofWidth_width v.type, hwidth, ValueType.ofWidth_width]
      refine Or.inr (Or.inr ⟨hlt, ?_⟩)
      rw [coerce, if_neg heq, if_neg hfloat, if_neg (not_lt.mpr h)]

end Typed

/-- What a statement that converts its operands reads: the arguments of a call, or the values of a
choice. -/
def Statement.operands : Statement → List Expr
  | .call _ left right _ => [left, right]
  | .select _ _ arms => arms.map Arm.value
  | _ => []

end Shading

/-! ### The width of an output -/

namespace Graph

variable {g : Graph} {o : Operation} {fuel : Nat} {t : ValueType}

/-- What is connected to an input has its own type, whatever bound it was worked out under. -/
theorem connectedOutput_of_outputTypeWithin {socket port : String} {source : Operation}
    (hconnected : g.connected o.node socket = .ok (some (source, port)))
    (hfuel : fuel ≤ g.nodes.length + 1) (ht : g.outputTypeWithin fuel source port = .ok t) :
    g.connectedOutput o.node socket = .ok (some ⟨t, .variable (source.node.variable port)⟩) := by
  have htype : g.outputType source port = .ok t := by
    have hsame := sameUnless_outputTypeWithin (g := g) hfuel source port
    rw [ht] at hsame
    exact hsame.eq_of_not (Outcome.FailsWith.not_ok t)
  rw [connectedOutput, hconnected]
  show (g.outputType source port >>= fun t => pure (some (Typed.mk t _))) = _
  rw [htype]
  rfl

/-- One more input makes a type wider by what is connected to it, and by nothing else. -/
theorem width_widen_le_iff {s : ValueType} {socket : String} (hfuel : fuel ≤ g.nodes.length + 1)
    (h : g.widen fuel o s socket = .ok t) (bound : Nat) :
    t.width ≤ bound ↔ s.width ≤ bound ∧
      ∀ v, g.connectedOutput o.node socket = .ok (some v) → v.type.width ≤ bound := by
  obtain ⟨source?, hconnected, h⟩ := Outcome.bind_eq_ok_iff.mp h
  cases source? with
  | none =>
    have hnone : g.connectedOutput o.node socket = .ok none := by
      rw [connectedOutput, hconnected]
      rfl
    rw [← Outcome.pure_eq_ok_iff.mp h, hnone]
    simp
  | some p =>
    obtain ⟨source, port⟩ := p
    obtain ⟨u, hu, h⟩ := Outcome.bind_eq_ok_iff.mp h
    rw [← Outcome.pure_eq_ok_iff.mp h, connectedOutput_of_outputTypeWithin hconnected hfuel hu]
    simp [ValueType.width_wider]

/-- **How wide the output of a sum, a product or a choice is**: as wide as needed for what is
connected to the inputs that decide, and as a float at least. -/
theorem width_outputType_le_iff {socket : String} (hfixed : o.fixedType? socket = none)
    (h : g.outputType o socket = .ok t) (bound : Nat) :
    t.width ≤ bound ↔ 1 ≤ bound ∧ ∀ input ∈ o.wideningSockets, ∀ v,
      g.connectedOutput o.node input = .ok (some v) → v.type.width ≤ bound := by
  rw [outputType, outputTypeWithin_of_none hfixed] at h
  have hloop := Outcome.foldlM_invariant
    (fun (done : List String) (s : ValueType) => s.width ≤ bound ↔ 1 ≤ bound ∧
      ∀ input ∈ done, ∀ v,
        g.connectedOutput o.node input = .ok (some v) → v.type.width ≤ bound)
    (fun done s input u _ hs hu => by
      rw [width_widen_le_iff (Nat.le_succ _) hu bound, hs, and_assoc, List.forall_mem_append,
        List.forall_mem_singleton])
    (by simp [ValueType.width]) h
  exact hloop

end Graph

/-! ### What a node reads -/

namespace Operation

/-- The inputs that a sum, a product or a choice reads, whatever the permutation: the two operands,
or an input for each branch of the keyword. -/
def operandSockets (ks : Keywords) (o : Operation) : List String :=
  match o.kind with
  | .add | .multiply => ["A", "B"]
  | .keyword => ((ks.named? o.node.keywordName).map fun k => k.branches.map Prod.snd).getD []
  | _ => []

/-- The type of the output takes no account of a value that is read by an input: the input belongs
to a keyword node that does not declare it, and the value is wider than a float and than
everything that is connected to declared inputs. -/
def Overlooks (g : Graph) (o : Operation) (socket : String) (v : Typed) : Prop :=
  o.kind = .keyword ∧ socket ∉ o.node.inputs.map (·.id) ∧ 1 < v.type.width ∧
    ∀ input ∈ o.node.inputs, ∀ w, g.connectedOutput o.node input.id = .ok (some w) →
      w.type.width < v.type.width

variable {e : Evaluation} {o : Operation} {statements : List Statement}

/-- The operand that is read by an input: what is connected to it, converted to the type of the
output, or a constant of that type. -/
def IsOperand (e : Evaluation) (o : Operation) (t : ValueType) (socket : String) (operand : Expr) :
    Prop :=
  ∃ default v, e.graph.inputValue o.node socket t default = .ok v ∧ operand = v.expr

/-- **What the statements of a sum, a product or a choice read** belongs to its inputs one by
one. -/
theorem forall₂_isOperand (hkind : o.kind ∈ [NodeKind.add, .multiply, .keyword])
    (h : o.statements e = .ok statements) :
    ∃ t, e.graph.outputType o "Out" = .ok t ∧
      List.Forall₂ (o.IsOperand e t) (o.operandSockets e.keywords)
        (statements.flatMap Statement.operands) := by
  unfold operandSockets
  cases computes_of_statements h with
  | master hmaster => simp [hmaster] at hkind
  | constant hvalue =>
    unfold constant? at hvalue
    revert hkind hvalue
    cases o.kind <;> simp
  | time htime => simp [htime] at hkind
  | geometry hinput =>
    unfold geometryInput? at hinput
    revert hkind hinput
    cases o.kind <;> simp
  | @operator op t left right hop ht hleft hright =>
    refine ⟨t, ht, ?_⟩
    have hoperands : List.Forall₂ (o.IsOperand e t) ["A", "B"] [left.expr, right.expr] :=
      .cons ⟨_, left, hleft, rfl⟩ (.cons ⟨_, right, hright, rfl⟩ .nil)
    unfold operator? at hop
    revert hkind hop
    cases o.kind <;> simp [Statement.operands, hoperands]
  | texture htexture => simp [htexture] at hkind
  | scene hbuffer =>
    unfold sceneBuffer? at hbuffer
    revert hkind hbuffer
    cases o.kind <;> simp
  | @keyword k t value hkeyword hk ht hvalue =>
    refine ⟨t, ht, ?_⟩
    rw [hkeyword, (Keywords.named?_of_keyword hk).1]
    simp only [List.flatMap_singleton, Statement.operands, List.map_map, Option.map_some,
      Option.getD_some, List.forall₂_map_left_iff, List.forall₂_map_right_iff]
    refine List.forall₂_same.mpr fun b hb => ?_
    obtain ⟨v, hv, hexpr⟩ := hvalue b hb
    exact ⟨_, v, hv, hexpr⟩

/-- A sum and a product read what decides the type of their output. -/
theorem operandSockets_eq_wideningSockets (hkind : o.kind = .add ∨ o.kind = .multiply) :
    o.operandSockets e.keywords = o.wideningSockets := by
  unfold operandSockets wideningSockets
  rcases hkind with hkind | hkind
  · rw [hkind]
  · rw [hkind]

/-- A value that is read is kept exactly if it is not overlooked. -/
theorem width_le_iff_not_overlooks {t : ValueType} {socket : String} {v : Typed}
    (hkind : o.kind ∈ [NodeKind.add, .multiply, .keyword])
    (ht : e.graph.outputType o "Out" = .ok t) (hsocket : socket ∈ o.operandSockets e.keywords)
    (hv : e.graph.connectedOutput o.node socket = .ok (some v)) :
    v.type.width ≤ t.width ↔ ¬o.Overlooks e.graph socket v := by
  have hfixed : o.fixedType? "Out" = none := by
    unfold fixedType?
    revert hkind
    cases o.kind <;> simp
  have hwidth := Graph.width_outputType_le_iff hfixed ht
  constructor
  · -- what is wide enough for the value is wider than all that is counted
    rintro hle ⟨hkeyword, -, hone, hall⟩
    have hlt : t.width ≤ v.type.width - 1 := by
      rw [hwidth, wideningSockets, hkeyword]
      refine ⟨by omega, fun input hinput w hw => ?_⟩
      obtain ⟨p, hp, rfl⟩ := List.mem_map.mp hinput
      have := hall p hp w hw
      omega
    omega
  · intro hnot
    obtain ⟨hone, hinputs⟩ := (hwidth t.width).mp le_rfl
    by_cases hmem : socket ∈ o.wideningSockets
    · exact hinputs socket hmem v hv
    · -- only a keyword node reads by inputs that do not decide
      have hkeyword : o.kind = .keyword := by
        by_contra hne
        have hsum : o.kind = .add ∨ o.kind = .multiply := by simpa [hne] using hkind
        exact hmem (operandSockets_eq_wideningSockets hsum ▸ hsocket)
      rw [wideningSockets, hkeyword] at hmem hinputs
      by_contra hlt
      refine hnot ⟨hkeyword, hmem, by omega, fun p hp w hw => ?_⟩
      have := hinputs p.id (List.mem_map_of_mem hp) w hw
      omega

/-- **Which operands are kept.**  The code of a sum, a product or a choice reads an operand for each
of its inputs.  Where something is connected, the operand is that, converted to the type of the
output.  The type is as wide as what is connected, and the conversion keeps every component, exactly
if the node does not overlook the input: always for a sum and a product, and for a keyword node as
far as it declares its inputs. -/
theorem isKept_iff_not_overlooks {code : List Code}
    (hkind : o.kind ∈ [NodeKind.add, .multiply, .keyword]) (h : o.code e = .ok code) :
    ∃ statements : List Statement, ∃ t, code = statements.flatMap Statement.code ∧
      e.graph.outputType o "Out" = .ok t ∧
      List.Forall₂ (fun socket operand => ∃ value?,
          e.graph.connectedOutput o.node socket = .ok value? ∧ ∀ v ∈ value?,
            operand = (v.coerce t).expr ∧
            (v.type.width ≤ t.width ↔ ¬o.Overlooks e.graph socket v) ∧
            (v.IsKept t ↔ ¬o.Overlooks e.graph socket v) ∧
            (v.IsTruncated t ↔ o.Overlooks e.graph socket v))
        (o.operandSockets e.keywords) (statements.flatMap Statement.operands) := by
  obtain ⟨statements, hstatements, h⟩ := Outcome.bind_eq_ok_iff.mp h
  obtain ⟨t, ht, hoperands⟩ := forall₂_isOperand hkind hstatements
  refine ⟨statements, t, (Outcome.pure_eq_ok_iff.mp h).symm, ht, ?_⟩
  have hmem : ∀ socket ∈ o.operandSockets e.keywords, ∀ v,
      e.graph.connectedOutput o.node socket = .ok (some v) →
        (v.type.width ≤ t.width ↔ ¬o.Overlooks e.graph socket v) :=
    fun socket hsocket v hv => width_le_iff_not_overlooks hkind ht hsocket hv
  refine ((List.forall₂_and_left _ _).mpr ⟨hmem, hoperands⟩).imp ?_
  rintro socket operand ⟨hwidth, default, value, hvalue, rfl⟩
  obtain ⟨value?, hvalue?, hvalue⟩ := Outcome.bind_eq_ok_iff.mp hvalue
  refine ⟨value?, hvalue?, fun v hv => ?_⟩
  obtain rfl := Option.mem_def.mp hv
  have hle := hwidth v hvalue?
  refine ⟨by rw [← Outcome.pure_eq_ok_iff.mp hvalue], hle, Typed.isKept_iff.trans hle, ?_⟩
  rw [Typed.isTruncated_iff, ← not_le, hle, not_not]

/-! ### A choice of which one input is declared -/

/-- A keyword node that declares one of its three inputs. -/
def partialNode : Node where
  id := "quality"
  type := "Keyword"
  params := [("keyword", .text "QUALITY")]
  inputs := [{ id := "LOW" }]

/-- The inputs of the node are a normal, a texture coordinate and a number. -/
def partialGraph : Graph where
  version := "1"
  metadata := { name := "Partial" }
  nodes := [partialNode, { id := "n", type := "Normal" }, { id := "uv", type := "UV" },
    { id := "f", type := "Float" }]
  connections := [
    ⟨"c1", ⟨"n", "Out"⟩, ⟨"quality", "LOW"⟩⟩,
    ⟨"c2", ⟨"uv", "Out"⟩, ⟨"quality", "MEDIUM"⟩⟩,
    ⟨"c3", ⟨"f", "Out"⟩, ⟨"quality", "HIGH"⟩⟩]
  keywords := sampleKeywords

theorem isKept_iff_not_overlooks_partial :
    let e : Evaluation := ⟨partialGraph, sampleKeywords, .final, .pixel⟩
    let o : Operation := ⟨partialNode, .keyword⟩
    o.kind ∈ [NodeKind.add, .multiply, .keyword] ∧ ∃ code, o.code e = .ok code ∧
      ∃ statements : List Statement, code = statements.flatMap Statement.code ∧
        List.Forall₂ (fun socket operand => ∃ v,
            partialGraph.connectedOutput partialNode socket = .ok (some v) ∧
            operand = (v.coerce .float3).expr ∧
            (v.IsTruncated .float3 ↔ o.Overlooks partialGraph socket v))
          ["LOW", "MEDIUM", "HIGH"] (statements.flatMap Statement.operands) := by
  intro e o
  have hkind : o.kind ∈ [NodeKind.add, .multiply, .keyword] := by decide
  obtain ⟨code, hcode⟩ : ∃ code, o.code e = .ok code := Outcome.exists_of_isOk (by decide +kernel)
  obtain ⟨statements, t, hstatements, ht, hoperands⟩ := isKept_iff_not_overlooks hkind hcode
  obtain rfl : t = .float3 := by
    have htype : e.graph.outputType o "Out" = .ok .float3 := by decide +kernel
    exact Except.ok.inj (ht.symm.trans htype)
  have hsockets : o.operandSockets e.keywords = ["LOW", "MEDIUM", "HIGH"] := by decide +kernel
  have hconnected : ∀ socket ∈ ["LOW", "MEDIUM", "HIGH"], ∃ v,
      partialGraph.connectedOutput partialNode socket = .ok (some v) := by
    have hcheck : ∀ socket ∈ ["LOW", "MEDIUM", "HIGH"],
        (partialGraph.connectedOutput partialNode socket).toOption.any Option.isSome = true := by
      decide +kernel
    intro socket hsocket
    obtain ⟨value?, hvalue, hsome⟩ := Outcome.exists_of_check (hcheck socket hsocket)
    obtain ⟨v, rfl⟩ := Option.isSome_iff_exists.mp hsome
    exact ⟨v, hvalue⟩
  rw [hsockets] at hoperands
  refine ⟨hkind, code, hcode, statements, hstatements, ?_⟩
  refine ((List.forall₂_and_left _ _).mpr ⟨hconnected, hoperands⟩).imp ?_
  rintro socket operand ⟨⟨v, hv⟩, value?, hvalue?, hall⟩
  obtain rfl : value? = some v := Except.ok.inj (hvalue?.symm.trans hv)
  obtain ⟨hoperand, -, -, htruncated⟩ := hall v rfl
  exact ⟨v, hv, hoperand, htruncated⟩

end Operation

/-! ### A branch that is cut -/

/-- A keyword node that declares no inputs. -/
def branchNode : Node where
  id := "k"
  type := "Keyword"
  params := [("keyword", .text "_DETAIL")]
  outputs := [{ id := "Out" }]

/-- A graph with a colour in one branch of the node. -/
def branchGraph : Graph where
  version := "1"
  metadata := { name := "Branch" }
  nodes := [branchNode, { id := "c", type := "Color", outputs := [{ id := "Out" }] }]
  connections := [⟨"c1", ⟨"c", "Out"⟩, ⟨"k", "On"⟩⟩]
  keywords := [{ referenceName := "_DETAIL" }]

/-- **A branch may be cut**: a keyword node reads a colour by an input that it does not declare, and
of the colour its code keeps one component. -/
theorem exists_branch_truncated :
    let e : Evaluation := ⟨branchGraph, branchGraph.keywords, .final, .pixel⟩
    let o : Operation := ⟨branchNode, .keyword⟩
    branchGraph.checked = .ok branchGraph ∧ branchGraph.operation "k" = .ok o ∧
    ∃ code v, o.code e = .ok code ∧ branchGraph.outputType o "Out" = .ok .float ∧
      "On" ∈ o.operandSockets e.keywords ∧
      branchGraph.connectedOutput branchNode "On" = .ok (some v) ∧
      ¬v.type.width ≤ ValueType.float.width ∧ v.IsTruncated .float ∧
      "float _Keyword_k_Out = (_Color_c_Out).x;" ∈ Code.textLines code := by
  intro e o
  obtain ⟨code, hcode, hline⟩ : ∃ code, o.code e = .ok code ∧
      decide ("float _Keyword_k_Out = (_Color_c_Out).x;" ∈ Code.textLines code) = true :=
    Outcome.exists_of_check (by decide +kernel)
  refine ⟨rfl, rfl, code, ⟨.float4, .variable "_Color_c_Out"⟩, hcode, by decide +kernel,
    by decide +kernel, by decide +kernel, by decide, ?_, of_decide_eq_true hline⟩
  exact Typed.isTruncated_iff.mpr (by decide)

end MaterialShader
