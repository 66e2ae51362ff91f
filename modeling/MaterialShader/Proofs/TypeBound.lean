import Mathlib.Data.Nat.Find
import MaterialShader.Proofs.OutputRecursion

/-!
# The bound of the recursion over types

The recursion over types remembers no nodes, and with repeated connection ids it can take
connections that no walk has taken.  Then it may go round in a circle, and all that ends it is
its bound: the answer is a cycle.  Here that answer is shown to mean just this, whatever the
graph is like.

A node is *settled* by a bound if the recursion from it ends within the bound.  Consider the least
bound that settles a node.  One of the nodes that the recursion goes to needs all but one of it,
and so on down to a node that needs a bound of one.  These nodes differ, since they need different
bounds, and all but the first are looked up in the graph.  So the least bound is no more than the
number of nodes and one, which is the bound that types are worked out with.

## Main definitions

* `GenerationError.IsCycle` — the error is a cycle.

## Main results

* `Graph.sameUnless_outputTypeWithin` — a higher bound changes nothing once a node is settled.
* `Graph.exists_chain` — the nodes that need ever smaller bounds.
* `Graph.outputTypeWithin_eq_of_not_failsWith` — every bound above the number of nodes settles
  what any bound settles.
* `Graph.failsWith_outputType_iff` — a type is a cycle exactly if no bound settles it.
-/

namespace MaterialShader

open Outcome (FailsWith SameUnless)
open Shading (ValueType)

/-- The error is a cycle. -/
def GenerationError.IsCycle (e : GenerationError) : Prop := ∃ id, e = .cycle id

open GenerationError (IsCycle)

/-- Whether the type of an output depends on what is connected does not depend on the output. -/
theorem Operation.fixedType?_eq_none {o : Operation} {socket : String}
    (h : o.fixedType? socket = none) (other : String) : o.fixedType? other = none := by
  unfold fixedType? at h ⊢
  cases hkind : o.kind <;> simp_all

namespace Graph

variable {g : Graph} {o : Operation} {socket : String} {fuel bound : Nat}

theorem failsWith_zero (g : Graph) (o : Operation) (socket : String) :
    FailsWith IsCycle (g.outputTypeWithin 0 o socket) := FailsWith.error ⟨_, rfl⟩

/-! ### Higher bounds -/

theorem sameUnless_widen {P : GenerationError → Prop} {t : ValueType} {input : String}
    (h : ∀ source port,
      SameUnless P (g.outputTypeWithin fuel source port) (g.outputTypeWithin bound source port)) :
    SameUnless P (g.widen fuel o t input) (g.widen bound o t input) := by
  refine (SameUnless.refl _).bind fun connected? _ => ?_
  cases connected? with
  | none => exact SameUnless.refl _
  | some source => exact (h source.1 source.2).map

/-- A higher bound changes nothing, unless the lower one ends the recursion. -/
theorem sameUnless_outputTypeWithin (hle : fuel ≤ bound) (o : Operation) (socket : String) :
    SameUnless IsCycle (g.outputTypeWithin fuel o socket) (g.outputTypeWithin bound o socket) := by
  induction fuel generalizing bound o socket with
  | zero => exact Or.inl (failsWith_zero g o socket)
  | succ fuel ih =>
    obtain ⟨bound, rfl⟩ := Nat.exists_eq_add_of_lt hle
    cases hfixed : o.fixedType? socket with
    | some t =>
      rw [outputTypeWithin_of_fixedType? hfixed, outputTypeWithin_of_fixedType? hfixed]
      exact SameUnless.refl _
    | none =>
      rw [outputTypeWithin_of_none hfixed, outputTypeWithin_of_none hfixed]
      exact SameUnless.foldlM fun t input _ => sameUnless_widen fun source port =>
        ih (Nat.le_add_right fuel bound) source port

/-- What settles one output of a node settles the others. -/
theorem failsWith_outputTypeWithin_socket (other : String)
    (h : FailsWith IsCycle (g.outputTypeWithin fuel o socket)) :
    FailsWith IsCycle (g.outputTypeWithin fuel o other) := by
  cases fuel with
  | zero => exact failsWith_zero g o other
  | succ fuel =>
    cases hfixed : o.fixedType? socket with
    | some t =>
      rw [outputTypeWithin_of_fixedType? hfixed] at h
      exact absurd h (FailsWith.not_ok t)
    | none =>
      rwa [outputTypeWithin_of_none hfixed,
        ← outputTypeWithin_of_none (Operation.fixedType?_eq_none hfixed other)] at h

/-! ### The least bound -/

/-- A node that needs a bound goes to one that needs all but one of it. -/
theorem exists_connected_of_failsWith
    (hlow : FailsWith IsCycle (g.outputTypeWithin (fuel + 1) o socket))
    (hhigh : ¬FailsWith IsCycle (g.outputTypeWithin (fuel + 2) o socket)) :
    ∃ input source port, g.connected o.node input = .ok (some (source, port)) ∧
      FailsWith IsCycle (g.outputTypeWithin fuel source port) ∧
      ¬FailsWith IsCycle (g.outputTypeWithin (fuel + 1) source port) := by
  have hfixed : o.fixedType? socket = none := by
    cases hfixed : o.fixedType? socket with
    | none => rfl
    | some t =>
      rw [outputTypeWithin_of_fixedType? hfixed] at hlow
      exact absurd hlow (FailsWith.not_ok t)
  rw [outputTypeWithin_of_none hfixed] at hlow hhigh
  obtain ⟨t, input, -, hstep, hnot⟩ := Outcome.exists_failsWith_of_foldlM
    (fun t input _ => sameUnless_widen fun source port =>
      sameUnless_outputTypeWithin (Nat.le_succ fuel) source port) hlow hhigh
  unfold widen at hstep hnot
  cases hconnected : g.connected o.node input with
  | error e =>
    rw [hconnected] at hstep hnot
    exact absurd hstep hnot
  | ok connected? =>
    rw [hconnected] at hstep hnot
    cases connected? with
    | none => exact absurd hstep hnot
    | some source =>
      obtain ⟨source, port⟩ := source
      refine ⟨input, source, port, hconnected, ?_, fun hfails => hnot hfails.bind⟩
      -- with one type for the source, the two steps would be the same
      obtain hfails | hsame := sameUnless_outputTypeWithin (g := g) (Nat.le_succ fuel) source port
      · exact hfails
      · refine absurd ?_ hnot
        show FailsWith IsCycle (g.outputTypeWithin (fuel + 1) source port >>= _)
        rw [hsame]
        exact hstep

/-- **The nodes that need ever smaller bounds** are different nodes of the graph, as many as the
least bound and one less; each of them is settled by the bound that the first does not make do
with. -/
theorem exists_chain (hlow : FailsWith IsCycle (g.outputTypeWithin fuel o socket))
    (hhigh : ¬FailsWith IsCycle (g.outputTypeWithin (fuel + 1) o socket)) :
    ∃ ids : List String, ids.length = fuel ∧ ids.Nodup ∧ ∀ id ∈ ids, ∃ source port,
      g.operation id = .ok source ∧ ¬FailsWith IsCycle (g.outputTypeWithin fuel source port) := by
  induction fuel generalizing o socket with
  | zero => exact ⟨[], rfl, List.nodup_nil, List.forall_mem_nil _⟩
  | succ fuel ih =>
    obtain ⟨input, source, port, hconnected, hsource, hsettled⟩ :=
      exists_connected_of_failsWith hlow hhigh
    obtain ⟨ids, hlength, hnodup, hids⟩ := ih hsource hsettled
    obtain ⟨c, -, hoperation, -⟩ := connected_spec hconnected
    refine ⟨c.source.node :: ids, congrArg Nat.succ hlength, List.nodup_cons.mpr ⟨?_, hnodup⟩, ?_⟩
    · -- the others need a smaller bound than the source
      intro hmem
      obtain ⟨source', port', hoperation', hnot⟩ := hids _ hmem
      obtain rfl : source = source' := Except.ok.inj (hoperation.symm.trans hoperation')
      exact hnot (failsWith_outputTypeWithin_socket port' hsource)
    · refine List.forall_mem_cons.mpr ⟨⟨source, port, hoperation, hsettled⟩, fun id hid => ?_⟩
      obtain ⟨source', port', hoperation', hnot⟩ := hids id hid
      refine ⟨source', port', hoperation', ?_⟩
      rwa [(sameUnless_outputTypeWithin (Nat.le_succ fuel) source' port').eq_of_not hnot]

/-- **What any bound settles**, every bound above the number of nodes settles, with the same
outcome. -/
theorem outputTypeWithin_eq_of_not_failsWith
    (h : ¬FailsWith IsCycle (g.outputTypeWithin fuel o socket)) (hbound : g.nodes.length < bound) :
    g.outputTypeWithin bound o socket = g.outputTypeWithin fuel o socket := by
  classical
  have hex : ∃ k, ¬FailsWith IsCycle (g.outputTypeWithin k o socket) := ⟨fuel, h⟩
  obtain ⟨least, hleast, hmin⟩ : ∃ k, ¬FailsWith IsCycle (g.outputTypeWithin k o socket) ∧
      ∀ j < k, FailsWith IsCycle (g.outputTypeWithin j o socket) :=
    ⟨Nat.find hex, Nat.find_spec hex, fun j hj => not_not.mp (Nat.find_min hex hj)⟩
  have hleast_le : least ≤ bound := by
    cases least with
    | zero => exact Nat.zero_le bound
    | succ k =>
      obtain ⟨ids, hlength, hnodup, hids⟩ := exists_chain (hmin k (Nat.lt_succ_self k)) hleast
      have hsubset : ids ⊆ g.nodes.map Node.id := by
        intro id hid
        obtain ⟨source, -, hoperation, -⟩ := hids id hid
        obtain ⟨n, hn, -⟩ := Outcome.bind_eq_ok_iff.mp hoperation
        obtain ⟨n, hmem, rfl⟩ := exists_findNode_iff.mp ⟨n, hn⟩
        exact List.mem_map_of_mem hmem
      have hle := (hnodup.subperm hsubset).length_le
      rw [List.length_map] at hle
      omega
  have hleast_fuel : least ≤ fuel := by
    by_contra hlt
    exact h (hmin fuel (Nat.lt_of_not_le hlt))
  rw [(sameUnless_outputTypeWithin hleast_le o socket).eq_of_not hleast,
    (sameUnless_outputTypeWithin hleast_fuel o socket).eq_of_not hleast]

/-- **A type is a cycle** exactly if no bound on the recursion settles it. -/
theorem failsWith_outputType_iff : FailsWith IsCycle (g.outputType o socket) ↔
    ∀ fuel, FailsWith IsCycle (g.outputTypeWithin fuel o socket) := by
  constructor
  · intro h fuel
    by_contra hnot
    refine hnot ?_
    rwa [outputType, outputTypeWithin_eq_of_not_failsWith hnot (Nat.lt_succ_self _)] at h
  · intro h
    exact h _

end Graph
end MaterialShader
