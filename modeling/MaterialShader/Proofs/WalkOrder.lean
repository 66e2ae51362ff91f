import Mathlib.Data.List.Nodup
import MaterialShader.Graph.Walk
import MaterialShader.Proofs.Outcome

/-!
# The order of a walk

A walk collects a node after the nodes it enters it from.  What a visit may rely on is that the
collected nodes are in such an order already and that no open node is among them; it collects
more nodes behind them and leaves both facts true.

## Main definitions

* `Walk.Enters` — all connections that the walk follows into a node come from given nodes.
* `Walk.IsOrdered` — collected nodes that differ and come after the nodes they are entered
  from.

## Main results

* `Walk.visit_spec` — what a visit collects.
* `Walk.isOrdered_of_collect` — what a walk collects.
* `Graph.mem_incoming` — a walk knows every connection into a node.
-/

namespace MaterialShader

namespace Walk

variable {w : Walk} {opened done after : List String} {id : String} {fuel : Nat}

/-- The walk enters a node from nodes of a list only. -/
def Enters (w : Walk) (sources : List String) (id : String) : Prop :=
  ∃ n, w.graph.findNode id = .ok n ∧ ∀ c ∈ w.edges n, c.source.node ∈ sources

/-- The collected nodes differ, and each comes after the nodes it is entered from. -/
structure IsOrdered (w : Walk) (done : List String) : Prop where
  /-- No node comes twice. -/
  nodup : done.Nodup
  /-- A node comes after those it is entered from. -/
  enters : ∀ pre id post, done = pre ++ id :: post → w.Enters pre id

theorem isOrdered_nil : w.IsOrdered [] where
  nodup := List.nodup_nil
  enters pre id post h := absurd h.symm (by simp)

/-- A node can be collected after all that it is entered from. -/
theorem IsOrdered.append_singleton (h : w.IsOrdered done) (hid : id ∉ done)
    (henters : w.Enters done id) : w.IsOrdered (done ++ [id]) where
  nodup := List.nodup_append'.mpr ⟨h.nodup, List.nodup_singleton id, by simpa using hid⟩
  enters := by
    intro pre x post heq
    rcases List.eq_nil_or_concat post with rfl | ⟨post, y, rfl⟩
    · -- the new node is the last
      obtain ⟨rfl, hx⟩ := List.append_inj' heq rfl
      rw [← List.head_eq_of_cons_eq hx]
      exact henters
    · refine h.enters pre x post ?_
      rw [List.concat_eq_append, ← List.cons_append, ← List.append_assoc] at heq
      exact (List.append_inj' heq rfl).1

/-! ### One visit -/

/-- The loop of a visit over the connections into a node. -/
def visitSources (w : Walk) (fuel : Nat) (opened done : List String) (n : Node) :
    Except GenerationError (List String) :=
  (w.edges n).foldlM (fun done c => w.visit fuel opened done c.source.node) done

theorem visit_of_mem (h : id ∈ done) : w.visit (fuel + 1) opened done id = .ok done := if_pos h

theorem visit_of_mem_opened (hdone : id ∉ done) (h : id ∈ opened) :
    w.visit (fuel + 1) opened done id = .error (.cycle id) := by
  rw [visit, if_neg hdone, if_pos h]

theorem visit_of_notMem (hdone : id ∉ done) (hopened : id ∉ opened) :
    w.visit (fuel + 1) opened done id = (do
      let n ← w.graph.findNode id
      return (← w.visitSources fuel (id :: opened) done n) ++ [id]) := by
  rw [visit, if_neg hdone, if_neg hopened]
  rfl

/-- A visit that succeeds has nothing to do, or collects the node after its sources. -/
theorem visit_eq_ok (h : w.visit (fuel + 1) opened done id = .ok after) :
    id ∈ done ∧ after = done ∨ id ∉ done ∧ id ∉ opened ∧ ∃ n fed,
      w.graph.findNode id = .ok n ∧ w.visitSources fuel (id :: opened) done n = .ok fed ∧
        after = fed ++ [id] := by
  by_cases hdone : id ∈ done
  · rw [visit_of_mem hdone] at h
    exact Or.inl ⟨hdone, (Except.ok.inj h).symm⟩
  by_cases hopened : id ∈ opened
  · rw [visit_of_mem_opened hdone hopened] at h
    exact absurd h (by rintro ⟨⟩)
  rw [visit_of_notMem hdone hopened] at h
  obtain ⟨n, hn, h⟩ := Outcome.bind_eq_ok_iff.mp h
  obtain ⟨fed, hfed, h⟩ := Outcome.bind_eq_ok_iff.mp h
  exact Or.inr ⟨hdone, hopened, n, fed, hn, hfed, (Outcome.pure_eq_ok_iff.mp h).symm⟩

/-- **What a visit collects**: nodes behind those that are there, the visited one among them,
and no open node. -/
theorem visit_spec (h : w.visit fuel opened done id = .ok after) (hdone : w.IsOrdered done)
    (hopened : ∀ x ∈ opened, x ∉ done) :
    w.IsOrdered after ∧ done <+: after ∧ id ∈ after ∧ ∀ x ∈ opened, x ∉ after := by
  induction fuel generalizing opened done id after with
  | zero => exact absurd h (by rintro ⟨⟩)
  | succ fuel ih =>
    obtain ⟨hmem, rfl⟩ | ⟨hmem, hcycle, n, fed, hn, hfed, rfl⟩ := visit_eq_ok h
    · exact ⟨hdone, List.prefix_refl _, hmem, hopened⟩
    -- the loop over the connections, with the sources of the part that is done
    have hloop := Outcome.foldlM_invariant (fun (cs : List Connection) (s : List String) =>
        w.IsOrdered s ∧ done <+: s ∧ (∀ c ∈ cs, c.source.node ∈ s) ∧ ∀ x ∈ id :: opened, x ∉ s)
      (fun cs s c t _ hs ht => by
        obtain ⟨hordered, hprefix, hsources, hnew⟩ := hs
        obtain ⟨hordered', hprefix', hc, hnew'⟩ := ih ht hordered hnew
        refine ⟨hordered', hprefix.trans hprefix', fun d hd => ?_, hnew'⟩
        rcases List.mem_append.mp hd with hd | hd
        · exact hprefix'.subset (hsources d hd)
        · rw [List.mem_singleton.mp hd]
          exact hc)
      ⟨hdone, List.prefix_refl _, List.forall_mem_nil _,
        List.forall_mem_cons.mpr ⟨hmem, hopened⟩⟩ hfed
    obtain ⟨hordered, hprefix, hsources, hnew⟩ := hloop
    obtain ⟨hid, hopened'⟩ := List.forall_mem_cons.mp hnew
    refine ⟨hordered.append_singleton hid ⟨n, hn, hsources⟩,
      hprefix.trans (List.prefix_append _ _), by simp, fun x hx hafter => ?_⟩
    rcases List.mem_append.mp hafter with hafter | hafter
    · exact hopened' x hx hafter
    · exact hcycle (List.mem_singleton.mp hafter ▸ hx)

/-- **What a walk collects**: the output node and others, in order. -/
theorem isOrdered_of_collect {ids : List String} (h : w.collect = .ok ids) :
    w.IsOrdered ids ∧ w.output ∈ ids := by
  obtain ⟨hordered, -, houtput, -⟩ := visit_spec h isOrdered_nil (List.forall_mem_nil _)
  exact ⟨hordered, houtput⟩

/-- The sources of the connections into a collected node are collected before it. -/
theorem IsOrdered.source_mem_of_eq {pre post : List String} (h : w.IsOrdered done)
    (hsplit : done = pre ++ id :: post) {n : Node} (hn : w.graph.findNode id = .ok n)
    {c : Connection} (hc : c ∈ w.edges n) : c.source.node ∈ pre := by
  obtain ⟨n', hn', hsources⟩ := h.enters _ _ _ hsplit
  obtain rfl : n = n' := Except.ok.inj (hn.symm.trans hn')
  exact hsources c hc

/-- A collected node brings the nodes it is entered from. -/
theorem IsOrdered.source_mem (h : w.IsOrdered done) (hid : id ∈ done) {n : Node}
    (hn : w.graph.findNode id = .ok n) {c : Connection} (hc : c ∈ w.edges n) :
    c.source.node ∈ done := by
  obtain ⟨pre, post, hsplit⟩ := List.append_of_mem hid
  rw [hsplit]
  exact List.mem_append_left _ (h.source_mem_of_eq hsplit hn hc)

end Walk

namespace Graph

variable {g : Graph} {n : Node} {c : Connection}

theorem mem_addIncoming {found : List Connection} {d : Connection} (h : c ∈ found) :
    c ∈ addIncoming n.id found d := by
  unfold addIncoming
  split
  · exact List.mem_append_left _ h
  · exact h

/-- With ids of their own, the connections into a node are all incoming ones. -/
theorem mem_foldl_addIncoming {cs found : List Connection}
    (hids : ∀ d ∈ found, d.id = c.id → d = c) (hcs : ∀ d ∈ cs, d.id = c.id → d = c)
    (htarget : c.target.node = n.id) (h : c ∈ found ∨ c ∈ cs) :
    c ∈ cs.foldl (addIncoming n.id) found := by
  induction cs generalizing found with
  | nil => exact h.resolve_right List.not_mem_nil
  | cons d cs ih =>
    obtain ⟨hd, hcs⟩ := List.forall_mem_cons.mp hcs
    rw [List.foldl_cons]
    refine ih (fun x hx hxid => ?_) hcs ?_
    · unfold addIncoming at hx
      split at hx
      · rcases List.mem_append.mp hx with hx | hx
        · exact hids x hx hxid
        · rw [List.mem_singleton.mp hx] at hxid ⊢
          exact hd hxid
      · exact hids x hx hxid
    · rcases h with h | h
      · exact Or.inl (mem_addIncoming h)
      · rcases List.mem_cons.mp h with rfl | h
        · -- it is added now, unless its id came up before, and then with itself
          left
          unfold addIncoming
          split
          · exact List.mem_append_right _ (List.mem_singleton_self c)
          · next hnot =>
            rw [not_and_not_right] at hnot
            obtain ⟨x, hx, hxid⟩ := List.mem_map.mp (hnot htarget)
            exact hids x hx hxid ▸ hx
        · exact Or.inr h

/-- **A walk knows every connection into a node**, whether or not the node declares the socket
and whether or not others enter it before. -/
theorem mem_incoming (hids : (g.connections.map Connection.id).Nodup) (hc : c ∈ g.connections)
    (htarget : c.target.node = n.id) : c ∈ g.incoming n := by
  have hinj : ∀ d ∈ g.connections, d.id = c.id → d = c := fun d hd hid =>
    List.inj_on_of_nodup_map hids hd hc hid
  refine mem_foldl_addIncoming (fun d hd => hinj d ?_) hinj htarget (Or.inr hc)
  obtain ⟨s, -, hs⟩ := List.mem_filterMap.mp hd
  exact mem_of_incomingAt? hs

end Graph
end MaterialShader
