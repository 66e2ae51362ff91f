import MaterialShader.Proofs.PassFields
import MaterialShader.Proofs.StageCode
import MaterialShader.Proofs.WalkOrder

/-!
# What the code of a stage reads

The order of the nodes of a stage comes from one walk that follows every connection, and the
permutations a node is live in come from walks of their own, which follow fewer.  The code reads
by yet another way: socket by socket, the first connection into it.  The three agree: what the
code of a live node reads in a permutation is live in it, and its code stands before.

## Main definitions

* `Operation.readSockets` — the inputs that the code of a node reads in a permutation.

## Main results

* `Keywords.followsIn_of_mem_readSockets` — the walk of a permutation follows what is read.
* `exists_source_of_liveNodes` — the nodes that a node is fed by come before it, and where it
  is live those that are followed are.
* `exists_source_of_mem_readSockets` — so do the nodes that its code reads.
* `stageCode_of_permutation` — the code of a stage in a permutation.
-/

namespace MaterialShader

open Preprocessor

/-! ### What nodes read -/

/-- The inputs that the code of a node reads in a permutation.  A keyword node reads the input
that the permutation selects, and every input that has a branch where the keyword does not
permute. -/
def Operation.readSockets (ks : Keywords) (o : Operation) (index : Nat) : List String :=
  match o.kind with
  | .add | .multiply => ["A", "B"]
  | .sampleTexture | .sceneDepth | .sceneColor => ["UV"]
  | .keyword =>
      match ks.named? o.node.keywordName with
      | none => []
      | some k =>
          if k.permutes then ((ks.valueIn? index k.referenceName).bind k.branchSocket?).toList
          else k.branches.map Prod.snd
  | _ => []

/-- An operation has the kind that the type of its node names. -/
theorem Operation.kind_of_ofNode {n : Node} {o : Operation} (h : ofNode n = .ok o) :
    NodeKind.ofTypeName? n.type = some o.kind := by
  unfold ofNode at h
  split at h
  · next kind hkind => rw [hkind, ← Except.ok.inj h]
  · exact absurd h (by rintro ⟨⟩)

namespace Keywords

variable {ks : Keywords} {index : Nat} {k : Keyword}

/-- A keyword that does not permute has no value in a permutation. -/
theorem valueIn?_eq_none (hnames : (ks.map Keyword.referenceName).Nodup) (hk : k ∈ ks)
    (hpermutes : ¬k.permutes = true) : ks.valueIn? index k.referenceName = none := by
  rw [valueIn?, valuesIn_eq_zip, Option.map_eq_none_iff, List.find?_eq_none]
  rintro ⟨k', v⟩ hmem hname
  obtain ⟨hk', hpermutes'⟩ := mem_permuting.mp (List.of_mem_zip hmem).1
  have heq : k' = k := List.inj_on_of_nodup_map hnames hk' hk (by simpa using hname)
  exact hpermutes (heq ▸ hpermutes')

/-- **The walk of a permutation follows what is read** in it. -/
theorem followsIn_of_mem_readSockets (hnames : (ks.map Keyword.referenceName).Nodup)
    {o : Operation} {n : Node} (ho : Operation.ofNode n = .ok o) {c : Connection}
    (h : c.target.socket ∈ o.readSockets ks index) : ks.followsIn index n c = true := by
  have hnode := Operation.node_of_ofNode ho
  rw [followsIn, Operation.kind_of_ofNode ho, Bool.or_eq_true]
  by_cases hkeyword : o.kind = .keyword
  · right
    rw [Operation.readSockets, hkeyword, hnode] at h
    unfold followsSocket
    cases hnamed : ks.named? n.keywordName with
    | none => rfl
    | some k =>
      obtain ⟨hk, hname⟩ := mem_of_named? hnamed
      simp only [hnamed, hname] at h
      by_cases hpermutes : k.permutes = true
      · simp only [if_pos hpermutes, Option.mem_toList] at h
        obtain ⟨v, hv, hsocket⟩ := Option.bind_eq_some_iff.mp h
        simp [hv, hsocket]
      · simp [← hname, valueIn?_eq_none hnames hk hpermutes]
  · left
    simpa using hkeyword

end Keywords

/-! ### Where sources are -/

variable {g : Graph} {output : String} {slots : Option (List String)} {ks : Keywords}
  {count index : Nat} {nodes pre post : List LiveNode} {n : LiveNode}

/-- The output node is live everywhere. -/
theorem exists_output_of_liveNodes (h : liveNodes g output slots ks count = .ok nodes) :
    ∃ pre n post, nodes = pre ++ n :: post ∧ n.id = output ∧
      ∀ index, count = 0 ∨ index < count → n.LiveIn index := by
  obtain ⟨hids, hspread, hwalks⟩ := liveNodes_spec h
  obtain ⟨n, hn, hid⟩ := List.mem_map.mp (Walk.isOrdered_of_collect hids).2
  obtain ⟨pre, post, hsplit⟩ := List.append_of_mem hn
  refine ⟨pre, n, post, hsplit, hid, fun index hindex => ?_⟩
  rcases hindex with hzero | hlt
  · exact LiveNode.liveIn_of_isSpread_zero (hzero ▸ hspread n hn)
  · obtain ⟨walk, hwalk, hlive⟩ := hwalks index hlt
    rw [hlive n hn, hid]
    exact (Walk.isOrdered_of_collect hwalk).2

/-- **Sources come first**: the node at the other end of a connection that the walk of a stage
enters a node by stands before that node, and it is live where the node is and the connection
is followed. -/
theorem exists_source_of_liveNodes (h : liveNodes g output slots ks count = .ok nodes)
    (hsplit : nodes = pre ++ n :: post) {node : Node} (hnode : g.findNode n.id = .ok node)
    {c : Connection} (hc : c ∈ g.incoming node)
    (hslot : Walk.admitsSlot ⟨g, output, slots, fun _ _ => true⟩ node c = true) :
    ∃ m ∈ pre, m.id = c.source.node ∧ ∀ index, count = 0 ∨ index < count →
      n.LiveIn index → ks.followsIn index node c = true → m.LiveIn index := by
  obtain ⟨hids, hspread, hwalks⟩ := liveNodes_spec h
  have hedge : c ∈ Walk.edges ⟨g, output, slots, fun _ _ => true⟩ node :=
    List.mem_filter.mpr ⟨hc, by rw [hslot, Bool.and_self]⟩
  have hidsSplit : nodes.map LiveNode.id = pre.map LiveNode.id ++ n.id :: post.map LiveNode.id := by
    rw [hsplit, List.map_append, List.map_cons]
  obtain ⟨m, hm, hsource⟩ := List.mem_map.mp
    ((Walk.isOrdered_of_collect hids).1.source_mem_of_eq hidsSplit hnode hedge)
  have hmNodes : m ∈ nodes := hsplit ▸ List.mem_append_left _ hm
  have hnNodes : n ∈ nodes := hsplit ▸ List.mem_append_right _ List.mem_cons_self
  refine ⟨m, hm, hsource, fun index hindex hlive hfollows => ?_⟩
  rcases hindex with hzero | hlt
  · exact LiveNode.liveIn_of_isSpread_zero (hzero ▸ hspread m hmNodes)
  · -- the walk of the permutation enters the node by the same connection
    obtain ⟨walk, hwalk, hliveIn⟩ := hwalks index hlt
    rw [hliveIn n hnNodes] at hlive
    have hedge' : c ∈ (permutationWalk g output slots ks index).edges node :=
      List.mem_filter.mpr ⟨hc, by
        rw [Bool.and_eq_true]
        exact ⟨hslot, hfollows⟩⟩
    rw [hliveIn m hmNodes, hsource]
    exact (Walk.isOrdered_of_collect hwalk).1.source_mem hlive hnode hedge'

/-! ### What the code of a stage reads -/

variable {out o : Operation} {p : Pass} {mode : Mode} {stage : Stage} {r : PassFields}

/-- The slots that the output is limited to matter for a master node only. -/
theorem admitsSlot_of_kind (hout : g.operation output = .ok out) {node : Node}
    (hnode : g.findNode node.id = .ok node) (ho : Operation.ofNode node = .ok o)
    (hkind : o.kind ≠ .master) (c : Connection) :
    Walk.admitsSlot ⟨g, output, followedSlots out p stage, fun _ _ => true⟩ node c = true := by
  unfold followedSlots
  by_cases hmaster : out.isMaster = true
  · have hne : node.id ≠ output := by
      intro hid
      obtain ⟨node', hnode', hout⟩ := Outcome.bind_eq_ok_iff.mp hout
      obtain rfl : node = node' := Except.ok.inj (hnode.symm.trans (hid ▸ hnode'))
      obtain rfl : o = out := Except.ok.inj (ho.symm.trans hout)
      exact hkind (by simpa [Operation.isMaster] using hmaster)
    simp [Walk.admitsSlot, hmaster, hne]
  · simp [Walk.admitsSlot, hmaster]

/-- What is connected to a node other than a master node stands before it, and it is live where
the node is and the connection is followed. -/
theorem exists_source_of_incomingAt? (hids : (g.connections.map Connection.id).Nodup)
    (hout : g.operation output = .ok out)
    (h : liveNodes g output (followedSlots out p stage) ks count = .ok nodes)
    (hsplit : nodes = pre ++ n :: post) (ho : g.operation n.id = .ok o) (hkind : o.kind ≠ .master)
    {socket : String} {c : Connection} (hc : g.incomingAt? n.id socket = some c) :
    ∃ m ∈ pre, m.id = c.source.node ∧ ∀ index, count = 0 ∨ index < count →
      n.LiveIn index → ks.followsIn index o.node c = true → m.LiveIn index := by
  obtain ⟨node, hnode, ho⟩ := Outcome.bind_eq_ok_iff.mp ho
  have hid : node.id = n.id := Graph.id_of_findNode hnode
  have hincoming : c ∈ g.incoming node := Graph.mem_incoming hids (Graph.mem_of_incomingAt? hc)
    ((Graph.target_of_incomingAt? hc).1.trans hid.symm)
  rw [Operation.node_of_ofNode ho]
  exact exists_source_of_liveNodes h hsplit hnode hincoming
    (admitsSlot_of_kind hout (hid ▸ hnode) ho hkind c)

/-- **What the code of a node reads** in a permutation where the node is live comes from a node
that stands before it and is live as well. -/
theorem exists_source_of_mem_readSockets (hids : (g.connections.map Connection.id).Nodup)
    (hnames : (ks.map Keyword.referenceName).Nodup) (hout : g.operation output = .ok out)
    (h : liveNodes g output (followedSlots out p stage) ks count = .ok nodes)
    (hindex : count = 0 ∨ index < count) (hsplit : nodes = pre ++ n :: post)
    (hlive : n.LiveIn index) (ho : g.operation n.id = .ok o) {socket : String}
    (hsocket : socket ∈ o.readSockets ks index) {c : Connection}
    (hc : g.incomingAt? n.id socket = some c) :
    ∃ m ∈ pre, m.id = c.source.node ∧ m.LiveIn index := by
  -- the master node reads nothing
  have hkind : o.kind ≠ .master := by
    intro hkind
    rw [Operation.readSockets, hkind] at hsocket
    exact List.not_mem_nil hsocket
  obtain ⟨m, hm, hsource, hall⟩ := exists_source_of_incomingAt? hids hout h hsplit ho hkind hc
  obtain ⟨node, -, hofNode⟩ := Outcome.bind_eq_ok_iff.mp ho
  have hread : c.target.socket ∈ o.readSockets ks index := by
    rwa [(Graph.target_of_incomingAt? hc).2]
  rw [Operation.node_of_ofNode hofNode] at hall
  exact ⟨m, hm, hsource,
    hall index hindex hlive (Keywords.followsIn_of_mem_readSockets hnames hofNode hread)⟩

/-- Among the live nodes of a stage, what the code of a node reads comes before it. -/
theorem exists_source_of_liveIn (hids : (g.connections.map Connection.id).Nodup)
    (hnames : (ks.map Keyword.referenceName).Nodup) (hout : g.operation output = .ok out)
    {s : StageNodes}
    (h : liveNodes g output (followedSlots out p stage) ks count = .ok s.nodes)
    (hindex : count = 0 ∨ index < count) {before after : List LiveNode}
    (hsplit : s.liveIn index = before ++ n :: after) (ho : g.operation n.id = .ok o)
    {socket : String} (hsocket : socket ∈ o.readSockets ks index) {c : Connection}
    (hc : g.incomingAt? n.id socket = some c) : ∃ m ∈ before, m.id = c.source.node := by
  obtain ⟨pre, post, hnodes, rfl, hpost⟩ := List.filter_eq_append_iff.mp hsplit
  -- behind the live nodes before come nodes that are not live, then the node itself
  obtain ⟨skipped, rest, rfl, hskipped, hn, -⟩ := List.filter_eq_cons_iff.mp hpost
  rw [← List.append_assoc] at hnodes
  obtain ⟨m, hm, hsource, hlive⟩ := exists_source_of_mem_readSockets hids hnames hout h hindex
    hnodes (of_decide_eq_true hn) ho hsocket hc
  rcases List.mem_append.mp hm with hm | hm
  · exact ⟨m, List.mem_filter.mpr ⟨hm, decide_eq_true hlive⟩, hsource⟩
  · exact absurd (decide_eq_true hlive) (hskipped m hm)

/-- What feeds a slot of the master node that is evaluated comes from a node that is live
everywhere. -/
theorem exists_source_of_mem_masked (hids : (g.connections.map Connection.id).Nodup)
    (hout : g.operation output = .ok out) (hmaster : out.isMaster = true)
    (h : liveNodes g output (followedSlots out p stage) ks count = .ok nodes)
    {s : MasterSlot} (hs : s ∈ MasterSlot.masked stage (p.slots stage)) {c : Connection}
    (hc : c ∈ g.connections) (htarget : c.target = ⟨output, s.id⟩) :
    ∃ m ∈ nodes, m.id = c.source.node ∧ ∀ index, count = 0 ∨ index < count → m.LiveIn index := by
  obtain ⟨pre, n, post, hsplit, rfl, hlive⟩ := exists_output_of_liveNodes h
  obtain ⟨node, hnode, hofNode⟩ := Outcome.bind_eq_ok_iff.mp hout
  have hid : node.id = n.id := Graph.id_of_findNode hnode
  have hincoming : c ∈ g.incoming node := Graph.mem_incoming hids hc (by rw [htarget, hid])
  have hmem : c.target.socket ∈ p.slots stage := by
    obtain ⟨id, hidMem, hfind⟩ := List.mem_filterMap.mp hs
    have heq : s.id = id := by simpa using List.find?_some hfind
    rwa [htarget, heq]
  have hslot :
      Walk.admitsSlot ⟨g, n.id, followedSlots out p stage, fun _ _ => true⟩ node c = true := by
    simp [Walk.admitsSlot, followedSlots, hmaster, hmem]
  obtain ⟨m, hm, hsource, hall⟩ := exists_source_of_liveNodes h hsplit hnode hincoming hslot
  refine ⟨m, hsplit ▸ List.mem_append_left _ hm, hsource, fun index hindex => ?_⟩
  -- the output is no keyword node, and into other nodes every connection is followed
  refine hall index hindex (hlive index hindex) ?_
  have hkind : out.kind = .master := by simpa [Operation.isMaster] using hmaster
  rw [Keywords.followsIn, Operation.kind_of_ofNode hofNode, hkind]
  rfl

/-- **The code of a stage in a permutation.**  Without the guards the code of the nodes that are
live in the permutation is left, in the order of the stage, and of the written text their lines
where nothing is known of the symbols of keywords.  What the code of a live node reads comes
from a live node whose code stands before, and what feeds an evaluated slot of the master node
from a node that is live in every permutation. -/
theorem stageCode_of_permutation {e : Evaluation} {code : List Code}
    (hids : (e.graph.connections.map Connection.id).Nodup)
    (hnames : (e.keywords.map Keyword.referenceName).Nodup)
    (h : passFields e.graph output p e.mode e.keywords = .ok r)
    (hcode : stageCode e (r.stage e.stage) r.active.permutationCount = .ok code)
    (hindex : index < e.keywords.permutationCount) :
    (∀ n ∈ (r.stage e.stage).liveIn index, e.codeOf n.id = .ok (e.bodyOf n.id)) ∧
      resolve codeRole (conditionValue (knownIn r.active.permutationCount index)) code =
        ((r.stage e.stage).liveIn index).flatMap (fun n => stageBody (e.bodyOf n.id)) ∧
      (e.keywords.AreHidden (knownIn r.active.permutationCount index) → ∀ depth,
        preprocess (knownIn r.active.permutationCount index) (Code.fullText depth code) =
          ((r.stage e.stage).liveIn index).flatMap fun n =>
            Code.writtenLines depth (e.bodyOf n.id)) ∧
      (∀ before n after, (r.stage e.stage).liveIn index = before ++ n :: after →
        ∀ o, e.graph.operation n.id = .ok o → ∀ socket ∈ o.readSockets e.keywords index,
          ∀ c, e.graph.incomingAt? n.id socket = some c → ∃ m ∈ before, m.id = c.source.node) ∧
      (∀ out, e.graph.operation output = .ok out → out.isMaster = true →
        ∀ s ∈ MasterSlot.masked e.stage (p.slots e.stage),
          ∀ c ∈ e.graph.connections, c.target = ⟨output, s.id⟩ →
            ∃ n ∈ (r.stage e.stage).nodes, n.id = c.source.node ∧
              ∀ index < e.keywords.permutationCount, n.LiveIn index) := by
  obtain ⟨out, hout, hcount, hnodes⟩ := passFields_liveNodes h e.stage
  have hpermutation : ∀ index < e.keywords.permutationCount,
      r.active.permutationCount = 0 ∨ index < r.active.permutationCount := by
    intro index hindex
    rw [hcount]
    split
    · exact Or.inr hindex
    · exact Or.inl rfl
  have hspread : ∀ n ∈ (r.stage e.stage).nodes, n.IsSpread r.active.permutationCount := by
    rcases hnodes with hnodes | ⟨hnil, -⟩
    · exact (liveNodes_spec hnodes).2.1
    · rw [hnil]
      exact List.forall_mem_nil _
  have hindex := hpermutation index hindex
  refine ⟨codeOf_of_stageCode hspread hindex hcode,
    (leavesCode_stageCode hspread hindex hcode).resolve_eq,
    fun hhidden depth => preprocess_stageCode hhidden hspread hindex hcode depth, ?_, ?_⟩
  · intro before n after hsplit o ho socket hsocket c hc
    rcases hnodes with hnodes | ⟨hnil, -⟩
    · exact exists_source_of_liveIn hids hnames hout hnodes hindex hsplit ho hsocket hc
    · rw [StageNodes.liveIn, hnil] at hsplit
      exact absurd hsplit (by simp)
  · intro out' hout' hmaster s hs c hc htarget
    obtain rfl : out = out' := Except.ok.inj (hout.symm.trans hout')
    rcases hnodes with hnodes | ⟨-, hslots⟩
    · obtain ⟨m, hm, hsource, hall⟩ := exists_source_of_mem_masked hids hout hmaster hnodes hs hc
        htarget
      exact ⟨m, hm, hsource, fun index hindex => hall index (hpermutation index hindex)⟩
    · rw [hslots hmaster] at hs
      exact absurd hs List.not_mem_nil

theorem stageCode_of_permutation_detail :
    let e : Evaluation := ⟨detailGraph, detailGraph.keywords, .final, .pixel⟩
    ∃ r code, passFields detailGraph "master" detailPass .final detailGraph.keywords = .ok r ∧
      stageCode e r.pixel r.active.permutationCount = .ok code ∧
        preprocess (knownIn r.active.permutationCount 1) (Code.fullText 0 code) =
          (r.pixel.liveIn 1).flatMap fun n => Code.writtenLines 0 (e.bodyOf n.id) := by
  intro e
  obtain ⟨code, h⟩ : ∃ code, (passFields detailGraph "master" detailPass .final
      detailGraph.keywords >>= fun r => stageCode e r.pixel r.active.permutationCount) =
        .ok code := Outcome.exists_of_isOk (by decide +kernel)
  obtain ⟨r, hr, hcode⟩ := Outcome.bind_eq_ok_iff.mp h
  have hindex : 1 < e.keywords.permutationCount := by decide +kernel
  obtain ⟨-, -, htext, -, -⟩ := stageCode_of_permutation (e := e) (by decide +kernel)
    (by decide +kernel) hr hcode hindex
  refine ⟨r, code, hr, hcode, htext (Keywords.areHidden_knownIn (by decide) ?_) 0⟩
  intro k hk v i
  obtain rfl := List.mem_singleton.mp hk
  have hsymbol : (Keyword.valueTest { referenceName := "_DETAIL" } v).symbol = "_DETAIL" := by
    rcases v with _ | _ | v <;> rfl
  rw [hsymbol]
  intro heq
  have hhead : "_DETAIL".toList.head? = (permutationSymbol i).toList.head? := by rw [heq]
  rw [toList_permutationSymbol] at hhead
  exact absurd (show some '_' = some 'K' from hhead) (by decide)

end MaterialShader
