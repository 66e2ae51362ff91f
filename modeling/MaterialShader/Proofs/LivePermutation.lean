import MaterialShader.Proofs.GraphAgreement
import MaterialShader.Proofs.KeywordBranch
import MaterialShader.Proofs.PassFields
import MaterialShader.Proofs.PermutationIndex
import MaterialShader.Proofs.WalkReach

/-!
# The permutations a node is live in

The list of a node is put together from as many walks as there are permutations, and each of
them visits the nodes in an order of its own.  What comes out can be said without walks: a
permutation is in the list if some path from the output to the node enters each keyword node
by the input that the permutation selects.

The slots of a stage limit where a path starts, while a walk is limited each time it leaves the
output.  There is no difference, since a walk that would come back to the output fails.

## Main definitions

* `Graph.IsPath` — connections that lead from a node to one of those that feed it.
* `Keywords.Opens` — a permutation lets a connection into a node pass.
* `IsOpenPath` — a path of a stage that a permutation lets pass.

## Main results

* `Walk.reaches_iff_exists_isPath` — what a walk reaches, by paths.
* `Keywords.opens_iff` — the walk of a permutation follows what the permutation lets pass.
* `stageNodes_permutations` — the list of each node of a stage, and when the node has a guard
  and is live.
-/

namespace MaterialShader

open Relation (ReflTransGen TransGen)

/-! ### Paths -/

/-- Connections that lead from a node to another against their direction: the first enters the
node, and the others lead on from its source. -/
def Graph.IsPath (g : Graph) : String → List Connection → String → Prop
  | id, [], last => id = last
  | id, c :: cs, last =>
      (∃ n, g.findNode id = .ok n ∧ c ∈ g.incoming n) ∧ g.IsPath c.source.node cs last

namespace Walk

variable {w : Walk} {ids : List String} {id source : String} {cs : List Connection}

/-- The walk follows a connection, wherever it enters. -/
def Follows (w : Walk) (c : Connection) : Prop :=
  ∀ n, w.graph.findNode c.target.node = .ok n → w.follows n c = true

/-- The first connection of a path enters a listed slot of the output. -/
def StartsInSlot (slots : Option (List String)) (cs : List Connection) : Prop :=
  ∀ c ∈ cs.head?, ∀ names, slots = some names → c.target.socket ∈ names

/-- The walk that follows every connection beyond the slots of the output. -/
def unfiltered (w : Walk) : Walk := ⟨w.graph, w.output, w.slots, fun _ _ => true⟩

theorem LeadsTo.unfiltered (h : w.LeadsTo id source) : w.unfiltered.LeadsTo id source := by
  obtain ⟨n, hn, c, hc, hsource, hslots, -⟩ := h
  exact ⟨n, hn, c, hc, hsource, hslots, rfl⟩

/-- A walk that succeeds does not come back to the output. -/
theorem ne_output_of_transGen (h : w.collect = .ok ids) (hid : TransGen w.LeadsTo w.output id) :
    id ≠ w.output := by
  rintro rfl
  obtain ⟨hordered, houtput⟩ := isOrdered_of_collect h
  exact hordered.not_transGen_self houtput hid

/-- A path that goes on below the output is a way of the walk. -/
theorem reflTransGen_of_isPath (h : w.unfiltered.collect = .ok ids)
    (hid : TransGen w.unfiltered.LeadsTo w.output id) (hpath : w.graph.IsPath id cs source)
    (hfollows : ∀ c ∈ cs, w.Follows c) : ReflTransGen w.LeadsTo id source := by
  induction cs generalizing id with
  | nil => exact hpath ▸ .refl
  | cons c cs ih =>
    obtain ⟨⟨n, hn, hc⟩, hrest⟩ := hpath
    obtain ⟨hfirst, hfollows⟩ := List.forall_mem_cons.mp hfollows
    have htarget : w.graph.findNode c.target.node = .ok n := by
      rw [(Graph.mem_of_mem_incoming hc).2, Graph.id_of_findNode hn, hn]
    -- the node is not the output, so that no slots are listed for it
    have hne : id ≠ w.output := ne_output_of_transGen (w := w.unfiltered) h hid
    have hlead : w.LeadsTo id c.source.node :=
      ⟨n, hn, c, hc, rfl, fun heq => absurd heq hne, hfirst n htarget⟩
    exact .head hlead (ih (hid.tail hlead.unfiltered) hrest hfollows)

/-- A path from the output is a way of the walk if it starts in a slot. -/
theorem reaches_of_isPath (h : w.unfiltered.collect = .ok ids)
    (hpath : w.graph.IsPath w.output cs id) (hslot : StartsInSlot w.slots cs)
    (hfollows : ∀ c ∈ cs, w.Follows c) : w.Reaches id := by
  cases cs with
  | nil => exact hpath ▸ .refl
  | cons c cs =>
    obtain ⟨⟨n, hn, hc⟩, hrest⟩ := hpath
    obtain ⟨hfirst, hfollows⟩ := List.forall_mem_cons.mp hfollows
    have htarget : w.graph.findNode c.target.node = .ok n := by
      rw [(Graph.mem_of_mem_incoming hc).2, Graph.id_of_findNode hn, hn]
    have hlead : w.LeadsTo w.output c.source.node :=
      ⟨n, hn, c, hc, rfl, fun _ => hslot c rfl, hfirst n htarget⟩
    exact .head hlead (reflTransGen_of_isPath h (.single hlead.unfiltered) hrest hfollows)

/-- A way of the walk is a path, which starts in a slot where it leaves the output. -/
theorem exists_isPath_of_reflTransGen (h : ReflTransGen w.LeadsTo id source) :
    ∃ cs, w.graph.IsPath id cs source ∧ (id = w.output → StartsInSlot w.slots cs) ∧
      ∀ c ∈ cs, w.Follows c := by
  induction h using ReflTransGen.head_induction_on with
  | refl => exact ⟨[], rfl, fun _ c hc => absurd hc (by simp), List.forall_mem_nil _⟩
  | head hlead _ ih =>
    obtain ⟨n, hn, c, hc, rfl, hslots, hfollow⟩ := hlead
    obtain ⟨cs, hpath, -, hfollows⟩ := ih
    refine ⟨c :: cs, ⟨⟨n, hn, hc⟩, hpath⟩, ?_, List.forall_mem_cons.mpr ⟨?_, hfollows⟩⟩
    · intro heq d hd
      rw [List.head?_cons, Option.mem_some_iff] at hd
      exact hd ▸ hslots heq
    · intro n' hn'
      rw [(Graph.mem_of_mem_incoming hc).2, Graph.id_of_findNode hn, hn] at hn'
      exact Except.ok.inj hn' ▸ hfollow

/-- **What a walk reaches** are the ends of the paths that start in a slot of the output and
that it follows all along. -/
theorem reaches_iff_exists_isPath (h : w.unfiltered.collect = .ok ids) : w.Reaches id ↔
    ∃ cs, w.graph.IsPath w.output cs id ∧ StartsInSlot w.slots cs ∧ ∀ c ∈ cs, w.Follows c := by
  constructor
  · intro hid
    obtain ⟨cs, hpath, hslot, hfollows⟩ := exists_isPath_of_reflTransGen hid
    exact ⟨cs, hpath, hslot rfl, hfollows⟩
  · rintro ⟨cs, hpath, hslot, hfollows⟩
    exact reaches_of_isPath h hpath hslot hfollows

end Walk

/-! ### What a permutation lets pass -/

namespace Keywords

variable {ks : Keywords} {index : Nat} {n : Node} {c : Connection} {k : Keyword}

/-- A permutation lets a connection into a node pass.  A keyword node takes the input that
belongs to the value of its keyword, if the keyword is declared and permutes; to all other
nodes every connection may pass. -/
def Opens (ks : Keywords) (index : Nat) (n : Node) (c : Connection) : Prop :=
  NodeKind.ofTypeName? n.type = some .keyword →
    ∀ k ∈ ks, k.referenceName = n.keywordName → k.permutes = true →
      ∃ value, (k, value) ∈ ks.valuesIn index ∧ k.branchSocket? value = some c.target.socket

theorem named?_of_mem (hnames : (ks.map Keyword.referenceName).Nodup) (hk : k ∈ ks) :
    ks.named? k.referenceName = some k := by
  cases hnamed : ks.named? k.referenceName with
  | none => exact absurd (List.find?_eq_none.mp hnamed k hk) (by simp)
  | some k' =>
    obtain ⟨hk', hname⟩ := mem_of_named? hnamed
    rw [List.inj_on_of_nodup_map hnames hk' hk hname]

/-- The value of a keyword, where names differ. -/
theorem mem_valuesIn_iff (hnames : (ks.map Keyword.referenceName).Nodup) (hk : k ∈ ks)
    {value : Nat} :
    (k, value) ∈ ks.valuesIn index ↔ ks.valueIn? index k.referenceName = some value := by
  have hpermuting : (ks.permuting.map Keyword.referenceName).Nodup :=
    hnames.sublist (List.filter_sublist.map _)
  constructor
  · intro hmem
    rw [valuesIn_eq_zip] at hmem
    exact valueIn?_of_mem_zip hpermuting hmem
  · intro hvalue
    obtain ⟨⟨k', v⟩, hfind, rfl⟩ := Option.map_eq_some_iff.mp hvalue
    have hmem : (k', v) ∈ ks.valuesIn index := List.mem_of_find?_eq_some hfind
    have hname : k'.referenceName = k.referenceName := by simpa using List.find?_some hfind
    have hk' : k' ∈ ks := by
      rw [valuesIn_eq_zip] at hmem
      exact (mem_permuting.mp (List.of_mem_zip hmem).1).1
    rwa [List.inj_on_of_nodup_map hnames hk' hk hname] at hmem

/-- An input of a keyword node whose keyword permutes is followed if it belongs to the value. -/
theorem followsSocket_iff_of_permutes (hnames : (ks.map Keyword.referenceName).Nodup)
    (hk : k ∈ ks) (hname : k.referenceName = n.keywordName) (hpermutes : k.permutes = true)
    {socket : String} : ks.followsSocket n socket index = true ↔
      ∃ value, (k, value) ∈ ks.valuesIn index ∧ k.branchSocket? value = some socket := by
  have hzip : k ∈ ks.permuting := mem_permuting.mpr ⟨hk, hpermutes⟩
  obtain ⟨value, hvalue⟩ := exists_mem_zip_valuesAt hzip index
  rw [← valuesIn_eq_zip] at hvalue
  have hvalueIn := (mem_valuesIn_iff hnames hk).mp hvalue
  rw [followsSocket, ← hname, named?_of_mem hnames hk]
  simp only [hvalueIn, beq_iff_eq]
  constructor
  · exact fun hsocket => ⟨value, hvalue, hsocket⟩
  · rintro ⟨value', hvalue', hsocket⟩
    rw [mem_valuesIn_iff hnames hk, hvalueIn, Option.some_inj] at hvalue'
    exact hvalue' ▸ hsocket

/-- **The walk of a permutation follows what the permutation lets pass.** -/
theorem opens_iff (hnames : (ks.map Keyword.referenceName).Nodup) :
    ks.Opens index n c ↔ ks.followsIn index n c = true := by
  unfold Opens followsIn
  by_cases hkind : NodeKind.ofTypeName? n.type = some .keyword
  · rw [forall_prop_of_true hkind, hkind, bne_self_eq_false, Bool.false_or]
    by_cases hpermutes : ∃ k ∈ ks, k.referenceName = n.keywordName ∧ k.permutes = true
    · obtain ⟨k, hk, hname, hpermutes⟩ := hpermutes
      rw [followsSocket_iff_of_permutes hnames hk hname hpermutes]
      constructor
      · exact fun h => h k hk hname hpermutes
      · intro h k' hk' hname' _
        rwa [List.inj_on_of_nodup_map hnames hk' hk (hname'.trans hname.symm)]
    · -- no keyword selects among the inputs
      refine iff_of_true (fun k hk hname hk' => absurd ⟨k, hk, hname, hk'⟩ hpermutes) ?_
      unfold followsSocket
      cases hnamed : ks.named? n.keywordName with
      | none => rfl
      | some k =>
        obtain ⟨hk, hname⟩ := mem_of_named? hnamed
        have hnone : ks.valueIn? index n.keywordName = none := by
          rw [← hname]
          exact valueIn?_eq_none hnames hk fun hk' => hpermutes ⟨k, hk, hname, hk'⟩
        simp [hnone]
  · simp [hkind]

end Keywords

/-! ### The nodes of a stage -/

/-- A path from the output of a stage to a node that a permutation lets pass.  It starts in one
of the slots of the stage. -/
structure IsOpenPath (g : Graph) (output : String) (slots : Option (List String)) (ks : Keywords)
    (index : Nat) (cs : List Connection) (id : String) : Prop where
  /-- The connections lead from the output to the node. -/
  path : g.IsPath output cs id
  /-- The first of them enters a slot of the stage. -/
  slot : Walk.StartsInSlot slots cs
  /-- The permutation lets each of them pass. -/
  opened : ∀ c ∈ cs, ∀ n, g.findNode c.target.node = .ok n → ks.Opens index n c

variable {g : Graph} {output : String} {slots : Option (List String)} {ks : Keywords}
  {count : Nat} {nodes : List LiveNode} {n : LiveNode}

/-- A node is live in the permutations that let some path to it pass. -/
theorem liveIn_iff_exists_isOpenPath (hnames : (ks.map Keyword.referenceName).Nodup)
    (h : liveNodes g output slots ks count = .ok nodes) (hn : n ∈ nodes) {index : Nat}
    (hindex : index < count) :
    n.LiveIn index ↔ ∃ cs, IsOpenPath g output slots ks index cs n.id := by
  obtain ⟨hids, -, hwalks⟩ := liveNodes_spec h
  obtain ⟨walk, hwalk, hlive⟩ := hwalks index hindex
  rw [hlive n hn, Walk.mem_iff_reaches hwalk,
    Walk.reaches_iff_exists_isPath (w := permutationWalk g output slots ks index) hids]
  refine exists_congr fun cs => ?_
  have hopened : (∀ c ∈ cs, (permutationWalk g output slots ks index).Follows c) ↔
      ∀ c ∈ cs, ∀ n, g.findNode c.target.node = .ok n → ks.Opens index n c :=
    forall₂_congr fun c _ => forall₂_congr fun n _ => (Keywords.opens_iff hnames).symm
  rw [hopened]
  exact ⟨fun ⟨hpath, hslot, hopened⟩ => ⟨hpath, hslot, hopened⟩,
    fun h => ⟨h.path, h.slot, h.opened⟩⟩

namespace LiveNode

/-- Where there are permutations, a node lists some of them in order. -/
theorem exists_permutations_of_isSpread (h : n.IsSpread count) (hcount : count ≠ 0) :
    ∃ indices, n.permutations = some indices ∧ indices.Pairwise (· < ·) ∧
      ∀ index, index ∈ indices ↔ index < count ∧ n.LiveIn index := by
  obtain ⟨id, permutations⟩ := n
  rw [IsSpread, if_neg hcount] at h
  obtain ⟨p, rfl⟩ := h
  refine ⟨_, rfl, List.pairwise_lt_range.sublist List.filter_sublist, fun index => ?_⟩
  rw [liveIn_some]
  exact (and_iff_right_of_imp fun hmem => List.mem_range.mp (List.mem_filter.mp hmem).1).symm

/-- A node that lists permutations is live if the list is not empty. -/
theorem isLive_eq_false_iff {indices : List Nat} (h : n.permutations = some indices) :
    n.isLive = false ↔ indices = [] := by
  rw [isLive, h]
  simp

end LiveNode

/-- **The permutations of the nodes of a stage.**  The nodes are those of the walk that follows
every connection, each once and each with a list.  The list holds, in order, the permutations
that let some path from the output to the node pass.  So the node has no guard exactly if every
permutation lets one pass, else the list is its guard; and it is live unless none does. -/
theorem stageNodes_permutations {stage : Stage} {a b : ActiveFields} {s : StageNodes}
    (hnames : (ks.map Keyword.referenceName).Nodup) (hcount : 2 ≤ a.permutationCount)
    (h : stageNodes g output slots ks stage a = .ok (s, b)) :
    Walk.collect ⟨g, output, slots, fun _ _ => true⟩ = .ok (s.nodes.map LiveNode.id) ∧
      (s.nodes.map LiveNode.id).Nodup ∧
      ∀ n ∈ s.nodes,
        (∃ indices, n.permutations = some indices ∧ indices.Pairwise (· < ·) ∧
          (∀ index, index ∈ indices ↔ index < a.permutationCount ∧
            ∃ cs, IsOpenPath g output slots ks index cs n.id) ∧
          ∀ guard, n.guard? a.permutationCount = some guard → guard = indices) ∧
        (n.guard? a.permutationCount = none ↔
          ∀ index < a.permutationCount, ∃ cs, IsOpenPath g output slots ks index cs n.id) ∧
        (n.isLive = false ↔
          ∀ index < a.permutationCount, ¬∃ cs, IsOpenPath g output slots ks index cs n.id) := by
  have hnodes := (stageNodes_spec h).1
  obtain ⟨hids, hspread, -⟩ := liveNodes_spec hnodes
  refine ⟨hids, (Walk.isOrdered_of_collect hids).1.nodup, fun n hn => ?_⟩
  have hpath : ∀ index < a.permutationCount,
      (n.LiveIn index ↔ ∃ cs, IsOpenPath g output slots ks index cs n.id) :=
    fun index hindex => liveIn_iff_exists_isOpenPath hnames hnodes hn hindex
  obtain ⟨indices, hindices, hsorted, hmem⟩ :=
    LiveNode.exists_permutations_of_isSpread (hspread n hn) (by omega)
  have hmem : ∀ index, index ∈ indices ↔ index < a.permutationCount ∧
      ∃ cs, IsOpenPath g output slots ks index cs n.id :=
    fun index => (hmem index).trans (and_congr_right (hpath index))
  refine ⟨⟨indices, hindices, hsorted, hmem, ?_⟩, ?_, ?_⟩
  · intro guard hguard
    have hpermutations := (Option.filter_eq_some_iff.mp hguard).1
    rw [hindices] at hpermutations
    exact (Option.some.inj hpermutations).symm
  · rw [LiveNode.guard?_eq_none_iff (hspread n hn)]
    exact forall₂_congr hpath
  · rw [LiveNode.isLive_eq_false_iff hindices, List.eq_nil_iff_forall_not_mem]
    refine forall_congr' fun index => ?_
    rw [hmem, not_and]

/-- A keyword node behind another.  One node feeds an input of both, and one is connected where
neither value leads. -/
def nestedGraph : Graph where
  version := "1"
  metadata := { name := "Nested" }
  nodes := [
    { id := "master", type := "Master", inputs := [{ id := "BaseColor" }] },
    { id := "outer", type := "Keyword", params := [("keyword", .text "_OUTER")],
      inputs := [{ id := "On" }, { id := "Off" }] },
    { id := "inner", type := "Keyword", params := [("keyword", .text "_INNER")],
      inputs := [{ id := "On" }, { id := "Off" }, { id := "Spare" }] },
    { id := "shared", type := "Color" },
    { id := "own", type := "Float" },
    { id := "spare", type := "Float" }]
  connections := [
    ⟨"c1", ⟨"outer", "Out"⟩, ⟨"master", "BaseColor"⟩⟩,
    ⟨"c2", ⟨"inner", "Out"⟩, ⟨"outer", "On"⟩⟩,
    ⟨"c3", ⟨"shared", "Out"⟩, ⟨"outer", "Off"⟩⟩,
    ⟨"c4", ⟨"shared", "Out"⟩, ⟨"inner", "On"⟩⟩,
    ⟨"c5", ⟨"own", "Out"⟩, ⟨"inner", "Off"⟩⟩,
    ⟨"c6", ⟨"spare", "Out"⟩, ⟨"inner", "Spare"⟩⟩]
  keywords := [{ referenceName := "_OUTER" }, { referenceName := "_INNER" }]

theorem stageNodes_permutations_nested :
    ∃ s b, stageNodes nestedGraph "master" (some ["BaseColor"]) nestedGraph.keywords .pixel
        (ActiveFields.new 4) = .ok (s, b) ∧
      s.nodes = [⟨"shared", some [0, 1, 3]⟩, ⟨"own", some [2]⟩, ⟨"spare", some []⟩,
        ⟨"inner", some [2, 3]⟩, ⟨"outer", some [0, 1, 2, 3]⟩, ⟨"master", some [0, 1, 2, 3]⟩] ∧
      ∀ index, index ∈ [0, 1, 3] ↔ index < 4 ∧ ∃ cs, IsOpenPath nestedGraph "master"
        (some ["BaseColor"]) nestedGraph.keywords index cs "shared" := by
  have hnodes : (stageNodes nestedGraph "master" (some ["BaseColor"]) nestedGraph.keywords .pixel
      (ActiveFields.new 4) >>= fun r => pure r.1.nodes) = .ok [⟨"shared", some [0, 1, 3]⟩,
        ⟨"own", some [2]⟩, ⟨"spare", some []⟩, ⟨"inner", some [2, 3]⟩,
        ⟨"outer", some [0, 1, 2, 3]⟩, ⟨"master", some [0, 1, 2, 3]⟩] := by decide +kernel
  obtain ⟨⟨s, b⟩, h, hs⟩ := Outcome.bind_eq_ok_iff.mp hnodes
  have hs : s.nodes = _ := Outcome.pure_eq_ok_iff.mp hs
  have hnames : (nestedGraph.keywords.map Keyword.referenceName).Nodup := by decide +kernel
  obtain ⟨-, -, hall⟩ := stageNodes_permutations hnames (by decide) h
  obtain ⟨⟨indices, hindices, -, hmem, -⟩, -, -⟩ := hall ⟨"shared", some [0, 1, 3]⟩ (by simp [hs])
  obtain rfl := Option.some.inj hindices
  exact ⟨s, b, h, hs, hmem⟩

end MaterialShader
