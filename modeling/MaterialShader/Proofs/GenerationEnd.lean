import MaterialShader.Proofs.GenerationError
import MaterialShader.Proofs.TypeBound

/-!
# Generations that end

Walks come to an end by themselves.  The recursion over types does not: where connections share an
id it can take one that no walk has taken, and go round in a circle.  All that ends it then is its
bound, with the answer that there is a cycle.  So a generation ends if its answer is no cycle, or
if it is the answer of its first walk.

No other answer is lost in this way.  Once the first walk has succeeded, none of the others meets a
cycle, and a cycle in the answer is that of a type which no bound settles.

## Main definitions

* `Generator.Ends` — a generation ends.

## Main results

* `Generator.exists_unsettled_of_not_ends` — what a generation that does not end asks for.
* `Generator.ends_of_isWalked` — with connections of different ids, generations end.
-/

namespace MaterialShader

open GenerationError (IsCycle)
open Outcome (FailsOnly FailsWith)

variable {g : Graph} {ks : Keywords} {ids : List String}

/-! ### Errors that are no cycles -/

/-- No look-up fails with a cycle. -/
theorem Graph.failsOnly_operation (g : Graph) (id : String) :
    FailsOnly (fun e => ¬IsCycle e) (g.operation id) := by
  refine FailsOnly.bind (fun e he => ?_) fun n _ => ?_
  · obtain ⟨rfl, -⟩ := findNode_eq_error he
    rintro ⟨_, h⟩
    exact absurd h (by rintro ⟨⟩)
  · unfold Operation.ofNode
    split
    · exact FailsOnly.ok _
    · exact FailsOnly.error fun ⟨_, h⟩ => absurd h (by rintro ⟨⟩)

/-- No keyword fails with a cycle. -/
theorem Node.failsOnly_keyword (n : Node) (ks : Keywords) :
    FailsOnly (fun e => ¬IsCycle e) (n.keyword ks) := by
  unfold keyword
  split
  · exact FailsOnly.error fun ⟨_, h⟩ => absurd h (by rintro ⟨⟩)
  · split
    · exact FailsOnly.ok _
    · exact FailsOnly.error fun ⟨_, h⟩ => absurd h (by rintro ⟨⟩)

/-- Where the type of every output of the graph is settled, nothing that the code of nodes asks for
is a cycle. -/
theorem Graph.errorsMeet_of_settled (h : ∀ id o, g.operation id = .ok o → ∀ socket,
      ¬FailsWith IsCycle (g.outputType o socket)) (ks : Keywords) (ids : List String) :
    g.ErrorsMeet (fun e => ¬IsCycle e) ks ids where
  operation := fun id _ => g.failsOnly_operation id
  connected := by
    intro id _ o _ socket
    refine FailsOnly.bind ?_ fun connected? hconnected => ?_
    · unfold connected
      split
      · exact FailsOnly.ok _
      · exact FailsOnly.map (g.failsOnly_operation _)
    · cases connected? with
      | none => exact FailsOnly.ok _
      | some source =>
        obtain ⟨c, -, hsource, -⟩ := connected_spec hconnected
        exact FailsOnly.map (FailsWith.not_iff_failsOnly.mp (h _ _ hsource source.2))
  types := fun id _ o ho socket => FailsWith.not_iff_failsOnly.mp (h id o ho socket)
  keyword := fun _ _ o _ _ => o.node.failsOnly_keyword ks

/-- No cycle comes from a template. -/
theorem failsOnly_template (ctx : Template.Context) (path : Path) :
    FailsOnly (fun e => ¬IsCycle e) (processTemplate ctx path) := by
  refine (failsOnly_processTemplate ctx path).mono ?_
  rintro _ htemplate ⟨id, rfl⟩
  exact htemplate

/-! ### The end of a generation -/

namespace Generator

variable {s : Generator} {output : String} {mode : Mode}

/-- The generation ends: its answer is no cycle, unless that is the answer of its first walk. -/
def Ends (s : Generator) (output : String) (mode : Mode) : Prop :=
  ∀ ids, s.graph.evaluationOrder output = .ok ids → ¬FailsWith IsCycle (s.generate output mode)

/-- A generation fails as its first walk does. -/
theorem generate_eq_error {e : GenerationError} (h : s.graph.evaluationOrder output = .error e)
    (mode : Mode) : s.generate output mode = .error e := by
  rw [generate, h]
  rfl

/-- Where nothing that the code of nodes asks for is a cycle, the generation ends. -/
theorem ends_of_errorsMeet (h : ∀ ids, s.graph.evaluationOrder output = .ok ids →
    s.graph.ErrorsMeet (fun e => ¬IsCycle e) s.graph.keywords ids) (mode : Mode) :
    s.Ends output mode := by
  intro ids hwalk
  refine FailsWith.not_iff_failsOnly.mpr ?_
  exact failsOnly_generate_of_errorsMeet (h ids hwalk) hwalk
    fun _ _ _ _ _ sections a _ => failsOnly_template _ _

/-- **A generation that does not end** asks for a type that no bound settles. -/
theorem exists_unsettled_of_not_ends (h : ¬s.Ends output mode) :
    ∃ id o socket, s.graph.operation id = .ok o ∧
      ∀ fuel, FailsWith IsCycle (s.graph.outputTypeWithin fuel o socket) := by
  by_contra hsettled
  refine h (ends_of_errorsMeet (fun ids _ => Graph.errorsMeet_of_settled ?_ _ ids) mode)
  intro id o ho socket hcycle
  exact hsettled ⟨id, o, socket, ho, Graph.failsWith_outputType_iff.mp hcycle⟩

/-- **With connections of different ids**, a generation from known nodes ends. -/
theorem ends_of_isWalked (h : s.graph.IsWalked output ids) (mode : Mode) : s.Ends output mode := by
  refine ends_of_errorsMeet (fun ids' hids' => ?_) mode
  obtain rfl : ids = ids' := Except.ok.inj (h.walk.symm.trans hids')
  exact {
    operation := fun id _ => s.graph.failsOnly_operation id
    connected := fun _ hid _ ho socket =>
      FailsOnly.of_exists (h.exists_connectedOutput hid ho socket)
    types := fun _ hid _ ho socket => FailsOnly.of_exists (h.exists_outputType hid ho socket)
    keyword := fun _ _ o _ _ => o.node.failsOnly_keyword s.graph.keywords }

end Generator
end MaterialShader
