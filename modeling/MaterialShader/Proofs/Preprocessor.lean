import Mathlib.Data.List.Forall2
import MaterialShader.Shading.Directive

/-!
# Preprocessing

What a preprocessor leaves of a list of lines.  A group of branches whose condition it can
decide is resolved: the directives go, and of the branches the first whose condition holds
stays.  A group whose condition it cannot decide stays as it is, directives included, so that
the same machine describes a full run and a run for some of the symbols only.

The machine is told what a line means and which conditions it can decide, and it knows nothing
else of either.  So it runs on text as well as on code that is still a tree.

## Main definitions

* `Role` — what a line is to the preprocessor.
* `Group`, `step`, `run` — the open groups, and the machine.
* `resolve` — what is left of a text.
* `Yields` — some lines resolve by themselves, whatever groups are open.

## Main results

* `Yields.append`, `yields_kept`, `yields_resolved` — how lines that resolve by themselves are
  put together: one after the other, in a group that stays, and in a group that is resolved.
-/

namespace MaterialShader
namespace Preprocessor

/-- What a line is to the preprocessor. -/
inductive Role (κ : Type) where
  /-- A line of the text. -/
  | text : Role κ
  /-- Opens a group with its first branch. -/
  | opens (condition : κ) : Role κ
  /-- Starts the next branch of a group. -/
  | continues (condition : κ) : Role κ
  /-- Starts the branch that takes all that is left. -/
  | otherwise : Role κ
  /-- Closes a group. -/
  | closes : Role κ
  deriving DecidableEq, Repr

/-- The role with its condition in another form. -/
def Role.map {κ ι : Type} (f : κ → ι) : Role κ → Role ι
  | .text => .text
  | .opens c => .opens (f c)
  | .continues c => .continues (f c)
  | .otherwise => .otherwise
  | .closes => .closes

/-- An open group. -/
inductive Group where
  /-- It stays as it is. -/
  | kept : Group
  /-- It is resolved: whether a branch has been chosen so far, and whether the current one
  is. -/
  | resolved (chosen current : Bool) : Group
  deriving DecidableEq, Repr

/-- The lines of the current branch stay. -/
def Group.isCurrent : Group → Bool
  | .kept => true
  | .resolved _ current => current

/-- The lines inside all the open groups stay. -/
def areCurrent (groups : List Group) : Bool := groups.all Group.isCurrent

@[simp] theorem areCurrent_nil : areCurrent [] = true := rfl

@[simp] theorem areCurrent_kept (groups : List Group) :
    areCurrent (.kept :: groups) = areCurrent groups := rfl

@[simp] theorem areCurrent_resolved (chosen current : Bool) (groups : List Group) :
    areCurrent (.resolved chosen current :: groups) = (current && areCurrent groups) := rfl

section Machine

variable {α κ : Type} (role : α → Role κ) (value : κ → Option Bool)

/-- The next branch of the innermost group, whose condition has a value.  It is chosen if it
holds and none before it was. -/
def nextBranch (groups : List Group) (holds : Bool) (line : α) : List Group × List α :=
  match groups with
  | .resolved chosen _ :: outer => (.resolved (chosen || holds) (!chosen && holds) :: outer, [])
  | .kept :: outer => (.kept :: outer, if areCurrent outer then [line] else [])
  | [] => ([], [line])

/-- The open groups after a line, and what is left of the line. -/
def step (groups : List Group) (line : α) : List Group × List α :=
  match role line with
  | .text => (groups, if areCurrent groups then [line] else [])
  | .opens c =>
      match value c with
      | some holds => (.resolved holds holds :: groups, [])
      | none => (.kept :: groups, if areCurrent groups then [line] else [])
  | .continues c => nextBranch groups ((value c).getD false) line
  | .otherwise => nextBranch groups true line
  | .closes =>
      match groups with
      | .resolved _ _ :: outer => (outer, [])
      | .kept :: outer => (outer, if areCurrent outer then [line] else [])
      | [] => ([], [line])

/-- The open groups after some lines, and what is left of the lines. -/
def run (groups : List Group) : List α → List Group × List α
  | [] => (groups, [])
  | line :: rest =>
      let after := step role value groups line
      let final := run after.1 rest
      (final.1, after.2 ++ final.2)

/-- What is left of a text. -/
def resolve (lines : List α) : List α := (run role value [] lines).2

/-- Wherever the lines stand, the groups that are open before them are open after them, and
`left` is left of the lines if the place is current. -/
def Yields (lines left : List α) : Prop :=
  ∀ groups, run role value groups lines = (groups, if areCurrent groups then left else [])

end Machine

variable {α κ : Type} {role : α → Role κ} {value : κ → Option Bool} {groups : List Group}
  {line opening closing : α} {lines left : List α}

/-! ### Putting lines together -/

theorem run_cons (line : α) (rest : List α) :
    run role value groups (line :: rest) =
      ((run role value (step role value groups line).1 rest).1,
        (step role value groups line).2 ++
          (run role value (step role value groups line).1 rest).2) :=
  rfl

theorem run_append (lines rest : List α) :
    run role value groups (lines ++ rest) =
      ((run role value (run role value groups lines).1 rest).1,
        (run role value groups lines).2 ++
          (run role value (run role value groups lines).1 rest).2) := by
  induction lines generalizing groups with
  | nil => rfl
  | cons line lines ih =>
    rw [List.cons_append, run_cons, ih, run_cons, List.append_assoc]

namespace Yields

theorem nil : Yields role value [] [] := fun groups => by rw [ite_self]; rfl

theorem text (h : role line = .text) : Yields role value [line] [line] := fun groups => by
  simp [run, step, h]

theorem append {lines₁ lines₂ left₁ left₂ : List α} (h₁ : Yields role value lines₁ left₁)
    (h₂ : Yields role value lines₂ left₂) :
    Yields role value (lines₁ ++ lines₂) (left₁ ++ left₂) := fun groups => by
  rw [run_append, h₁ groups, h₂ groups]
  split <;> rfl

/-- Parts that resolve one by one resolve together. -/
theorem flatMap_of_forall₂ {ι ι' : Type} {items : List ι} {parts : List ι'} {f : ι' → List α}
    {g : ι → List α}
    (h : List.Forall₂ (fun i part => Yields role value (f part) (g i)) items parts) :
    Yields role value (parts.flatMap f) (items.flatMap g) := by
  induction h with
  | nil => exact nil
  | cons hpart _ ih =>
    rw [List.flatMap_cons, List.flatMap_cons]
    exact hpart.append ih

theorem resolve_eq (h : Yields role value lines left) : resolve role value lines = left := by
  rw [resolve, h []]
  rfl

end Yields

/-! ### Groups that stay -/

/-- Some lines of a group that stays: they may start branches of that group, and all groups
they open they close. -/
def StaysInside (role : α → Role κ) (value : κ → Option Bool) (lines : List α) : Prop :=
  ∀ groups, run role value (.kept :: groups) lines =
    (.kept :: groups, if areCurrent groups then lines else [])

namespace StaysInside

theorem nil : StaysInside role value [] := fun groups => by rw [ite_self]; rfl

theorem of_yields (h : Yields role value lines lines) : StaysInside role value lines :=
  fun groups => h (.kept :: groups)

theorem append {lines₁ lines₂ : List α} (h₁ : StaysInside role value lines₁)
    (h₂ : StaysInside role value lines₂) : StaysInside role value (lines₁ ++ lines₂) :=
  fun groups => by
    rw [run_append, h₁ groups, h₂ groups]
    split <;> rfl

theorem branch (h : (∃ c, role line = .continues c) ∨ role line = .otherwise) :
    StaysInside role value [line] := fun groups => by
  rcases h with ⟨c, h⟩ | h
  · simp [run, step, h, nextBranch]
  · simp [run, step, h, nextBranch]

end StaysInside

/-- A group whose first condition cannot be decided stays. -/
theorem yields_kept {c : κ} (hopen : role opening = .opens c) (hvalue : value c = none)
    (hlines : StaysInside role value lines) (hclose : role closing = .closes) :
    Yields role value (opening :: lines ++ [closing]) (opening :: lines ++ [closing]) := by
  intro groups
  have hfirst : step role value groups opening =
      (.kept :: groups, if areCurrent groups then [opening] else []) := by
    simp only [step, hopen, hvalue]
  have hlast : step role value (.kept :: groups) closing =
      (groups, if areCurrent groups then [closing] else []) := by
    simp only [step, hclose]
  rw [List.cons_append, run_cons, hfirst, run_append, hlines groups, run_cons, hlast]
  by_cases hcurrent : areCurrent groups = true
  · simp [run, hcurrent]
  · simp [run, hcurrent]

/-! ### Groups that are resolved -/

/-- A branch of a group that is resolved. -/
structure Branch (α : Type) where
  /-- The directive that starts it. -/
  directive : α
  /-- Its condition holds. -/
  holds : Bool
  /-- The lines after the directive. -/
  lines : List α
  /-- What is left of them. -/
  left : List α

namespace Branch

/-- The branch as it stands in the text. -/
def text (b : Branch α) : List α := b.directive :: b.lines

/-- What is left of some branches: the first that holds. -/
def chosen (branches : List (Branch α)) : List α :=
  ((branches.find? Branch.holds).map Branch.left).getD []

/-- The directive of a later branch has the value it is said to have. -/
def Continues (role : α → Role κ) (value : κ → Option Bool) (b : Branch α) : Prop :=
  (∃ c, role b.directive = .continues c ∧ value c = some b.holds) ∨
    (role b.directive = .otherwise ∧ b.holds = true)

theorem step_of_continues {b : Branch α} (h : b.Continues role value) {seen current : Bool} :
    step role value (.resolved seen current :: groups) b.directive =
      (.resolved (seen || b.holds) (!seen && b.holds) :: groups, []) := by
  rcases h with ⟨c, hrole, hvalue⟩ | ⟨hrole, hholds⟩
  · simp [step, hrole, hvalue, nextBranch]
  · simp [step, hrole, hholds, nextBranch]

theorem chosen_cons {b : Branch α} {branches : List (Branch α)} :
    chosen (b :: branches) = if b.holds then b.left else chosen branches := by
  unfold chosen
  cases hb : b.holds <;> simp [hb]

/-- The later branches of a group: nothing is left of them once a branch has been chosen. -/
theorem run_later (groups : List Group) {branches : List (Branch α)}
    (hcont : ∀ b ∈ branches, b.Continues role value)
    (hleft : ∀ b ∈ branches, Yields role value b.lines b.left) (seen current : Bool) :
    ∃ seen' current', run role value (.resolved seen current :: groups) (branches.flatMap text) =
      (.resolved seen' current' :: groups,
        if areCurrent groups && !seen then chosen branches else []) := by
  induction branches generalizing seen current with
  | nil => exact ⟨seen, current, by simp [run, chosen]⟩
  | cons b branches ih =>
    obtain ⟨seen', current', hrest⟩ := ih (fun c hc => hcont c (List.mem_cons_of_mem _ hc))
      (fun c hc => hleft c (List.mem_cons_of_mem _ hc)) (seen || b.holds) (!seen && b.holds)
    -- what is left depends on the place, on the branches before, and on this one
    refine ⟨seen', current', ?_⟩
    rw [List.flatMap_cons, text, List.cons_append, run_cons,
      step_of_continues (hcont b List.mem_cons_self), run_append, hleft b List.mem_cons_self,
      hrest, chosen_cons]
    cases hcurrent : areCurrent groups <;> cases seen <;> cases b.holds <;> simp [hcurrent]

end Branch

/-- **A group that is resolved** leaves the first branch whose condition holds. -/
theorem yields_resolved {first : Branch α} {later : List (Branch α)} {c : κ}
    (hopen : role first.directive = .opens c) (hvalue : value c = some first.holds)
    (hcont : ∀ b ∈ later, b.Continues role value)
    (hleft : ∀ b ∈ first :: later, Yields role value b.lines b.left)
    (hclose : role closing = .closes) :
    Yields role value ((first :: later).flatMap Branch.text ++ [closing])
      (Branch.chosen (first :: later)) := by
  intro groups
  have hfirst : step role value groups first.directive =
      (.resolved first.holds first.holds :: groups, []) := by
    simp only [step, hopen, hvalue]
  obtain ⟨seen, current, hlater⟩ := Branch.run_later groups hcont
    (fun b hb => hleft b (List.mem_cons_of_mem _ hb)) first.holds first.holds
  have hlast : step role value (.resolved seen current :: groups) closing = (groups, []) := by
    simp only [step, hclose]
  rw [List.flatMap_cons, Branch.text, List.cons_append, List.cons_append, run_cons, hfirst,
    List.append_assoc, run_append, hleft first List.mem_cons_self, run_append, hlater, run_cons,
    hlast, Branch.chosen_cons]
  cases hcurrent : areCurrent groups <;> cases first.holds <;> simp [run, hcurrent]

/-- A group of one branch leaves that branch or nothing. -/
theorem yields_single {c : κ} {holds : Bool} (hopen : role opening = .opens c)
    (hvalue : value c = some holds) (hlines : Yields role value lines left)
    (hclose : role closing = .closes) :
    Yields role value (opening :: lines ++ [closing]) (if holds then left else []) := by
  -- a group without later branches
  let only : Branch α := ⟨opening, holds, lines, left⟩
  have hleft : ∀ b ∈ [only], Yields role value b.lines b.left :=
    List.forall_mem_singleton.mpr hlines
  have h : Yields role value ([only].flatMap Branch.text ++ [closing]) (Branch.chosen [only]) :=
    yields_resolved hopen hvalue (List.forall_mem_nil _) hleft hclose
  rwa [Branch.chosen_cons, List.flatMap_singleton] at h

end Preprocessor
end MaterialShader
