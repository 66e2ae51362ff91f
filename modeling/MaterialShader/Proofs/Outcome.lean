import Mathlib.Data.List.Forall2

/-!
# Computations that may fail

What is known when a sequence of steps that may fail has succeeded: each of them did.  What it
fails with is what one of them fails with.  Two computations that fail alike are compared step
by step.

## Main definitions

* `FailsOnly` — the errors of a computation meet a condition.
* `Agree` — two computations fail with the same error, or their results are related.
* `FailsWith`, `SameUnless` — a computation fails in a certain way; two computations are the same,
  unless the first does.

## Main results

* `bind_eq_ok_iff` — two steps.
* `mapM_eq_ok_iff` — a step for each element of a list.
* `foldlM_invariant` — a state passed along a list.
* `FailsOnly.bind` — the errors of two steps.
* `Agree.bind` — two steps of computations that agree.
* `SameUnless.bind` — two steps of computations that are the same.
-/

namespace MaterialShader
namespace Outcome

variable {ε α β σ : Type}

/-- What is asked of a result is asked of nothing if there is none. -/
instance decidableForallOk {P : α → Prop} [DecidablePred P] :
    (x : Except ε α) → Decidable (∀ a, x = .ok a → P a)
  | .error _ => isTrue fun _ h => absurd h (by rintro ⟨⟩)
  | .ok a => decidable_of_iff (P a) ⟨fun hP _ h => Except.ok.inj h ▸ hP, fun hP => hP a rfl⟩

theorem bind_eq_ok_iff {x : Except ε α} {f : α → Except ε β} {b : β} :
    x >>= f = .ok b ↔ ∃ a, x = .ok a ∧ f a = .ok b := by
  constructor
  · intro h
    cases x with
    | error e => exact absurd h (by rintro ⟨⟩)
    | ok a => exact ⟨a, rfl, h⟩
  · rintro ⟨a, rfl, h⟩
    exact h

theorem bind_eq_error_iff {x : Except ε α} {f : α → Except ε β} {e : ε} :
    x >>= f = .error e ↔ x = .error e ∨ ∃ a, x = .ok a ∧ f a = .error e := by
  cases x with
  | error e' =>
    constructor
    · intro h
      exact Or.inl (congrArg _ (Except.error.inj h))
    · rintro (h | ⟨a, h, -⟩)
      · exact congrArg _ (Except.error.inj h)
      · exact absurd h (by rintro ⟨⟩)
  | ok a =>
    constructor
    · intro h
      exact Or.inr ⟨a, rfl, h⟩
    · rintro (h | ⟨a', h, hf⟩)
      · exact absurd h (by rintro ⟨⟩)
      · rw [← Except.ok.inj h] at hf
        exact hf

/-- Second steps need to agree on the result of the first only. -/
theorem bind_congr_of_ok {x : Except ε α} {f g : α → Except ε β}
    (h : ∀ a, x = .ok a → f a = g a) : x >>= f = x >>= g := by
  cases x with
  | error e => rfl
  | ok a => exact h a rfl

theorem pure_eq_ok_iff {a b : α} : (pure a : Except ε α) = .ok b ↔ a = b :=
  ⟨fun h => Except.ok.inj h, fun h => congrArg _ h⟩

theorem exists_of_isOk {x : Except ε α} (h : x.isOk = true) : ∃ a, x = .ok a := by
  cases x with
  | error e => exact absurd h Bool.false_ne_true
  | ok a => exact ⟨a, rfl⟩

/-- A computed check shows that a computation succeeds and what is checked of its result. -/
theorem exists_of_check {x : Except ε α} {p : α → Bool} (h : x.toOption.any p = true) :
    ∃ a, x = .ok a ∧ p a = true := by
  cases x with
  | error e => exact absurd h Bool.false_ne_true
  | ok a => exact ⟨a, rfl, h⟩

/-- The results of a list of steps belong to its elements one by one. -/
theorem mapM_eq_ok_iff {f : α → Except ε β} {l : List α} {r : List β} :
    l.mapM f = .ok r ↔ List.Forall₂ (fun a b => f a = .ok b) l r := by
  induction l generalizing r with
  | nil =>
    rw [List.mapM_nil, pure_eq_ok_iff, List.forall₂_nil_left_iff]
    exact eq_comm
  | cons a l ih =>
    rw [List.mapM_cons, bind_eq_ok_iff]
    constructor
    · rintro ⟨b, hb, h⟩
      obtain ⟨bs, hbs, h⟩ := bind_eq_ok_iff.mp h
      rw [← pure_eq_ok_iff.mp h]
      exact .cons hb (ih.mp hbs)
    · intro h
      cases h with
      | cons hb hbs => exact ⟨_, hb, bind_eq_ok_iff.mpr ⟨_, ih.mpr hbs, rfl⟩⟩

/-- Where a part of each result is known from the element, it is known of all of them. -/
theorem map_eq_map_of_mapM {γ : Type} {f : α → Except ε β} {l : List α} {r : List β}
    (h : l.mapM f = .ok r) {k : β → γ} {g : α → γ} (hg : ∀ a b, f a = .ok b → k b = g a) :
    r.map k = l.map g := by
  have hresults := mapM_eq_ok_iff.mp h
  clear h
  induction hresults with
  | nil => rfl
  | cons hab _ ih => rw [List.map_cons, List.map_cons, hg _ _ hab, ih]

/-- Where the results are known as a function of the elements, they are its values. -/
theorem eq_map_of_mapM {f : α → Except ε β} {l : List α} {r : List β} (h : l.mapM f = .ok r)
    {g : α → β} (hg : ∀ a b, f a = .ok b → b = g a) : r = l.map g := by
  rw [← map_eq_map_of_mapM h (k := id) hg, List.map_id]

theorem exists_of_mapM {f : α → Except ε β} {l : List α} {r : List β} (h : l.mapM f = .ok r)
    {a : α} (ha : a ∈ l) : ∃ b, f a = .ok b := by
  have hresults := mapM_eq_ok_iff.mp h
  clear h
  induction hresults with
  | nil => exact absurd ha List.not_mem_nil
  | cons hab _ ih =>
    rcases List.mem_cons.mp ha with rfl | ha
    · exact ⟨_, hab⟩
    · exact ih ha

/-- Every result belongs to an element. -/
theorem exists_of_mem_mapM {f : α → Except ε β} {l : List α} {r : List β} (h : l.mapM f = .ok r)
    {b : β} (hb : b ∈ r) : ∃ a ∈ l, f a = .ok b := by
  have hresults := mapM_eq_ok_iff.mp h
  clear h
  induction hresults with
  | nil => exact absurd hb List.not_mem_nil
  | cons hab _ ih =>
    rcases List.mem_cons.mp hb with rfl | hb
    · exact ⟨_, List.mem_cons_self, hab⟩
    · obtain ⟨a, ha, hfa⟩ := ih hb
      exact ⟨a, List.mem_cons_of_mem _ ha, hfa⟩

/-- Loops whose steps agree on the elements of the list agree. -/
theorem foldlM_congr {f g : σ → α → Except ε σ} {l : List α} {s : σ}
    (h : ∀ s, ∀ a ∈ l, f s a = g s a) : l.foldlM f s = l.foldlM g s := by
  induction l generalizing s with
  | nil => rfl
  | cons a l ih =>
    rw [List.foldlM_cons, List.foldlM_cons, h s a List.mem_cons_self]
    refine congrArg _ (funext fun t => ?_)
    exact ih fun s b hb => h s b (List.mem_cons_of_mem a hb)

/-- A loop that succeeds has done each of its steps. -/
theorem exists_of_mem_foldlM {f : σ → α → Except ε σ} {l : List α} {s t : σ}
    (h : l.foldlM f s = .ok t) {a : α} (ha : a ∈ l) : ∃ s t, f s a = .ok t := by
  induction l generalizing s with
  | nil => exact absurd ha List.not_mem_nil
  | cons b l ih =>
    rw [List.foldlM_cons] at h
    obtain ⟨s', hs', h⟩ := bind_eq_ok_iff.mp h
    rcases List.mem_cons.mp ha with rfl | ha
    · exact ⟨s, s', hs'⟩
    · exact ih h ha

/-- A loop that fails fails at one of its elements. -/
theorem exists_of_foldlM_eq_error {f : σ → α → Except ε σ} {l : List α} {s : σ} {e : ε}
    (h : l.foldlM f s = .error e) : ∃ t, ∃ a ∈ l, f t a = .error e := by
  induction l generalizing s with
  | nil => exact absurd h (by rintro ⟨⟩)
  | cons a l ih =>
    rw [List.foldlM_cons] at h
    obtain ha | ⟨t, -, h⟩ := bind_eq_error_iff.mp h
    · exact ⟨s, a, List.mem_cons_self, ha⟩
    · obtain ⟨t, b, hb, hf⟩ := ih h
      exact ⟨t, b, List.mem_cons_of_mem a hb, hf⟩

/-- **The invariant of a loop over a list.**  What holds of no elements and the first state,
and is carried over by the step of every element, holds of the whole list and the last
state. -/
theorem foldlM_invariant {f : σ → α → Except ε σ} {l : List α} (P : List α → σ → Prop)
    (hstep : ∀ (done : List α) (s : σ) (a : α) (t : σ), a ∈ l →
      P done s → f s a = .ok t → P (done ++ [a]) t)
    {s t : σ} (hs : P [] s) (h : l.foldlM f s = .ok t) : P l t := by
  -- the induction is on what is left, with the part that is done free
  have key : ∀ (rest done : List α) (s : σ), rest ⊆ l → P done s → rest.foldlM f s = .ok t →
      P (done ++ rest) t := by
    intro rest
    induction rest with
    | nil =>
      intro done s _ hdone h
      rw [List.append_nil, ← pure_eq_ok_iff.mp h]
      exact hdone
    | cons a rest ih =>
      intro done s hsub hdone h
      rw [List.foldlM_cons, bind_eq_ok_iff] at h
      obtain ⟨s', hs', h⟩ := h
      obtain ⟨ha, hrest⟩ := List.cons_subset.mp hsub
      have := ih (done ++ [a]) s' hrest (hstep done s a s' ha hdone hs') h
      rwa [List.append_assoc] at this
  exact key l [] s (List.Subset.refl l) hs h

/-! ### The errors of a computation -/

/-- The errors of a computation meet a condition; a computation with no possible error
succeeds. -/
def FailsOnly (P : ε → Prop) (x : Except ε α) : Prop := ∀ e, x = .error e → P e

namespace FailsOnly

variable {P Q : ε → Prop} {x : Except ε α}

theorem ok (a : α) : FailsOnly P (.ok a : Except ε α) := fun _ h => absurd h (by rintro ⟨⟩)

theorem error {e : ε} (h : P e) : FailsOnly P (.error e : Except ε α) :=
  fun _ he => Except.error.inj he ▸ h

theorem of_exists (h : ∃ a, x = .ok a) : FailsOnly P x := by
  obtain ⟨a, rfl⟩ := h
  exact ok a

theorem exists_ok (h : FailsOnly (fun _ => False) x) : ∃ a, x = .ok a := by
  cases x with
  | error e => exact (h e rfl).elim
  | ok a => exact ⟨a, rfl⟩

theorem mono (h : FailsOnly P x) (hPQ : ∀ e, P e → Q e) : FailsOnly Q x :=
  fun e he => hPQ e (h e he)

theorem bind {f : α → Except ε β} (h : FailsOnly P x) (hf : ∀ a, x = .ok a → FailsOnly P (f a)) :
    FailsOnly P (x >>= f) := by
  intro e he
  obtain hx | ⟨a, ha, he⟩ := bind_eq_error_iff.mp he
  · exact h e hx
  · exact hf a ha e he

theorem map {f : α → β} (h : FailsOnly P x) : FailsOnly P (x >>= fun a => pure (f a)) :=
  h.bind fun a _ => ok (f a)

theorem foldlM {f : σ → α → Except ε σ} {l : List α} {s : σ}
    (h : ∀ s, ∀ a ∈ l, FailsOnly P (f s a)) : FailsOnly P (l.foldlM f s) := by
  intro e he
  obtain ⟨t, a, ha, hfail⟩ := exists_of_foldlM_eq_error he
  exact h t a ha e hfail

theorem mapM {f : α → Except ε β} {l : List α} (h : ∀ a ∈ l, FailsOnly P (f a)) :
    FailsOnly P (l.mapM f) := by
  induction l with
  | nil => exact ok []
  | cons a l ih =>
    obtain ⟨ha, hl⟩ := List.forall_mem_cons.mp h
    rw [List.mapM_cons]
    exact ha.bind fun b _ => (ih hl).map

end FailsOnly

/-! ### Computations that agree -/

/-- Two computations fail with the same error, or their results are related. -/
def Agree (R : α → β → Prop) : Except ε α → Except ε β → Prop
  | .ok a, .ok b => R a b
  | .error e, .error e' => e = e'
  | _, _ => False

namespace Agree

variable {γ δ : Type} {R : α → β → Prop} {S : γ → δ → Prop} {x : Except ε α} {y : Except ε β}

theorem bind {f : α → Except ε γ} {g : β → Except ε δ} (h : Agree R x y)
    (hfg : ∀ a b, R a b → Agree S (f a) (g b)) : Agree S (x >>= f) (y >>= g) := by
  cases x with
  | error e =>
    cases y with
    | error e' => exact h
    | ok b => exact h.elim
  | ok a =>
    cases y with
    | error e' => exact h.elim
    | ok b => exact hfg a b h

theorem map_left {S : γ → β → Prop} {f : α → γ} (h : Agree R x y)
    (hf : ∀ a b, R a b → S (f a) b) : Agree S (x >>= fun a => pure (f a)) y := by
  have hbind := h.bind (S := S) (f := fun a => pure (f a)) (g := pure) hf
  rwa [bind_pure] at hbind

theorem map_right {S : α → γ → Prop} {f : β → γ} (h : Agree R x y)
    (hf : ∀ a b, R a b → S a (f b)) : Agree S x (y >>= fun b => pure (f b)) := by
  have hbind := h.bind (S := S) (f := pure) (g := fun b => pure (f b)) hf
  rwa [bind_pure] at hbind

theorem mono {R' : α → β → Prop} (h : Agree R x y) (hR : ∀ a b, R a b → R' a b) :
    Agree R' x y := by
  cases x with
  | error e =>
    cases y with
    | error e' => exact h
    | ok b => exact h.elim
  | ok a =>
    cases y with
    | error e' => exact h.elim
    | ok b => exact hR a b h

/-- Two computations that agree with a third agree with each other. -/
theorem through {z : Except ε γ} {R : α → γ → Prop} {S : β → γ → Prop} (h : Agree R x z)
    (h' : Agree S y z) : Agree (fun a b => ∃ c, z = .ok c ∧ R a c ∧ S b c) x y := by
  cases z with
  | error e =>
    cases x with
    | ok a => exact h.elim
    | error e₁ =>
      cases y with
      | ok b => exact h'.elim
      | error e₂ => exact h.trans h'.symm
  | ok c =>
    cases x with
    | error e₁ => exact h.elim
    | ok a =>
      cases y with
      | error e₂ => exact h'.elim
      | ok b => exact ⟨c, rfl, h, h'⟩

theorem exists_right (h : Agree R x y) {a : α} (hx : x = .ok a) : ∃ b, y = .ok b ∧ R a b := by
  subst hx
  cases y with
  | error e => exact h.elim
  | ok b => exact ⟨b, rfl, h⟩

theorem exists_left (h : Agree R x y) {b : β} (hy : y = .ok b) : ∃ a, x = .ok a ∧ R a b := by
  subst hy
  cases x with
  | error e => exact h.elim
  | ok a => exact ⟨a, rfl, h⟩

end Agree

/-! ### Computations that succeed together -/

/-- Two computations fail, with whatever errors, or their results are related. -/
def Alike (R : α → β → Prop) : Except ε α → Except ε β → Prop
  | .ok a, .ok b => R a b
  | .error _, .error _ => True
  | _, _ => False

namespace Alike

variable {γ δ : Type} {R : α → β → Prop} {S : γ → δ → Prop} {x : Except ε α} {y : Except ε β}

theorem cases (h : Alike R x y) : (∃ e e', x = .error e ∧ y = .error e') ∨
    ∃ a b, x = .ok a ∧ y = .ok b ∧ R a b := by
  cases x with
  | error e =>
    cases y with
    | error e' => exact Or.inl ⟨e, e', rfl, rfl⟩
    | ok b => exact h.elim
  | ok a =>
    cases y with
    | error e' => exact h.elim
    | ok b => exact Or.inr ⟨a, b, rfl, rfl, h⟩

theorem mono {R' : α → β → Prop} (h : Alike R x y) (hR : ∀ a b, R a b → R' a b) :
    Alike R' x y := by
  obtain ⟨e, e', rfl, rfl⟩ | ⟨a, b, rfl, rfl, hab⟩ := h.cases
  · exact trivial
  · exact hR a b hab

theorem bind {f : α → Except ε γ} {g : β → Except ε δ} (h : Alike R x y)
    (hfg : ∀ a b, R a b → Alike S (f a) (g b)) : Alike S (x >>= f) (y >>= g) := by
  obtain ⟨e, e', rfl, rfl⟩ | ⟨a, b, rfl, rfl, hab⟩ := h.cases
  · exact trivial
  · exact hfg a b hab

end Alike

/-! ### Computations that are the same -/

/-- A computation fails with an error that meets a condition. -/
def FailsWith (P : ε → Prop) (x : Except ε α) : Prop := ∃ e, x = .error e ∧ P e

/-- The second computation is the first one, unless that fails with an error that meets a
condition. -/
def SameUnless (P : ε → Prop) (x y : Except ε α) : Prop := FailsWith P x ∨ y = x

namespace FailsWith

variable {P : ε → Prop} {x : Except ε α}

theorem error {e : ε} (h : P e) : FailsWith P (.error e : Except ε α) := ⟨e, rfl, h⟩

theorem not_ok (a : α) : ¬FailsWith P (.ok a : Except ε α) := by
  rintro ⟨e, h, -⟩
  exact absurd h (by rintro ⟨⟩)

theorem bind {f : α → Except ε β} (h : FailsWith P x) : FailsWith P (x >>= f) := by
  obtain ⟨e, rfl, he⟩ := h
  exact error he

theorem not_iff_failsOnly : ¬FailsWith P x ↔ FailsOnly (fun e => ¬P e) x :=
  ⟨fun h e hx he => h ⟨e, hx, he⟩, fun h ⟨e, hx, he⟩ => h e hx he⟩

end FailsWith

namespace SameUnless

variable {P : ε → Prop} {x y : Except ε α}

theorem refl (x : Except ε α) : SameUnless P x x := Or.inr rfl

theorem eq_of_not (h : SameUnless P x y) (hx : ¬FailsWith P x) : y = x := h.resolve_left hx

theorem bind {f g : α → Except ε β} (h : SameUnless P x y)
    (hfg : ∀ a, x = .ok a → SameUnless P (f a) (g a)) : SameUnless P (x >>= f) (y >>= g) := by
  rcases h with hfails | rfl
  · exact Or.inl hfails.bind
  · cases y with
    | error e => exact refl _
    | ok a => exact hfg a rfl

theorem map {f : α → β} (h : SameUnless P x y) :
    SameUnless P (x >>= fun a => pure (f a)) (y >>= fun a => pure (f a)) :=
  h.bind fun _ _ => refl _

theorem mapM {f g : α → Except ε β} {l : List α} (h : ∀ a ∈ l, SameUnless P (f a) (g a)) :
    SameUnless P (l.mapM f) (l.mapM g) := by
  induction l with
  | nil => exact refl _
  | cons a l ih =>
    obtain ⟨ha, hl⟩ := List.forall_mem_cons.mp h
    rw [List.mapM_cons, List.mapM_cons]
    exact ha.bind fun b _ => (ih hl).map

theorem foldlM {f g : σ → α → Except ε σ} {l : List α} {s : σ}
    (h : ∀ s, ∀ a ∈ l, SameUnless P (f s a) (g s a)) :
    SameUnless P (l.foldlM f s) (l.foldlM g s) := by
  induction l generalizing s with
  | nil => exact refl _
  | cons a l ih =>
    rw [List.foldlM_cons, List.foldlM_cons]
    exact (h s a List.mem_cons_self).bind fun t _ =>
      ih fun s b hb => h s b (List.mem_cons_of_mem a hb)

end SameUnless

/-- Where a loop fails in a way that another one with the same steps does not, it does so in a
step. -/
theorem exists_failsWith_of_foldlM {P : ε → Prop} {f g : σ → α → Except ε σ} {l : List α} {s : σ}
    (h : ∀ s, ∀ a ∈ l, SameUnless P (f s a) (g s a)) (hfails : FailsWith P (l.foldlM f s))
    (hnot : ¬FailsWith P (l.foldlM g s)) :
    ∃ s, ∃ a ∈ l, FailsWith P (f s a) ∧ ¬FailsWith P (g s a) := by
  induction l generalizing s with
  | nil => exact absurd hfails hnot
  | cons a l ih =>
    rw [List.foldlM_cons] at hfails hnot
    obtain hstep | hsame := h s a List.mem_cons_self
    · exact ⟨s, a, List.mem_cons_self, hstep, fun hg => hnot hg.bind⟩
    · rw [hsame] at hnot
      cases hfa : f s a with
      | error e =>
        rw [hfa] at hfails hnot
        exact absurd hfails hnot
      | ok t =>
        rw [hfa] at hfails hnot
        obtain ⟨s, b, hb, hstep⟩ :=
          ih (fun s b hb => h s b (List.mem_cons_of_mem a hb)) hfails hnot
        exact ⟨s, b, List.mem_cons_of_mem a hb, hstep⟩

end Outcome
end MaterialShader
