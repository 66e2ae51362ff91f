import Mathlib.Algebra.BigOperators.Group.List.Basic
import Mathlib.Data.List.Lex
import Mathlib.Data.Set.Function
import Mathlib.Order.Interval.Set.Defs
import MaterialShader.Keyword.Permutation

/-!
# Permutations as numbers

The number of a permutation is read in mixed radix, its last digit first.  Seen from the
most significant digit, the value of a keyword is the number divided by the number of
combinations that the later keywords have.

## Main definitions

* `combinations` — how many ways there are to give each of some keywords a value.
* `valuesAt`, `indexOf` — the values behind a number, and the number of some values.
* `Keywords.tuple` — the values of the permuting keywords in a permutation.
* `Keywords.choices` — the ways to give each permuting keyword a value.

## Main results

* `Keywords.permutationCount_eq` — there are as many permutations as combinations, as far as
  they can be counted.
* `Keywords.bijOn_tuple`, `Keywords.strictMonoOn_tuple` — the numbers below the number of
  combinations stand for the choices, in lexicographic order.
-/

namespace MaterialShader

/-! ### Combinations -/

/-- How many ways there are to give each keyword a value. -/
def combinations (l : List Keyword) : Nat := (l.map Keyword.valueCount).prod

@[simp] theorem combinations_nil : combinations [] = 1 := rfl

@[simp] theorem combinations_cons (k : Keyword) (l : List Keyword) :
    combinations (k :: l) = k.valueCount * combinations l := List.prod_cons

theorem combinations_reverse (l : List Keyword) : combinations l.reverse = combinations l := by
  rw [combinations, List.map_reverse, List.prod_reverse]
  rfl

theorem combinations_pos (l : List Keyword) : 0 < combinations l := by
  induction l with
  | nil => decide
  | cons k l ih =>
    rw [combinations_cons]
    exact Nat.mul_pos k.valueCount_pos ih

/-- A count that has been cut off stays cut off. -/
theorem mulCount_min (a : Nat) {b : Nat} (hb : 0 < b) :
    Keywords.mulCount (min a Keywords.maxCount) b = min (a * b) Keywords.maxCount := by
  unfold Keywords.mulCount
  rcases Nat.le_total a Keywords.maxCount with h | h
  · rw [Nat.min_eq_left h]
  · have hself : Keywords.maxCount ≤ Keywords.maxCount * b := Nat.le_mul_of_pos_right _ hb
    have hmul : Keywords.maxCount * b ≤ a * b := Nat.mul_le_mul_right _ h
    rw [Nat.min_eq_right h, Nat.min_eq_right hself, Nat.min_eq_right (hself.trans hmul)]

theorem foldl_mulCount (l : List Keyword) (a : Nat) :
    l.foldl (fun count k => Keywords.mulCount count k.valueCount) (min a Keywords.maxCount) =
      min (a * combinations l) Keywords.maxCount := by
  induction l generalizing a with
  | nil => simp
  | cons k l ih => rw [List.foldl_cons, mulCount_min a k.valueCount_pos, ih, combinations_cons,
      Nat.mul_assoc]

/-- There are as many permutations as combinations, unless there are more than can be
counted. -/
theorem Keywords.permutationCount_eq (ks : Keywords) :
    ks.permutationCount = min (combinations ks.permuting) maxCount := by
  have := foldl_mulCount ks.permuting 1
  rwa [Nat.min_eq_left (by decide), Nat.one_mul] at this

/-! ### Values and numbers -/

/-- The values that a number gives to keywords, the first one most significant. -/
def valuesAt : List Keyword → Nat → List Nat
  | [], _ => []
  | k :: l, i => i / combinations l % k.valueCount :: valuesAt l i

/-- The number that gives keywords some values. -/
def indexOf : List Keyword → List Nat → Nat
  | _ :: l, v :: vs => v * combinations l + indexOf l vs
  | _, _ => 0

/-- Each keyword has one of its values. -/
def AreValues (vs : List Nat) (l : List Keyword) : Prop :=
  List.Forall₂ (fun v k => v < k.valueCount) vs l

theorem AreValues.lt_of_mem_zip {vs : List Nat} {l : List Keyword} {k : Keyword} {v : Nat}
    (h : AreValues vs l) (hmem : (k, v) ∈ l.zip vs) : v < k.valueCount :=
  (List.forall₂_iff_zip.mp (List.Forall₂.flip h)).2 hmem

theorem areValues_valuesAt (l : List Keyword) (i : Nat) : AreValues (valuesAt l i) l := by
  induction l with
  | nil => exact .nil
  | cons k l ih => exact .cons (Nat.mod_lt _ k.valueCount_pos) ih

@[simp] theorem length_valuesAt (l : List Keyword) (i : Nat) : (valuesAt l i).length = l.length :=
  (areValues_valuesAt l i).length_eq

/-- Every keyword stands beside a value. -/
theorem map_fst_zip_valuesAt (l : List Keyword) (i : Nat) :
    (l.zip (valuesAt l i)).map Prod.fst = l := List.map_fst_zip (by simp)

theorem map_snd_zip_valuesAt (l : List Keyword) (i : Nat) :
    (l.zip (valuesAt l i)).map Prod.snd = valuesAt l i := List.map_snd_zip (by simp)

theorem exists_mem_zip_valuesAt {l : List Keyword} {k : Keyword} (hk : k ∈ l) (i : Nat) :
    ∃ v, (k, v) ∈ l.zip (valuesAt l i) := by
  rw [← map_fst_zip_valuesAt l i] at hk
  obtain ⟨⟨k', v⟩, hmem, rfl⟩ := List.mem_map.mp hk
  exact ⟨v, hmem⟩

/-- The values of the later keywords do not depend on the digits in front of theirs. -/
theorem valuesAt_mul_add (l : List Keyword) (a i : Nat) :
    valuesAt l (a * combinations l + i) = valuesAt l i := by
  induction l generalizing a with
  | nil => rfl
  | cons k l ih =>
    have hshift : a * combinations (k :: l) = a * k.valueCount * combinations l := by
      rw [combinations_cons, Nat.mul_assoc]
    rw [hshift, valuesAt, valuesAt, ih, Nat.mul_comm (a * k.valueCount),
      Nat.mul_add_div (combinations_pos l), Nat.mul_comm a, Nat.mul_add_mod]

theorem valuesAt_mod (l : List Keyword) (i : Nat) :
    valuesAt l (i % combinations l) = valuesAt l i := by
  conv_rhs => rw [← Nat.div_add_mod' i (combinations l)]
  rw [valuesAt_mul_add]

theorem indexOf_lt {vs : List Nat} {l : List Keyword} (h : AreValues vs l) :
    indexOf l vs < combinations l := by
  induction h with
  | nil => decide
  | @cons v k vs l hv _ ih =>
    have hle : (v + 1) * combinations l ≤ k.valueCount * combinations l :=
      Nat.mul_le_mul_right _ hv
    rw [Nat.add_mul, Nat.one_mul] at hle
    rw [indexOf, combinations_cons]
    omega

theorem valuesAt_indexOf {vs : List Nat} {l : List Keyword} (h : AreValues vs l) :
    valuesAt l (indexOf l vs) = vs := by
  induction h with
  | nil => rfl
  | @cons v k vs l hv hvs ih =>
    -- the number of the later values is too small to reach the first digit
    rw [indexOf, valuesAt, valuesAt_mul_add, ih, Nat.mul_comm, Nat.mul_add_div (combinations_pos l),
      Nat.div_eq_of_lt (indexOf_lt hvs), Nat.add_zero, Nat.mod_eq_of_lt hv]

/-- The values are in lexicographic order. -/
theorem valuesAt_lt_valuesAt {l : List Keyword} {i j : Nat} (hij : i < j)
    (hj : j < combinations l) : valuesAt l i < valuesAt l j := by
  induction l generalizing i j with
  | nil =>
    rw [combinations_nil] at hj
    omega
  | cons k l ih =>
    have hpos := combinations_pos l
    rw [combinations_cons] at hj
    have hjdiv : j / combinations l < k.valueCount := (Nat.div_lt_iff_lt_mul hpos).mpr hj
    have hdiv : i / combinations l ≤ j / combinations l := Nat.div_le_div_right hij.le
    rw [valuesAt, valuesAt, Nat.mod_eq_of_lt hjdiv, Nat.mod_eq_of_lt (hdiv.trans_lt hjdiv)]
    rcases hdiv.lt_or_eq with hlt | heq
    · exact List.Lex.rel hlt
    · -- the digits agree, so the rests are in the same order as the numbers
      have hmod : i % combinations l < j % combinations l := by
        have hi := Nat.div_add_mod i (combinations l)
        have hj := Nat.div_add_mod j (combinations l)
        rw [heq] at hi
        omega
      have hrest := ih hmod (Nat.mod_lt j hpos)
      rw [valuesAt_mod, valuesAt_mod] at hrest
      rw [heq]
      exact List.Lex.cons hrest

namespace Keywords

/-! ### The values of a permutation -/

theorem digits_append (l₁ l₂ : List Keyword) (i : Nat) :
    digits (l₁ ++ l₂) i = digits l₁ i ++ digits l₂ (i / combinations l₁) := by
  induction l₁ generalizing i with
  | nil => simp
  | cons k l₁ ih =>
    rw [List.cons_append, digits_cons, digits_cons, ih, combinations_cons, Nat.div_div_eq_div_mul,
      List.cons_append]

theorem reverse_digits_reverse (l : List Keyword) (i : Nat) :
    (digits l.reverse i).reverse = l.zip (valuesAt l i) := by
  induction l with
  | nil => rfl
  | cons k l ih =>
    rw [List.reverse_cons, digits_append, List.reverse_append, ih, combinations_reverse]
    rfl

theorem valuesIn_eq_zip (ks : Keywords) (i : Nat) :
    ks.valuesIn i = ks.permuting.zip (valuesAt ks.permuting i) :=
  reverse_digits_reverse ks.permuting i

/-- The value beside a name that no other keyword has. -/
theorem find?_zip_of_nodup {l : List Keyword} {vs : List Nat} {k : Keyword} {v : Nat}
    (hnodup : (l.map Keyword.referenceName).Nodup) (h : (k, v) ∈ l.zip vs) :
    ((l.zip vs).find? fun p => p.1.referenceName == k.referenceName) = some (k, v) := by
  induction l generalizing vs with
  | nil => simp at h
  | cons k' l ih =>
    cases vs with
    | nil => simp at h
    | cons v' vs =>
      obtain ⟨hnotMem, hnodup⟩ := List.nodup_cons.mp hnodup
      rw [List.zip_cons_cons] at h ⊢
      rcases List.mem_cons.mp h with heq | hmem
      · rw [← heq, List.find?_cons_of_pos (by simp)]
      · have hne : k'.referenceName ≠ k.referenceName := fun heq =>
          hnotMem (heq ▸ List.mem_map_of_mem (List.of_mem_zip hmem).1)
        rw [List.find?_cons_of_neg (by simpa using hne), ih hnodup hmem]

variable {ks : Keywords}

theorem valueIn?_of_mem_zip (hnodup : (ks.permuting.map Keyword.referenceName).Nodup) {i : Nat}
    {k : Keyword} {v : Nat} (h : (k, v) ∈ ks.permuting.zip (valuesAt ks.permuting i)) :
    ks.valueIn? i k.referenceName = some v := by
  rw [valueIn?, valuesIn_eq_zip, find?_zip_of_nodup hnodup h]
  rfl

/-- The values of the permuting keywords in a permutation, in order of declaration. -/
def tuple (ks : Keywords) (i : Nat) : List Nat :=
  ks.permuting.filterMap fun k => ks.valueIn? i k.referenceName

/-- The ways to give each permuting keyword one of its values. -/
def choices (ks : Keywords) : Set (List Nat) := {vs | AreValues vs ks.permuting}

/-- No permuting keyword is without a value. -/
theorem map_valueIn? (hnodup : (ks.permuting.map Keyword.referenceName).Nodup) (i : Nat) :
    ks.permuting.map (fun k => ks.valueIn? i k.referenceName) =
      (valuesAt ks.permuting i).map some := by
  -- both sides are taken from the pairs of a keyword and its value
  conv_lhs => rw [← map_fst_zip_valuesAt ks.permuting i]
  conv_rhs => rw [← map_snd_zip_valuesAt ks.permuting i]
  rw [List.map_map, List.map_map]
  exact List.map_congr_left fun p hp => valueIn?_of_mem_zip hnodup hp

theorem tuple_eq_valuesAt (hnodup : (ks.permuting.map Keyword.referenceName).Nodup) (i : Nat) :
    ks.tuple i = valuesAt ks.permuting i := by
  have hmap : ks.tuple i =
      (ks.permuting.map fun k => ks.valueIn? i k.referenceName).filterMap id := by
    rw [List.filterMap_map]
    rfl
  rw [hmap, map_valueIn? hnodup, List.filterMap_map]
  exact List.filterMap_some

/-- **The permutations in order**: greater numbers have greater values. -/
theorem strictMonoOn_tuple (hnodup : (ks.permuting.map Keyword.referenceName).Nodup) :
    StrictMonoOn ks.tuple (Set.Iio (combinations ks.permuting)) := by
  intro i _ j hj hij
  rw [tuple_eq_valuesAt hnodup, tuple_eq_valuesAt hnodup]
  exact valuesAt_lt_valuesAt hij hj

/-- **Each choice is one permutation.** -/
theorem bijOn_tuple (hnodup : (ks.permuting.map Keyword.referenceName).Nodup) :
    Set.BijOn ks.tuple (Set.Iio (combinations ks.permuting)) ks.choices := by
  refine ⟨?_, (strictMonoOn_tuple hnodup).injOn, ?_⟩
  · intro i _
    rw [tuple_eq_valuesAt hnodup]
    exact areValues_valuesAt ks.permuting i
  · intro vs hvs
    refine ⟨indexOf ks.permuting vs, indexOf_lt hvs, ?_⟩
    rw [tuple_eq_valuesAt hnodup, valuesAt_indexOf hvs]

end Keywords
end MaterialShader
