import Mathlib.Algebra.BigOperators.Group.Finset.Piecewise
import Mathlib.Algebra.Order.BigOperators.Group.Finset
import Mathlib.Algebra.Order.Group.Multiset
import Mathlib.Data.List.Perm.Basic
import Mathlib.Tactic.Abel

/-!
# Accounting over a table of containers

A table holds one container per index, and a conservation law speaks of the total over a finite
set of indices.  One operation changes one or two containers, so a law needs little:

* `sum_agree_off` — tables that agree off one index, stated without subtraction;
* `total_append`, `total_remove` — the case of lists, where an operation appends to one of them
  or takes one token out; `total_update_append`, `total_update_remove` and `total_update_of_eq`
  when the lists are read off the records of a table.

Where the records stand in a list, an operation replaces one of them or takes it out
(`perm_cons_eraseIdx`, `countP_set`, `countP_eraseIdx`).

When the total has no duplicates, a token sits in one container and once in it
(`eq_of_mem_of_sum_le`, `count_le_one_of_sum_le`).
-/

namespace Framework

open Finset

variable {ι M τ : Type*}

/-! ## Changing one record -/

/-- Two tables that agree off `i` differ in their totals by what they hold at `i`. -/
lemma sum_agree_off [DecidableEq ι] [AddCommMonoid M] {s : Finset ι} {i : ι} (hi : i ∈ s)
    {f g : ι → M} (h : ∀ j, j ≠ i → g j = f j) :
    (∑ j ∈ s, g j) + f i = (∑ j ∈ s, f j) + g i := by
  have hrest : ∑ j ∈ s.erase i, g j = ∑ j ∈ s.erase i, f j :=
    sum_congr rfl fun j hj => h j (ne_of_mem_erase hj)
  rw [← add_sum_erase s g hi, ← add_sum_erase s f hi, hrest]
  abel

/-! ## Tables of lists -/

/-- The tokens in the first `n` lists of a table. -/
def total (n : ℕ) (f : ℕ → List τ) : Multiset τ := ∑ i ∈ range n, (f i : Multiset τ)

lemma mem_total {n : ℕ} {f : ℕ → List τ} {a : τ} : a ∈ total n f ↔ ∃ i < n, a ∈ f i := by
  simp [total, Multiset.mem_sum]

/-- Each list is part of the total. -/
lemma le_total {n i : ℕ} (hi : i < n) (f : ℕ → List τ) : (f i : Multiset τ) ≤ total n f :=
  single_le_sum (f := fun j => (f j : Multiset τ)) (fun _ _ => Multiset.zero_le _)
    (mem_range.mpr hi)

lemma total_congr {n : ℕ} {f g : ℕ → List τ} (h : ∀ i, g i = f i) : total n g = total n f := by
  simp only [total, h]

/-- Appending to one list adds those tokens to the total. -/
lemma total_append {n i : ℕ} (hi : i < n) {f g : ℕ → List τ} {l : List τ}
    (h : ∀ j, j ≠ i → g j = f j) (hgi : g i = f i ++ l) :
    total n g = total n f + (l : Multiset τ) := by
  have hsum := sum_agree_off (mem_range.mpr hi) (f := fun j => (f j : Multiset τ))
    (g := fun j => (g j : Multiset τ)) fun j hj => congrArg _ (h j hj)
  simp only [hgi] at hsum
  rw [← Multiset.coe_add, add_comm (f i : Multiset τ) l, ← add_assoc] at hsum
  exact add_right_cancel hsum

/-- Taking one token out of one list removes it from the total. -/
lemma total_remove {n i : ℕ} (hi : i < n) {f g : ℕ → List τ} {a : τ}
    (h : ∀ j, j ≠ i → g j = f j) (hfi : (f i).Perm (a :: g i)) :
    total n f = a ::ₘ total n g := by
  have hsum := sum_agree_off (mem_range.mpr hi) (f := fun j => (f j : Multiset τ))
    (g := fun j => (g j : Multiset τ)) fun j hj => congrArg _ (h j hj)
  simp only [Multiset.coe_eq_coe.mpr hfi] at hsum
  rw [← Multiset.cons_coe, Multiset.add_cons, ← Multiset.cons_add] at hsum
  exact (add_right_cancel hsum).symm

/-! ### Updating one record of a table

`F` reads a list off a record. -/

section Update

variable {α : Type*} {n i : ℕ} {t : ℕ → α} {x : α} (F : α → List τ)

lemma total_update_append (hi : i < n) {l : List τ} (h : F x = F (t i) ++ l) :
    total n (fun j => F (Function.update t i x j)) =
      total n (fun j => F (t j)) + (l : Multiset τ) :=
  total_append hi (fun j hj => by simp [hj]) (by simpa using h)

lemma total_update_remove (hi : i < n) {a : τ} (h : (F (t i)).Perm (a :: F x)) :
    total n (fun j => F (t j)) = a ::ₘ total n (fun j => F (Function.update t i x j)) :=
  total_remove hi (fun j hj => by simp [hj]) (by simpa using h)

/-- The frame rule: an update that keeps the list keeps the total. -/
lemma total_update_of_eq (h : F x = F (t i)) :
    total n (fun j => F (Function.update t i x j)) = total n (fun j => F (t j)) := by
  refine total_congr fun j => ?_
  by_cases hj : j = i
  · subst hj; simpa using h
  · simp [hj]

end Update

/-! ## One record of a list -/

section Entry

variable {l : List τ} {i : ℕ} {a : τ}

/-- The record at an index, and the others. -/
lemma perm_cons_eraseIdx (h : l[i]? = some a) : l.Perm (a :: l.eraseIdx i) := by
  obtain ⟨hi, hget⟩ := List.getElem?_eq_some_iff.mp h
  exact hget ▸ (List.getElem_cons_eraseIdx_perm hi).symm

lemma countP_eraseIdx (p : τ → Bool) (h : l[i]? = some a) :
    (l.eraseIdx i).countP p + (if p a then 1 else 0) = l.countP p := by
  rw [(perm_cons_eraseIdx h).countP_eq, List.countP_cons]

lemma countP_set (p : τ → Bool) (h : l[i]? = some a) (b : τ) :
    (l.set i b).countP p + (if p a then 1 else 0) = l.countP p + (if p b then 1 else 0) := by
  obtain ⟨hi, -⟩ := List.getElem?_eq_some_iff.mp h
  rw [(List.set_perm_cons_eraseIdx hi b).countP_eq, List.countP_cons, ← countP_eraseIdx p h]
  omega

end Entry

/-! ## Totals without duplicates -/

variable [DecidableEq τ] {s : Finset ι} {f : ι → Multiset τ} {a : τ}

lemma count_le_sum {i : ι} (hi : i ∈ s) : (f i).count a ≤ (∑ j ∈ s, f j).count a := by
  rw [Multiset.count_sum']
  exact single_le_sum (f := fun j => (f j).count a) (fun _ _ => Nat.zero_le _) hi

lemma count_add_count_le_sum {i j : ι} (hi : i ∈ s) (hj : j ∈ s) (hij : i ≠ j) :
    (f i).count a + (f j).count a ≤ (∑ k ∈ s, f k).count a := by
  rw [Multiset.count_sum']
  exact add_le_sum (f := fun k => (f k).count a) (fun _ _ => Nat.zero_le _) hi hj hij

/-- A token counted at most once overall sits in at most one record. -/
lemma eq_of_mem_of_sum_le {i j : ι} (h : (∑ k ∈ s, f k).count a ≤ 1) (hi : i ∈ s) (hj : j ∈ s)
    (hai : a ∈ f i) (haj : a ∈ f j) : i = j := by
  by_contra hij
  have hle := count_add_count_le_sum (f := f) (a := a) hi hj hij
  have hposi : 0 < (f i).count a := Multiset.count_pos.mpr hai
  have hposj : 0 < (f j).count a := Multiset.count_pos.mpr haj
  omega

lemma count_le_one_of_sum_le {i : ι} (h : (∑ k ∈ s, f k).count a ≤ 1) (hi : i ∈ s) :
    (f i).count a ≤ 1 :=
  (count_le_sum hi).trans h

end Framework
