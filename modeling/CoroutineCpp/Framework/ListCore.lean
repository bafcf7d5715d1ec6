import Mathlib.Data.List.Induction
import Mathlib.Data.List.TakeWhile

/-!
# The core of a list

Cut off a list what satisfies `p` at either end, and its core is left.  `Padded p l pre c suf` is
the split of `l` into the core `c` and what is cut off; each list has one (`exists_padded`), and
only one unless the core is empty (`Padded.pre_eq`, `Padded.suf_eq`).
-/

namespace Framework

variable {α : Type*} {p : α → Prop} {l pre c suf pre' c' suf' : List α}

/-- Neither the first nor the last element of `c` satisfies `p`. -/
def Bare (p : α → Prop) (c : List α) : Prop := (∀ x ∈ c.head?, ¬ p x) ∧ ∀ x ∈ c.getLast?, ¬ p x

lemma bare_nil : Bare p [] := by simp [Bare]

/-- The list is its core `c` between two lists of elements that satisfy `p`. -/
structure Padded (p : α → Prop) (l pre c suf : List α) : Prop where
  split : l = pre ++ c ++ suf
  pre : ∀ x ∈ pre, p x
  suf : ∀ x ∈ suf, p x
  bare : Bare p c

/-- **Every list has a core.** -/
lemma exists_padded [DecidablePred p] (l : List α) : ∃ pre c suf, Padded p l pre c suf := by
  by_cases hall : ∀ x ∈ l, p x
  · exact ⟨l, [], [], by simp, hall, by simp, bare_nil⟩
  -- the first element and the last element that do not satisfy `p`
  obtain ⟨pre, x, rest, rfl, hpre, hx⟩ : ∃ pre x rest, l = pre ++ x :: rest ∧
      (∀ y ∈ pre, p y) ∧ ¬ p x := by
    induction l with
    | nil => simp at hall
    | cons y l ih =>
      by_cases hy : p y
      · obtain ⟨pre, x, rest, rfl, hpre, hx⟩ := ih fun h => hall (List.forall_mem_cons.mpr ⟨hy, h⟩)
        exact ⟨y :: pre, x, rest, rfl, List.forall_mem_cons.mpr ⟨hy, hpre⟩, hx⟩
      · exact ⟨[], y, l, rfl, by simp, hy⟩
  obtain ⟨c, suf, hc, hsuf, hlast⟩ : ∃ c suf, x :: rest = x :: c ++ suf ∧ (∀ y ∈ suf, p y) ∧
      ∀ y ∈ (x :: c).getLast?, ¬ p y := by
    clear hall
    induction rest using List.reverseRecOn with
    | nil => exact ⟨[], [], rfl, by simp, by simpa using hx⟩
    | append_singleton rest y ih =>
      by_cases hy : p y
      · obtain ⟨c, suf, hc, hsuf, hlast⟩ := ih
        refine ⟨c, suf ++ [y], ?_, ?_, hlast⟩
        · rw [← List.append_assoc, ← hc, List.cons_append]
        · simpa [or_imp, forall_and] using And.intro hsuf hy
      · refine ⟨rest ++ [y], [], by simp, by simp, ?_⟩
        rw [← List.cons_append, List.getLast?_concat]
        simpa using hy
  exact ⟨pre, x :: c, suf, by rw [List.append_assoc, ← hc], hpre, hsuf, by simpa using hx, hlast⟩

namespace Padded

/-- What is bare is its own core. -/
lemma of_bare (h : Bare p c) : Padded p c [] c [] := ⟨by simp, by simp, by simp, h⟩

/-- More padding. -/
lemma pad (h : Padded p l pre c suf) {d₁ d₂ : List α} (h₁ : ∀ x ∈ d₁, p x) (h₂ : ∀ x ∈ d₂, p x) :
    Padded p (d₁ ++ l ++ d₂) (d₁ ++ pre) c (suf ++ d₂) where
  split := by simp [h.split]
  pre x hx := (List.mem_append.mp hx).elim (h₁ x) (h.pre x)
  suf x hx := (List.mem_append.mp hx).elim (h.suf x) (h₂ x)
  bare := h.bare

lemma core_eq_nil_iff (h : Padded p l pre c suf) : c = [] ↔ ∀ x ∈ l, p x := by
  rw [h.split]
  constructor
  · rintro rfl x hx
    simp only [List.append_nil, List.mem_append] at hx
    exact hx.elim (h.pre x) (h.suf x)
  · intro hall
    cases c with
    | nil => rfl
    | cons x c => exact absurd (hall x (by simp)) (h.bare.1 x (by simp))

/-- The padding before a core that is not empty. -/
lemma takeWhile_eq [DecidablePred p] (h : Padded p l pre c suf) (hc : c ≠ []) :
    l.takeWhile (p ·) = pre := by
  obtain ⟨x, c, rfl⟩ := List.exists_cons_of_ne_nil hc
  have hx : ¬ p x := h.bare.1 x (by simp)
  rw [h.split, List.append_assoc, List.takeWhile_append_of_pos (by simpa using h.pre)]
  simp [hx]

lemma pre_eq [DecidablePred p] (h : Padded p l pre c suf) (h' : Padded p l pre' c suf')
    (hc : c ≠ []) : pre' = pre :=
  (h'.takeWhile_eq hc).symm.trans (h.takeWhile_eq hc)

lemma suf_eq [DecidablePred p] (h : Padded p l pre c suf) (h' : Padded p l pre' c suf')
    (hc : c ≠ []) : suf' = suf := by
  have heq := h'.split.symm.trans h.split
  rw [h.pre_eq h' hc] at heq
  exact List.append_cancel_left heq

end Padded

end Framework
