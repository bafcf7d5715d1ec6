import CoroutineCpp.Framework.ListCore
import CoroutineCpp.Model.StringUtils

/-!
# What the trims return

All three trims are read off one split of the string, into its core and the delimiters around it
(`Framework.Padded`).  `Trim` returns the core (`trim_of_padded`), `LeftTrim` the core with what
follows; `RightTrim` leaves out the last character of the core, as it passes the *index* of that
character as the length of the result.
-/

namespace CoroutineCpp

open Framework

namespace StringUtils

variable {α : Type*} [DecidableEq α] {str delim pre c suf : List α}

/-! ## The searches -/

lemma findFirstNotOf_eq_none (h : ∀ x ∈ str, x ∈ delim) : findFirstNotOf str delim = none := by
  induction str with
  | nil => rfl
  | cons x str ih =>
    obtain ⟨hx, hstr⟩ := List.forall_mem_cons.mp h
    simp [findFirstNotOf, hx, ih hstr]

lemma findLastNotOf_eq_none (h : ∀ x ∈ str, x ∈ delim) : findLastNotOf str delim = none := by
  induction str with
  | nil => rfl
  | cons x str ih =>
    obtain ⟨hx, hstr⟩ := List.forall_mem_cons.mp h
    simp [findLastNotOf, hx, ih hstr]

lemma findFirstNotOf_append {x : α} {rest : List α} (hpre : ∀ y ∈ pre, y ∈ delim) (hx : x ∉ delim) :
    findFirstNotOf (pre ++ x :: rest) delim = some pre.length := by
  induction pre with
  | nil => simp [findFirstNotOf, hx]
  | cons y pre ih =>
    obtain ⟨hy, hpre⟩ := List.forall_mem_cons.mp hpre
    simp [findFirstNotOf, hy, ih hpre]

lemma findLastNotOf_append {x : α} {front : List α} (hsuf : ∀ y ∈ suf, y ∈ delim)
    (hx : x ∉ delim) : findLastNotOf (front ++ x :: suf) delim = some front.length := by
  induction front with
  | nil => simp [findLastNotOf, findLastNotOf_eq_none hsuf, hx]
  | cons y front ih => simp [findLastNotOf, ih]

/-! ## The trims of a padded string -/

/-- Both searches end at the core. -/
lemma search_of_padded (h : Padded (· ∈ delim) str pre c suf) (hc : c ≠ []) :
    findFirstNotOf str delim = some pre.length ∧
      findLastNotOf str delim = some (pre.length + (c.length - 1)) := by
  constructor
  · obtain ⟨x, rest, rfl⟩ := List.exists_cons_of_ne_nil hc
    rw [h.split, List.append_assoc]
    exact findFirstNotOf_append h.pre (h.bare.1 x (by simp))
  · obtain ⟨front, x, rfl⟩ := (List.eq_nil_or_concat' c).resolve_left hc
    have hsplit : str = (pre ++ front) ++ x :: suf := by simp [h.split]
    rw [hsplit, findLastNotOf_append h.suf (h.bare.2 x (by simp))]
    simp

/-- **`Trim` returns the core.** -/
lemma trim_of_padded (h : Padded (· ∈ delim) str pre c suf) : trim str delim = c := by
  by_cases hc : c = []
  · have hall := h.core_eq_nil_iff.mp hc
    simp [trim, findFirstNotOf_eq_none hall, hc]
  · obtain ⟨hfirst, hlast⟩ := search_of_padded h hc
    have hlen : wrapSub (pre.length + (c.length - 1)) pre.length + 1 = c.length := by
      rw [wrapSub_of_le (by omega)]
      have := List.length_pos_iff.mpr hc
      omega
    simp only [trim, hfirst, hlast, Option.getD_some, hlen]
    simp [substr, h.split]

lemma leftTrim_of_padded (h : Padded (· ∈ delim) str pre c suf) :
    leftTrim str delim = if c = [] then [] else c ++ suf := by
  split
  next hc =>
    have hall := h.core_eq_nil_iff.mp hc
    simp [leftTrim, findFirstNotOf_eq_none hall]
  next hc =>
    simp only [leftTrim, (search_of_padded h hc).1]
    simp [h.split]

/-- `RightTrim` leaves out the last character of the core. -/
lemma rightTrim_of_padded (h : Padded (· ∈ delim) str pre c suf) :
    rightTrim str delim = if c = [] then [] else pre ++ c.dropLast := by
  split
  next hc =>
    have hall := h.core_eq_nil_iff.mp hc
    simp [rightTrim, findLastNotOf_eq_none hall]
  next hc =>
    have hlen : c.length - 1 - c.length = 0 := by omega
    have hpre : pre.take (pre.length + (c.length - 1)) = pre := List.take_of_length_le (by omega)
    simp only [rightTrim, (search_of_padded h hc).2]
    simp [h.split, substr, List.take_append, List.dropLast_eq_take, hlen, hpre]

/-! ## One trim after the other -/

/-- `LeftTrim`, then `RightTrim`. -/
lemma rightTrim_leftTrim (str delim : List α) :
    rightTrim (leftTrim str delim) delim = (trim str delim).dropLast := by
  obtain ⟨pre, c, suf, h⟩ := exists_padded (p := (· ∈ delim)) str
  rw [trim_of_padded h, leftTrim_of_padded h]
  split
  next hc => simp [hc, rightTrim, findLastNotOf]
  next hc =>
    have h' : Padded (· ∈ delim) (c ++ suf) [] c suf := ⟨rfl, by simp, h.suf, h.bare⟩
    rw [rightTrim_of_padded h', if_neg hc, List.nil_append]

/-- `RightTrim`, then `LeftTrim`. -/
lemma leftTrim_rightTrim (str delim : List α) :
    leftTrim (rightTrim str delim) delim = (trim str delim).dropLast := by
  obtain ⟨pre, c, suf, h⟩ := exists_padded (p := (· ∈ delim)) str
  rw [trim_of_padded h, rightTrim_of_padded h]
  split
  next hc => simp [hc, leftTrim, findFirstNotOf]
  next hc =>
    obtain ⟨x, rest, rfl⟩ := List.exists_cons_of_ne_nil hc
    cases hrest : rest with
    | nil => simp [leftTrim, findFirstNotOf_eq_none h.pre]
    | cons y rest' =>
      have hx : x ∉ delim := h.bare.1 x (by simp)
      rw [List.dropLast_cons_of_ne_nil (by simp)]
      simp only [leftTrim, findFirstNotOf_append h.pre hx]
      simp

/-- **When the one-sided trims compose to `Trim`.**  In either order they return what `Trim`
returns without its last character, so they agree with `Trim` exactly on the strings of
delimiters. -/
theorem trims_compose_iff (str delim : List α) :
    (rightTrim (leftTrim str delim) delim = leftTrim (rightTrim str delim) delim ∧
      leftTrim (rightTrim str delim) delim = (trim str delim).dropLast) ∧
    (rightTrim (leftTrim str delim) delim = leftTrim (rightTrim str delim) delim ∧
        leftTrim (rightTrim str delim) delim = trim str delim ↔ ∀ c ∈ str, c ∈ delim) := by
  obtain ⟨pre, c, suf, h⟩ := exists_padded (p := (· ∈ delim)) str
  rw [rightTrim_leftTrim, leftTrim_rightTrim]
  refine ⟨⟨rfl, rfl⟩, ?_⟩
  rw [eq_self_iff_true, true_and, trim_of_padded h, ← h.core_eq_nil_iff]
  constructor
  · intro heq
    have hlen := congrArg List.length heq
    rw [List.length_dropLast] at hlen
    exact List.length_eq_zero_iff.mp (by omega)
  · rintro rfl
    rfl

/-- Nothing to trim, and one character is lost. -/
theorem rightTrim_loses_last :
    rightTrim (leftTrim ['a'] [' ']) [' '] = [] ∧ trim ['a'] [' '] = ['a'] ∧
      ¬ (rightTrim (leftTrim ['a'] [' ']) [' '] = leftTrim (rightTrim ['a'] [' ']) [' '] ∧
        leftTrim (rightTrim ['a'] [' ']) [' '] = trim ['a'] [' ']) := by
  decide

/-! ## The core is what `Trim` returns -/

/-- **`Trim` returns the maximal core.**  Its result is what is left of the string between two
lists of delimiters, and it is the only part of the string with no delimiter at its ends for which
this is so; it is empty exactly for a string of delimiters; trimming once more changes nothing, and
so does padding the string with delimiters first. -/
theorem trim_maximal_core (str delim : List α) :
    (∃ p s, (∀ x ∈ p, x ∈ delim) ∧ (∀ x ∈ s, x ∈ delim) ∧ str = p ++ trim str delim ++ s ∧
      Bare (· ∈ delim) (trim str delim) ∧
      ∀ p' c s', (∀ x ∈ p', x ∈ delim) → (∀ x ∈ s', x ∈ delim) → str = p' ++ c ++ s' →
        Bare (· ∈ delim) c → c = trim str delim ∧ (c ≠ [] → p' = p ∧ s' = s)) ∧
    (trim str delim = [] ↔ ∀ x ∈ str, x ∈ delim) ∧
    trim (trim str delim) delim = trim str delim ∧
    ∀ d₁ d₂, (∀ x ∈ d₁, x ∈ delim) → (∀ x ∈ d₂, x ∈ delim) →
      trim (d₁ ++ str ++ d₂) delim = trim str delim := by
  obtain ⟨p, c, s, h⟩ := exists_padded (p := (· ∈ delim)) str
  rw [trim_of_padded h]
  refine ⟨⟨p, s, h.pre, h.suf, h.split, h.bare, fun p' c' s' hp' hs' hsplit hbare => ?_⟩,
    h.core_eq_nil_iff, trim_of_padded (.of_bare h.bare),
    fun d₁ d₂ h₁ h₂ => trim_of_padded (h.pad h₁ h₂)⟩
  have h' : Padded (· ∈ delim) str p' c' s' := ⟨hsplit, hp', hs', hbare⟩
  have hcore : c' = c := (trim_of_padded h').symm.trans (trim_of_padded h)
  subst hcore
  exact ⟨rfl, fun hc => ⟨h.pre_eq h' hc, h.suf_eq h' hc⟩⟩

example : trim [' ', 'a', ' ', 'b', ' '] [' '] = ['a', ' ', 'b'] := by decide

end StringUtils

end CoroutineCpp
