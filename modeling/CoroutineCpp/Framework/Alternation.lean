import CoroutineCpp.Framework.TransitionSystem
import Mathlib.Data.List.Infix
import Mathlib.Data.List.Perm.Basic
import Mathlib.Logic.Function.Basic

/-!
# Two queues served in turns

A server takes from the front of two queues.  It changes over to the other queue whenever that one
has something, and remembers which one it took from last.  Between two picks anything may arrive at
the back of either queue, anything may be removed from the back, and the memory may be set anew.

* `fifo` — what is picked from a queue, and after it what is still there, comes in the order of
  arrival, and what is missing was removed.
* `lead_le` — as long as a queue is not empty, the other one gets at most one pick more.
* `picked_within` — hence an element behind `k` others is among the next `2 * k + 2` picks, unless
  it is removed.

Nothing here mentions a program.
-/

namespace Framework

open TransitionSystem

universe u

/-- The two queues, by a truth value, and the queue of the last pick. -/
structure Server (τ : Type u) where
  queue : Bool → List τ
  last : Bool
  /-- history: the picks, each with its queue -/
  picks : List (Bool × τ) := []
  /-- history: what has arrived at the back of each queue -/
  arrived : Bool → List τ := fun _ => []
  /-- history: what has been removed from the back of each queue -/
  removed : Bool → List τ := fun _ => []

/-- The labels of the steps. -/
inductive Turn (τ : Type u)
  | arrive (b : Bool) (xs : List τ)
  /-- only the first `n` stay -/
  | cut (b : Bool) (n : ℕ)
  | pick
  | restart (last : Bool)

namespace Server

variable {τ : Type u}

/-! ## The steps -/

/-- What was picked from queue `b`. -/
def takenFrom (b : Bool) (picks : List (Bool × τ)) : List τ :=
  (picks.filter fun p => p.1 = b).map Prod.snd

@[simp] lemma takenFrom_nil (b : Bool) : takenFrom b ([] : List (Bool × τ)) = [] := rfl

@[simp] lemma takenFrom_append (b : Bool) (ps qs : List (Bool × τ)) :
    takenFrom b (ps ++ qs) = takenFrom b ps ++ takenFrom b qs := by
  simp [takenFrom]

@[simp] lemma takenFrom_singleton_self (b : Bool) (x : τ) : takenFrom b [(b, x)] = [x] := by
  simp [takenFrom]

lemma takenFrom_singleton_of_ne {b b' : Bool} (h : b' ≠ b) (x : τ) :
    takenFrom b [(b', x)] = [] := by
  simp [takenFrom, h]

lemma takenFrom_sublist (b : Bool) (ps : List (Bool × τ)) :
    (takenFrom b ps).Sublist (ps.map Prod.snd) :=
  List.filter_sublist.map Prod.snd

/-- Every pick is from one of the two queues. -/
lemma length_takenFrom_add (b : Bool) (ps : List (Bool × τ)) :
    (takenFrom b ps).length + (takenFrom (!b) ps).length = ps.length := by
  induction ps with
  | nil => rfl
  | cons p ps ih =>
    have hcons : ∀ b, takenFrom b (p :: ps) = takenFrom b [p] ++ takenFrom b ps :=
      fun b => takenFrom_append b [p] ps
    have hone : (takenFrom b [p]).length + (takenFrom (!b) [p]).length = 1 := by
      obtain ⟨b', x⟩ := p
      cases b <;> cases b' <;> simp [takenFrom]
    rw [hcons b, hcons (!b), List.length_append, List.length_append, List.length_cons]
    omega

/-- The queue to pick from: the other one, if it has something. -/
def choose (s : Server τ) : Option Bool :=
  if s.queue (!s.last) ≠ [] then some (!s.last)
  else if s.queue s.last ≠ [] then some s.last
  else none

/-- The step with the given label, `none` where it is not enabled. -/
def step (s : Server τ) : Turn τ → Option (Server τ)
  | .arrive b xs =>
    some { s with
      queue := Function.update s.queue b (s.queue b ++ xs)
      arrived := Function.update s.arrived b (s.arrived b ++ xs) }
  | .cut b n =>
    some { s with
      queue := Function.update s.queue b ((s.queue b).take n)
      removed := Function.update s.removed b (s.removed b ++ (s.queue b).drop n) }
  | .pick =>
    s.choose.bind fun b => (s.queue b).head?.map fun x =>
      { s with
        queue := Function.update s.queue b (s.queue b).tail
        last := b
        picks := s.picks ++ [(b, x)] }
  | .restart last => some { s with last := last }

/-- A pick takes the front of a queue, of the one picked from last only if the other is empty. -/
lemma step_pick_cases {s s' : Server τ} (h : s.step .pick = some s') :
    ∃ b x rest, s.queue b = x :: rest ∧ (b = s.last → s.queue (!b) = []) ∧
      s' = { s with
        queue := Function.update s.queue b rest, last := b, picks := s.picks ++ [(b, x)] } := by
  obtain ⟨b, hb, h⟩ := Option.bind_eq_some_iff.mp h
  obtain ⟨x, hx, rfl⟩ := Option.map_eq_some_iff.mp h
  obtain ⟨rest, hq⟩ := List.head?_eq_some_iff.mp hx
  refine ⟨b, x, rest, hq, ?_, by rw [hq, List.tail_cons]⟩
  rintro rfl
  unfold choose at hb
  by_contra hne
  rw [if_pos hne] at hb
  simp at hb

end Server

/-- Any contents of the two queues, and any queue that was picked from last. -/
def alternation {τ : Type u} (queue : Bool → List τ) (last : Bool) :
    TransitionSystem (Server τ) (Turn τ) where
  init s := s = { queue := queue, last := last }
  step := Server.step

/-- The memory is not set anew. -/
def Turn.isRestart {τ : Type u} : Turn τ → Bool
  | .restart _ => true
  | _ => false

namespace Server

variable {τ : Type u} {queue : Bool → List τ} {last b : Bool} {s s' : Server τ} {a : Turn τ}
  {G : Server τ → Turn τ → Prop}

/-! ## First in, first out -/

/-- What has been picked from queue `b`, and after it what is in it. -/
def line (b : Bool) (s : Server τ) : List τ := takenFrom b s.picks ++ s.queue b

/-- A pick leaves the line as it is; otherwise it grows at its end or is cut there. -/
lemma step_line (h : s.step a = some s') (b : Bool) :
    (∃ xs, s'.line b = s.line b ++ xs ∧ s'.arrived b = s.arrived b ++ xs ∧
      s'.removed b = s.removed b) ∨
    (∃ m, s'.line b = (s.line b).take m ∧ s'.arrived b = s.arrived b ∧
      s'.removed b = s.removed b ++ (s.line b).drop m) := by
  cases a with
  | arrive b' xs =>
    obtain rfl := Option.some.inj h
    by_cases hb : b = b'
    · subst hb
      exact .inl ⟨xs, by simp [line], by simp, rfl⟩
    · exact .inl ⟨[], by simp [line, hb], by simp [hb], rfl⟩
  | cut b' n =>
    obtain rfl := Option.some.inj h
    by_cases hb : b = b'
    · subst hb
      refine .inr ⟨(takenFrom b s.picks).length + n, ?_, rfl, ?_⟩
      · simp [line, List.take_length_add_append]
      · simp [line, List.drop_append]
    · exact .inl ⟨[], by simp [line, hb], by simp, by simp [hb]⟩
  | pick =>
    obtain ⟨b', x, rest, hq, -, rfl⟩ := step_pick_cases h
    refine .inl ⟨[], ?_, by simp, rfl⟩
    by_cases hb : b' = b
    · subst hb
      simp [line, hq]
    · have hne : b ≠ b' := fun h => hb h.symm
      simp [line, hne, takenFrom_singleton_of_ne hb]
  | restart last' =>
    obtain rfl := Option.some.inj h
    exact .inl ⟨[], by simp [line], by simp, rfl⟩

/-- The line of queue `b` is in the order of arrival, the rest was removed, and of what was in the
queue at first the end only. -/
structure InOrder (queue : Bool → List τ) (b : Bool) (s : Server τ) : Prop where
  sublist : (s.line b).Sublist (queue b ++ s.arrived b)
  perm : (s.line b ++ s.removed b).Perm (queue b ++ s.arrived b)
  kept : ∃ kept lost, queue b = kept ++ lost ∧ kept <+: s.line b ∧ lost ⊆ s.removed b

/-- If nothing was removed, nothing is missing. -/
lemma InOrder.eq_of_removed (h : InOrder queue b s) (hr : s.removed b = []) :
    s.line b = queue b ++ s.arrived b := by
  refine h.sublist.eq_of_length ?_
  simpa [hr] using h.perm.length_eq

lemma InOrder.step (hs : InOrder queue b s) (h : s.step a = some s') : InOrder queue b s' := by
  obtain ⟨hsub, hperm, kept, lost, hq, hkept, hlost⟩ := hs
  rcases step_line h b with ⟨xs, hline, harr, hrem⟩ | ⟨m, hline, harr, hrem⟩
  · refine ⟨?_, ?_, kept, lost, hq, ?_, hrem ▸ hlost⟩
    · rw [hline, harr, ← List.append_assoc]
      exact hsub.append (List.Sublist.refl xs)
    · rw [hline, harr, hrem, ← List.append_assoc]
      refine List.Perm.trans ?_ (hperm.append_right xs)
      simp only [List.append_assoc]
      exact List.perm_append_comm.append_left _
    · rw [hline]
      exact hkept.trans (List.prefix_append _ _)
  · refine ⟨?_, ?_, kept.take m, kept.drop m ++ lost, ?_, ?_, ?_⟩
    · rw [hline, harr]
      exact (List.take_sublist _ _).trans hsub
    · rw [harr, hline, hrem]
      refine List.Perm.trans ?_ hperm
      conv_rhs => rw [← List.take_append_drop m (s.line b)]
      simp only [List.append_assoc]
      exact List.perm_append_comm.append_left _
    · rw [← List.append_assoc, List.take_append_drop]
      exact hq
    · rw [hline]
      exact hkept.take m
    · rw [hrem]
      refine List.append_subset.mpr ⟨?_, List.Subset.trans hlost (List.subset_append_left _ _)⟩
      exact List.Subset.trans (hkept.drop m).subset (List.subset_append_right _ _)

/-- **First in, first out**, for each queue and whatever arrives and is removed. -/
theorem fifo (h : (alternation queue last).ReachableUnder G s) (b : Bool) : InOrder queue b s := by
  refine ReachableUnder.invariant ?_ (fun s a s' _ hs _ hstep => hs.step hstep) h
  rintro s rfl
  exact ⟨by simp [line], by simp [line], queue b, [], by simp, by simp [line], by simp⟩

/-! ## The lead of the other queue -/

/-- The other queue has at most one pick more than queue `b`, and none more right after a pick from
`b`. -/
def LeadLe (b : Bool) (s : Server τ) : Prop :=
  (takenFrom (!b) s.picks).length ≤ (takenFrom b s.picks).length + 1 ∧
    (s.last = b → (takenFrom (!b) s.picks).length ≤ (takenFrom b s.picks).length)

lemma LeadLe.step (hs : LeadLe b s) (hrestart : a.isRestart = false)
    (hne : a = .pick → s.queue b ≠ []) (h : s.step a = some s') : LeadLe b s' := by
  obtain ⟨hlead, hlast⟩ := hs
  cases a with
  | arrive | cut =>
    obtain rfl := Option.some.inj h
    exact ⟨hlead, hlast⟩
  | pick =>
    obtain ⟨b', x, rest, hq, hturn, rfl⟩ := step_pick_cases h
    by_cases hb : b' = b
    · -- a pick from `b` makes up for the lead
      subst hb
      refine ⟨?_, fun _ => ?_⟩ <;> simp [takenFrom_singleton_of_ne] <;> omega
    · -- a pick from the other queue follows a pick from `b`, since `b` is not empty
      obtain rfl : b' = !b := by cases b <;> cases b' <;> simp_all
      have hb' : s.last = b := by
        by_contra hl
        have hl : (!b) = s.last := by cases b <;> cases hsl : s.last <;> simp_all
        exact hne rfl (by simpa using hturn hl)
      have hle := hlast hb'
      refine ⟨?_, fun hl => ?_⟩
      · simp [takenFrom_singleton_of_ne]
        omega
      · cases b <;> cases hl
  | restart => cases hrestart

lemma leadLe (hG : ∀ s a, G s a → a.isRestart = false ∧ (a = .pick → s.queue b ≠ []))
    (h : (alternation queue last).ReachableUnder G s) : LeadLe b s := by
  refine ReachableUnder.invariant ?_
    (fun s a s' _ hs hGa hstep => hs.step (hG s a hGa).1 (hG s a hGa).2 hstep) h
  rintro s rfl
  exact ⟨by simp, fun _ => by simp⟩

/-- **The lead.** As long as queue `b` is not empty when it is picked, the other queue gets at most
one pick more. -/
theorem lead_le (hG : ∀ s a, G s a → a.isRestart = false ∧ (a = .pick → s.queue b ≠ []))
    (h : (alternation queue last).ReachableUnder G s) :
    (takenFrom (!b) s.picks).length ≤ (takenFrom b s.picks).length + 1 :=
  (leadLe hG h).1

/-! ## Bounded waiting -/

/-- The step does not remove the element with `k` elements before it, counted from the start. -/
def Spares (b : Bool) (k : ℕ) (s : Server τ) : Turn τ → Prop
  | .cut b' n => b' = b → k < (takenFrom b s.picks).length + n
  | _ => True

/-- The element `x` behind `pre` has been picked within `2 * pre.length + 2` picks, or it is still
in its queue and fewer picks were made. -/
def Awaited (b : Bool) (pre : List τ) (x : τ) (s : Server τ) : Prop :=
  pre ++ [x] <+: takenFrom b (s.picks.take (2 * pre.length + 2)) ∨
    (∃ ahead post, pre = takenFrom b s.picks ++ ahead ∧ s.queue b = ahead ++ x :: post) ∧
      LeadLe b s

lemma takenFrom_mono {ps qs : List (Bool × τ)} (h : ps <+: qs) :
    takenFrom b ps <+: takenFrom b qs := by
  obtain ⟨rs, rfl⟩ := h
  rw [takenFrom_append]
  exact List.prefix_append _ _

lemma Awaited.step {pre : List τ} {x : τ} (hs : Awaited b pre x s)
    (hrestart : a.isRestart = false) (hspares : Spares b pre.length s a)
    (h : s.step a = some s') : Awaited b pre x s' := by
  rcases hs with hdone | ⟨⟨ahead, post, hpre, hq⟩, hlead⟩
  · refine .inl (hdone.trans (takenFrom_mono ?_))
    cases a with
    | arrive | cut =>
      obtain rfl := Option.some.inj h
      exact List.prefix_rfl
    | pick =>
      obtain ⟨b', y, rest, -, -, rfl⟩ := step_pick_cases h
      exact List.IsPrefix.take (List.prefix_append _ _) _
    | restart => cases hrestart
  · have hlead' : LeadLe b s' := hlead.step hrestart (fun _ => by simp [hq]) h
    cases a with
    | arrive b' xs =>
      obtain rfl := Option.some.inj h
      refine .inr ⟨?_, hlead'⟩
      by_cases hb : b = b'
      · subst hb
        exact ⟨ahead, post ++ xs, hpre, by simp [hq]⟩
      · exact ⟨ahead, post, hpre, by simpa [hb] using hq⟩
    | cut b' n =>
      obtain rfl := Option.some.inj h
      refine .inr ⟨?_, hlead'⟩
      by_cases hb : b' = b
      · subst hb
        have hlt : ahead.length < n := by
          have hk : pre.length < (takenFrom b' s.picks).length + n := hspares rfl
          rw [hpre, List.length_append] at hk
          omega
        obtain ⟨m, hm⟩ := Nat.exists_eq_add_of_lt hlt
        refine ⟨ahead, post.take m, hpre, ?_⟩
        simp [hq, hm, Nat.add_assoc, List.take_length_add_append]
      · have hne : b ≠ b' := fun h => hb h.symm
        exact ⟨ahead, post, hpre, by simpa [hne] using hq⟩
    | pick =>
      obtain ⟨b', y, rest, hq', -, rfl⟩ := step_pick_cases h
      by_cases hb : b' = b
      · subst hb
        cases ahead with
        | nil =>
          -- the element itself is picked, after at most one pick more from the other queue
          obtain ⟨rfl, rfl⟩ := List.cons.inj (hq'.symm.trans hq)
          refine .inl ?_
          have hlen := length_takenFrom_add b' s.picks
          have hle := hlead.1
          rw [hpre, List.append_nil, List.take_of_length_le
            (by rw [List.length_append, List.length_singleton]; omega), takenFrom_append,
            takenFrom_singleton_self]
        | cons z ahead =>
          obtain ⟨rfl, rfl⟩ := List.cons.inj (hq'.symm.trans hq)
          exact .inr ⟨⟨ahead, post, by simp [hpre], by simp⟩, hlead'⟩
      · have hne : b ≠ b' := fun h => hb h.symm
        refine .inr ⟨⟨ahead, post, ?_, ?_⟩, hlead'⟩
        · simpa [takenFrom_singleton_of_ne hb] using hpre
        · simpa [hne] using hq
    | restart => cases hrestart

/-- **Bounded waiting.** An element behind `k` others is among the next `2 * k + 2` picks, with all
those before it, unless it is removed. -/
theorem picked_within {pre post : List τ} {x : τ}
    (hG : ∀ s a, G s a → a.isRestart = false ∧ Spares b pre.length s a)
    (hq : queue b = pre ++ x :: post) (h : (alternation queue last).ReachableUnder G s)
    (hlen : 2 * pre.length + 2 ≤ s.picks.length) :
    pre ++ [x] <+: takenFrom b (s.picks.take (2 * pre.length + 2)) := by
  have hawait : Awaited b pre x s := by
    refine ReachableUnder.invariant ?_
      (fun s a s' _ hs hGa hstep => hs.step (hG s a hGa).1 (hG s a hGa).2 hstep) h
    rintro s rfl
    exact .inr ⟨⟨pre, post, by simp, hq⟩, by simp, fun _ => by simp⟩
  rcases hawait with hdone | ⟨⟨ahead, post', hpre, -⟩, hlead, -⟩
  · exact hdone
  · -- too many picks for an element that still waits
    exfalso
    have hsum := length_takenFrom_add b s.picks
    have hk : (takenFrom b s.picks).length ≤ pre.length := by
      rw [hpre, List.length_append]
      omega
    omega

end Server

end Framework
