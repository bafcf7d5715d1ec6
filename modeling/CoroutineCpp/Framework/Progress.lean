import CoroutineCpp.Framework.TransitionSystem
import Mathlib.Order.WellFounded

/-!
# What a run can still do, and for how long

Two rules with a rank, for a system that goes on from a given state, and the evaluation of runs with
their history.

* `CanReach` — some continuation of the run has the property.  `CanReach.of_rank`: it has when every
  state on the way has a step to a state of smaller rank.
* `traceUnder` — guarded evaluation of a list of labels that keeps the history.
* `countSteps` — how often a run took a step of some kind.  `countSteps_add_rank_le`: no more often
  than the rank it starts with, when each such step brings the rank down and no step brings it up;
  `countSteps_add_rank_le_credit`: where some steps raise it, what they raise it by comes on top.
-/

namespace Framework

namespace TransitionSystem

universe u v

variable {σ : Type u} {α : Type v} {M : TransitionSystem σ α} {G : σ → α → Prop}

/-! ## Continuations -/

/-- What goes on from the state after a step goes on from the state before it. -/
lemma ReachableUnder.cons {s s₁ s' : σ} {a : α} (hG : G s a) (hs : M.step s a = some s₁)
    (h : (M.startAt s₁).ReachableUnder G s') : (M.startAt s).ReachableUnder G s' :=
  ReachableUnder.of_startAt (M := M.startAt s) (.step (.init rfl) hG hs) h

/-- Some run that goes on from `s` with steps that meet `G` comes to a state with `P`. -/
def CanReach (M : TransitionSystem σ α) (G : σ → α → Prop) (P : σ → Prop) (s : σ) : Prop :=
  ∃ s', (M.startAt s).ReachableUnder G s' ∧ P s'

lemma CanReach.here {P : σ → Prop} {s : σ} (h : P s) : M.CanReach G P s := ⟨s, .init rfl, h⟩

lemma CanReach.of_step {P : σ → Prop} {s s' : σ} {a : α} (hG : G s a) (hs : M.step s a = some s')
    (h : M.CanReach G P s') : M.CanReach G P s := by
  obtain ⟨s'', hreach, hP⟩ := h
  exact ⟨s'', hreach.cons hG hs, hP⟩

lemma CanReach.trans {P Q : σ → Prop} {s : σ} (h : M.CanReach G P s)
    (hPQ : ∀ s', (M.startAt s).ReachableUnder G s' → P s' → M.CanReach G Q s') :
    M.CanReach G Q s := by
  obtain ⟨s', hreach, hP⟩ := h
  obtain ⟨s'', hreach', hQ⟩ := hPQ s' hreach hP
  exact ⟨s'', ReachableUnder.of_startAt (M := M.startAt s) hreach hreach', hQ⟩

lemma CanReach.imp {P Q : σ → Prop} {s : σ} (h : M.CanReach G P s) (himp : ∀ s, P s → Q s) :
    M.CanReach G Q s := by
  obtain ⟨s', hreach, hP⟩ := h
  exact ⟨s', hreach, himp s' hP⟩

/-- While the goal is not reached, some step reaches it, or keeps `I` and brings the rank down. -/
lemma CanReach.of_rank {β : Type*} [LT β] [WellFoundedLT β] (rank : σ → β) {I P : σ → Prop}
    (hstep : ∀ s, I s → ¬ P s →
      ∃ a s', G s a ∧ M.step s a = some s' ∧ (P s' ∨ I s' ∧ rank s' < rank s))
    {s : σ} (h : I s) : M.CanReach G P s := by
  induction hr : rank s using WellFoundedLT.induction generalizing s with
  | ind r ih =>
    by_cases hP : P s
    · exact .here hP
    · obtain ⟨a, s', hG, hs, hP' | ⟨hI, hlt⟩⟩ := hstep s h hP
      · exact .of_step hG hs (.here hP')
      · exact .of_step hG hs (ih (rank s') (hr ▸ hlt) hI rfl)

/-- A run that has not come there yet can take a step. -/
lemma CanReach.exists_step {P : σ → Prop} {s : σ} (h : M.CanReach G P s) (hnot : ¬ P s) :
    ∃ a s', G s a ∧ M.step s a = some s' := by
  obtain ⟨s', hreach, hP⟩ := h
  have hfirst : s' = s ∨ ∃ a s₁, G s a ∧ M.step s a = some s₁ := by
    clear hP
    induction hreach with
    | init h => exact .inl h
    | step _ hG hs ih =>
      rcases ih with rfl | hex
      · exact .inr ⟨_, _, hG, hs⟩
      · exact .inr hex
  rcases hfirst with rfl | hex
  · exact absurd hP hnot
  · exact hex

/-! ## Evaluating a run with its history -/

/-- Evaluate a list of labels after the run `tr`. -/
def traceUnder (M : TransitionSystem σ α) (G : σ → α → Prop) [∀ s a, Decidable (G s a)] :
    List (σ × α) → σ → List α → Option (List (σ × α) × σ)
  | tr, s, [] => some (tr, s)
  | tr, s, a :: as =>
    if G s a then (M.step s a).bind fun s' => traceUnder M G ((s, a) :: tr) s' as else none

lemma Exec.traceUnder [∀ s a, Decidable (G s a)] {as : List α} {tr tr' : List (σ × α)} {s s' : σ}
    (h : M.Exec G tr s) (hrun : M.traceUnder G tr s as = some (tr', s')) : M.Exec G tr' s' := by
  induction as generalizing tr s with
  | nil =>
    obtain ⟨rfl, rfl⟩ : tr = tr' ∧ s = s' := by simpa [TransitionSystem.traceUnder] using hrun
    exact h
  | cons a as ih =>
    rw [TransitionSystem.traceUnder] at hrun
    split at hrun
    next hG =>
      obtain ⟨s₁, hs₁, hrest⟩ := Option.bind_eq_some_iff.mp hrun
      exact ih (.step h hG hs₁) hrest
    next => cases hrun

/-- A guarded run from an initial state that passes the test `p` with its history. -/
lemma exists_exec_of_traceUnder [∀ s a, Decidable (G s a)] (as : List α)
    (p : List (σ × α) → σ → Bool) {s : σ} (hs : M.init s)
    (hrun : (M.traceUnder G [] s as).map (fun q => p q.1 q.2) = some true) :
    ∃ tr s', M.Exec G tr s' ∧ p tr s' = true := by
  obtain ⟨⟨tr, s'⟩, htr, hp⟩ := Option.map_eq_some_iff.mp hrun
  exact ⟨tr, s', Exec.traceUnder (.init hs) htr, hp⟩

/-! ## Counting steps -/

/-- How many steps of the run are of the kind `D`. -/
def countSteps (D : σ → α → Prop) [∀ s a, Decidable (D s a)] (tr : List (σ × α)) : ℕ :=
  tr.countP fun p => D p.1 p.2

lemma countSteps_cons (D : σ → α → Prop) [∀ s a, Decidable (D s a)] (p : σ × α)
    (tr : List (σ × α)) :
    countSteps D (p :: tr) = countSteps D tr + if D p.1 p.2 then 1 else 0 := by
  simp only [countSteps, List.countP_cons, decide_eq_true_eq]

/-- A rank that each step of the kind `D` brings down, and that is raised only on credit, bounds how
many there are. -/
lemma countSteps_add_rank_le_credit {D : σ → α → Prop} [∀ s a, Decidable (D s a)] {I : σ → Prop}
    (rank : σ → ℕ) (credit : List (σ × α) → σ → ℕ) {s₀ s : σ} {tr : List (σ × α)}
    (h : (M.startAt s₀).Exec G tr s) (h₀ : I s₀)
    (hstep : ∀ tr s a s', I s → G s a → M.step s a = some s' →
      I s' ∧ (if D s a then 1 else 0) + rank s' + credit tr s ≤
        rank s + credit ((s, a) :: tr) s') :
    I s ∧ countSteps D tr + rank s + credit [] s₀ ≤ rank s₀ + credit tr s := by
  induction h with
  | init h =>
    obtain rfl : _ = s₀ := h
    exact ⟨h₀, by simp [countSteps]⟩
  | @step tr s s' a _ hG hs ih =>
    obtain ⟨hI, hle⟩ := ih
    obtain ⟨hI', hle'⟩ := hstep tr s a s' hI hG hs
    refine ⟨hI', ?_⟩
    rw [countSteps_cons]
    dsimp only
    omega

/-- A rank that no step raises, and that each step of the kind `D` brings down, bounds how many
there are. -/
lemma countSteps_add_rank_le {D : σ → α → Prop} [∀ s a, Decidable (D s a)] {I : σ → Prop}
    (rank : σ → ℕ) {s₀ s : σ} {tr : List (σ × α)} (h : (M.startAt s₀).Exec G tr s) (h₀ : I s₀)
    (hstep : ∀ s a s', I s → G s a → M.step s a = some s' →
      I s' ∧ (if D s a then 1 else 0) + rank s' ≤ rank s) :
    I s ∧ countSteps D tr + rank s ≤ rank s₀ :=
  countSteps_add_rank_le_credit rank (fun _ _ => 0) h h₀ fun _ => hstep

end TransitionSystem

end Framework
