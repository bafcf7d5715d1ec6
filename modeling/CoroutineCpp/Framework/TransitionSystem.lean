import Mathlib.Data.List.Basic

/-!
# Transition systems whose nondeterminism is in the label

Every concurrent component of this development is one partial function
`step : σ → α → Option σ`: the label carries everything the outside world chooses (which
thread moves, what a clock answers, what a coroutine body does), so the function itself is
executable and a concrete run is checked by evaluating it.

* `ReachableUnder G` — the states of the runs whose every step meets the guard `G`.  A guard
  is how a property fixes its domain of runs, or the condition under which it holds.
* `ReachableUnder.invariant` — the one induction every safety result goes through.
* `Exec` — runs with their history, for statements about every state of a run.
* `Exec.always_iff`, `Exec.always_and_iff` — when a property of the states (and steps) of a run is
  *equivalent* to a condition on its steps.
* `runUnder` — guarded evaluation of a list of labels, which is how concrete runs are exhibited.

Nothing here mentions a program.
-/

namespace Framework

universe u v

/-- A transition system given by its initial states and a partial step function. -/
structure TransitionSystem (σ : Type u) (α : Type v) where
  /-- The initial states. -/
  init : σ → Prop
  /-- The state after the labelled step, `none` where the label is not enabled. -/
  step : σ → α → Option σ

namespace TransitionSystem

variable {σ : Type u} {α : Type v} (M : TransitionSystem σ α)

/-! ## Reachable states -/

/-- The states reached by runs each of whose steps meets `G` in the state it starts from. -/
inductive ReachableUnder (G : σ → α → Prop) : σ → Prop
  | init {s : σ} (h : M.init s) : ReachableUnder G s
  | step {s s' : σ} {a : α} (h : ReachableUnder G s) (hG : G s a)
      (hs : M.step s a = some s') : ReachableUnder G s'

/-- The states reached by arbitrary runs. -/
abbrev Reachable (s : σ) : Prop := M.ReachableUnder (fun _ _ => True) s

variable {M} {G : σ → α → Prop}

/-- A property that holds initially and that every guarded step out of a reachable state
preserves holds in every reachable state. -/
lemma ReachableUnder.invariant {I : σ → Prop} (hinit : ∀ s, M.init s → I s)
    (hstep : ∀ s a s', M.ReachableUnder G s → I s → G s a → M.step s a = some s' → I s')
    {s : σ} (h : M.ReachableUnder G s) : I s := by
  induction h with
  | init h => exact hinit _ h
  | step h hG hs ih => exact hstep _ _ _ h ih hG hs

/-- Where the guard `G` implies `G'` in the states with `I`, which the run keeps. -/
lemma ReachableUnder.mono {G' : σ → α → Prop} {I : σ → Prop} (hinit : ∀ s, M.init s → I s)
    (hstep : ∀ s a s', I s → G s a → M.step s a = some s' → I s')
    (himp : ∀ s a, I s → G s a → G' s a) {s : σ} (h : M.ReachableUnder G s) :
    M.ReachableUnder G' s := by
  induction h with
  | init h => exact .init h
  | @step s s' a h hG hs ih =>
    have hI : I s := h.invariant hinit fun s a s' _ => hstep s a s'
    exact .step ih (himp s a hI hG) hs

/-- A run meets every weaker guard. -/
lemma ReachableUnder.weaken {G' : σ → α → Prop} (himp : ∀ s a, G s a → G' s a) {s : σ}
    (h : M.ReachableUnder G s) : M.ReachableUnder G' s :=
  h.mono (I := fun _ => True) (fun _ _ => trivial) (fun _ _ _ _ _ _ => trivial)
    fun s a _ => himp s a

/-- A run is followed step by step by a run of another system, through a map of the states. -/
lemma ReachableUnder.simulate {σ' α' : Type*} {N : TransitionSystem σ' α'} {G' : σ' → α' → Prop}
    (f : σ → σ') (hinit : ∀ s, M.init s → N.init (f s))
    (hstep : ∀ s a s', G s a → M.step s a = some s' →
      ∃ a', G' (f s) a' ∧ N.step (f s) a' = some (f s'))
    {s : σ} (h : M.ReachableUnder G s) : N.ReachableUnder G' (f s) := by
  induction h with
  | init h => exact .init (hinit _ h)
  | step _ hG hs ih =>
    obtain ⟨a', hG', hs'⟩ := hstep _ _ _ hG hs
    exact .step ih hG' hs'

/-- A run is followed by a run of another system that stands still where a step shows nothing. -/
lemma ReachableUnder.simulate_stutter {σ' α' : Type*} {N : TransitionSystem σ' α'}
    {G' : σ' → α' → Prop} (f : σ → σ') (hinit : ∀ s, M.init s → N.init (f s))
    (hstep : ∀ s a s', M.ReachableUnder G s → G s a → M.step s a = some s' →
      f s' = f s ∨ ∃ a', G' (f s) a' ∧ N.step (f s) a' = some (f s'))
    {s : σ} (h : M.ReachableUnder G s) : N.ReachableUnder G' (f s) := by
  induction h with
  | init h => exact .init (hinit _ h)
  | step h hG hs ih =>
    rcases hstep _ _ _ h hG hs with heq | ⟨a', hG', hs'⟩
    · exact heq ▸ ih
    · exact .step ih hG' hs'

/-- The runs that go on from the state `s₀`. -/
def startAt (M : TransitionSystem σ α) (s₀ : σ) : TransitionSystem σ α where
  init s := s = s₀
  step := M.step

lemma ReachableUnder.of_startAt {s₀ s : σ} (h₀ : M.ReachableUnder G s₀)
    (h : (M.startAt s₀).ReachableUnder G s) : M.ReachableUnder G s := by
  induction h with
  | init h => exact h ▸ h₀
  | step _ hG hs ih => exact .step ih hG hs

/-- What holds of a state and is preserved by every guarded step, holds of whatever the runs that go
on from there reach. -/
lemma ReachableUnder.invariant_startAt {I : σ → Prop} {s₀ s : σ}
    (h : (M.startAt s₀).ReachableUnder G s) (h₀ : I s₀)
    (hstep : ∀ s a s', (M.startAt s₀).ReachableUnder G s → I s → G s a → M.step s a = some s' →
      I s') : I s :=
  h.invariant (fun _ hs => hs ▸ h₀) hstep

/-! ## Evaluating a concrete run -/

/-- Evaluate a list of labels, stopping with `none` at the first label that is not enabled or
does not meet the guard. -/
def runUnder (M : TransitionSystem σ α) (G : σ → α → Prop) [∀ s a, Decidable (G s a)] :
    σ → List α → Option σ
  | s, [] => some s
  | s, a :: as => if G s a then (M.step s a).bind fun s' => runUnder M G s' as else none

lemma runUnder_append [∀ s a, Decidable (G s a)] (as bs : List α) (s : σ) :
    M.runUnder G s (as ++ bs) = (M.runUnder G s as).bind fun s' => M.runUnder G s' bs := by
  induction as generalizing s with
  | nil => rfl
  | cons a as ih =>
    rw [List.cons_append, TransitionSystem.runUnder, TransitionSystem.runUnder]
    split
    · rw [Option.bind_assoc]
      exact congrArg _ (funext ih)
    · rfl

lemma ReachableUnder.runUnder [∀ s a, Decidable (G s a)] {as : List α} {s s' : σ}
    (h : M.ReachableUnder G s) (hrun : M.runUnder G s as = some s') :
    M.ReachableUnder G s' := by
  induction as generalizing s with
  | nil =>
    obtain rfl : s = s' := by simpa [TransitionSystem.runUnder] using hrun
    exact h
  | cons a as ih =>
    rw [TransitionSystem.runUnder] at hrun
    split at hrun
    next hG =>
      obtain ⟨s₁, hs₁, hrest⟩ := Option.bind_eq_some_iff.mp hrun
      exact ih (.step h hG hs₁) hrest
    next => cases hrun

/-- What none of the listed steps changes is at the end of the run what it was. -/
lemma runUnder_view {β : Type*} [∀ s a, Decidable (G s a)] (F : σ → β) {as : List α} {s s' : σ}
    (hstep : ∀ a ∈ as, ∀ s s', M.step s a = some s' → F s' = F s)
    (hrun : M.runUnder G s as = some s') : F s' = F s := by
  induction as generalizing s with
  | nil =>
    obtain rfl : s = s' := by simpa [TransitionSystem.runUnder] using hrun
    rfl
  | cons a as ih =>
    rw [TransitionSystem.runUnder] at hrun
    split at hrun
    next =>
      obtain ⟨s₁, hs₁, hrest⟩ := Option.bind_eq_some_iff.mp hrun
      rw [ih (fun a ha => hstep a (List.mem_cons_of_mem _ ha)) hrest]
      exact hstep a List.mem_cons_self s s₁ hs₁
    next => cases hrun

/-- A guarded run from an initial state that ends in a state passing the test `p` exhibits a
reachable state passing `p`. -/
lemma exists_reachable_of_runUnder [∀ s a, Decidable (G s a)] (as : List α) (p : σ → Bool) {s : σ}
    (hs : M.init s) (hrun : (M.runUnder G s as).map p = some true) :
    ∃ s', M.ReachableUnder G s' ∧ p s' = true := by
  obtain ⟨s', hs', hp⟩ := Option.map_eq_some_iff.mp hrun
  exact ⟨s', ReachableUnder.runUnder (.init hs) hs', hp⟩

/-! ## Runs with their history -/

/-- `M.Exec G tr s`: a run whose every step meets `G` ends in `s`; `tr` lists its steps, the
latest first, each with the state it started from. -/
inductive Exec (M : TransitionSystem σ α) (G : σ → α → Prop) : List (σ × α) → σ → Prop
  | init {s : σ} (h : M.init s) : Exec M G [] s
  | step {tr : List (σ × α)} {s s' : σ} {a : α} (h : Exec M G tr s) (hG : G s a)
      (hs : M.step s a = some s') : Exec M G ((s, a) :: tr) s'

/-- `P` holds in every state the run passes through, the last one included. -/
def AlwaysState (P : σ → Prop) (tr : List (σ × α)) (s : σ) : Prop :=
  P s ∧ ∀ p ∈ tr, P p.1

/-- `C` holds of every step of the run, in the state the step starts from. -/
def AlwaysStep (C : σ → α → Prop) (tr : List (σ × α)) : Prop :=
  ∀ p ∈ tr, C p.1 p.2

@[simp] lemma alwaysStep_nil (C : σ → α → Prop) : AlwaysStep C [] := by
  simp [AlwaysStep]

@[simp] lemma alwaysStep_cons (C : σ → α → Prop) (p : σ × α) (tr : List (σ × α)) :
    AlwaysStep C (p :: tr) ↔ C p.1 p.2 ∧ AlwaysStep C tr := by
  simp [AlwaysStep]

@[simp] lemma alwaysState_nil (P : σ → Prop) (s : σ) :
    AlwaysState P ([] : List (σ × α)) s ↔ P s := by
  simp [AlwaysState]

@[simp] lemma alwaysState_cons (P : σ → Prop) (p : σ × α) (tr : List (σ × α)) (s : σ) :
    AlwaysState P (p :: tr) s ↔ P s ∧ AlwaysState P tr p.1 := by
  simp [AlwaysState]

lemma AlwaysState.mono {P Q : σ → Prop} {tr : List (σ × α)} {s : σ} (h : AlwaysState P tr s)
    (himp : ∀ s, P s → Q s) : AlwaysState Q tr s :=
  ⟨himp s h.1, fun p hp => himp p.1 (h.2 p hp)⟩

lemma Exec.reachableUnder {tr : List (σ × α)} {s : σ} (h : M.Exec G tr s) :
    M.ReachableUnder G s := by
  induction h with
  | init h => exact .init h
  | step _ hG hs ih => exact .step ih hG hs

lemma ReachableUnder.exists_exec {s : σ} (h : M.ReachableUnder G s) :
    ∃ tr, M.Exec G tr s := by
  induction h with
  | init h => exact ⟨[], .init h⟩
  | step _ hG hs ih =>
    obtain ⟨tr, htr⟩ := ih
    exact ⟨_, .step htr hG hs⟩

/-- A run with its history meets every guard that `G` implies in the states with `I`, which the run
keeps. -/
lemma Exec.mono {G' : σ → α → Prop} {I : σ → Prop} (hinit : ∀ s, M.init s → I s)
    (hstep : ∀ s a s', I s → G s a → M.step s a = some s' → I s')
    (himp : ∀ s a, I s → G s a → G' s a) {tr : List (σ × α)} {s : σ} (h : M.Exec G tr s) :
    M.Exec G' tr s := by
  induction h with
  | init h => exact .init h
  | @step tr s s' a h hG hs ih =>
    have hI : I s := h.reachableUnder.invariant hinit fun s a s' _ => hstep s a s'
    exact .step ih (himp s a hI hG) hs

/-- A run whose steps all meet `C` as well. -/
lemma Exec.and {C : σ → α → Prop} {tr : List (σ × α)} {s : σ} (h : M.Exec G tr s)
    (hC : AlwaysStep C tr) : M.Exec (fun s a => G s a ∧ C s a) tr s := by
  induction h with
  | init h => exact .init h
  | step _ hG hs ih =>
    obtain ⟨hCa, htr⟩ := (alwaysStep_cons _ _ _).mp hC
    exact .step (ih htr) ⟨hG, hCa⟩ hs

lemma Exec.reachableUnder_and {C : σ → α → Prop} {tr : List (σ × α)} {s : σ} (h : M.Exec G tr s)
    (hC : AlwaysStep C tr) : M.ReachableUnder (fun s a => G s a ∧ C s a) s :=
  (h.and hC).reachableUnder

/-- If a step out of a state with `P` (reached by such a run) keeps `P` and has `Q` exactly when
it meets `C`, then `P` holds in every state and `Q` of every step of a run exactly when every step
of the run meets `C`. -/
lemma Exec.always_and_iff {P : σ → Prop} {Q C : σ → α → Prop} (hinit : ∀ s, M.init s → P s)
    (hstep : ∀ s a s', M.ReachableUnder G s → P s → G s a → M.step s a = some s' →
      (P s' ∧ Q s a ↔ C s a))
    {tr : List (σ × α)} {s : σ} (h : M.Exec G tr s) :
    AlwaysState P tr s ∧ AlwaysStep Q tr ↔ AlwaysStep C tr := by
  induction h with
  | init h => simpa using hinit _ h
  | step h hG hs ih =>
    rw [alwaysState_cons, alwaysStep_cons, alwaysStep_cons, ← ih]
    constructor
    · rintro ⟨⟨hs', hP, htr⟩, hQ, hQtr⟩
      exact ⟨(hstep _ _ _ h.reachableUnder hP hG hs).mp ⟨hs', hQ⟩, ⟨hP, htr⟩, hQtr⟩
    · rintro ⟨hC, ⟨hP, htr⟩, hQtr⟩
      obtain ⟨hs', hQ⟩ := (hstep _ _ _ h.reachableUnder hP hG hs).mpr hC
      exact ⟨⟨hs', hP, htr⟩, hQ, hQtr⟩

/-- The same for a property of states alone. -/
lemma Exec.always_iff {P : σ → Prop} {C : σ → α → Prop} (hinit : ∀ s, M.init s → P s)
    (hstep : ∀ s a s', M.ReachableUnder G s → P s → G s a → M.step s a = some s' →
      (P s' ↔ C s a))
    {tr : List (σ × α)} {s : σ} (h : M.Exec G tr s) :
    AlwaysState P tr s ↔ AlwaysStep C tr := by
  have hiff := h.always_and_iff (Q := fun _ _ => True) hinit fun s a s' hreach hP hG hs => by
    rw [and_true]
    exact hstep s a s' hreach hP hG hs
  have htrue : AlwaysStep (fun (_ : σ) (_ : α) => True) tr := fun _ _ => trivial
  rwa [and_iff_left htrue] at hiff

end TransitionSystem

end Framework
