import CoroutineCpp.Framework.Progress
import Mathlib.Logic.Function.Basic

/-!
# Calls that hold one lock

An object of type `σ` is shared by threads.  Each call on it takes the object's lock, makes some
accesses one after another, and lets the lock go; between the accesses the other threads move as
they like.

* `Block` — what a call does under the lock, access by access, each access choosing what follows by
  what it has seen.  `Block.run` is the same call made in one piece.
* `lockedSystem` — threads that call, wait for the lock, make their accesses, release, return.
* `atomicSystem` — the same threads and an object whose calls take effect in one step.
* `lockedSystem_follows` — every run of the first has, call by call and return by return, the events
  of a run of the second: a call takes effect when it releases the lock.
* `Sequential` — the calls that have taken effect, made one after another, and nothing else,
  explain the object and every result (`AtomicState.sequential`).

An access may be undefined on some contents (`none`); a thread that would make it has no next step,
and the call made in one piece is undefined too.
-/

namespace Framework

universe u v w

/-! ## What a call does -/

/-- A piece of code that works on an object of type `σ` and ends with a result in `ρ`. -/
inductive Block (σ : Type u) (ρ : Type v)
  /-- The code is at its end. -/
  | done (r : ρ)
  /-- One access, undefined where `f` is; what follows may depend on the contents it found. -/
  | access (f : σ → Option σ) (next : σ → Block σ ρ)

namespace Block

variable {σ : Type u} {ρ : Type v}

/-- An access that changes nothing. -/
def read (next : σ → Block σ ρ) : Block σ ρ := .access some next

/-- An access whose old contents are of no interest. -/
def write (f : σ → Option σ) (next : Block σ ρ) : Block σ ρ := .access f fun _ => next

/-- The whole code with nobody in between. -/
def run : Block σ ρ → σ → Option (σ × ρ)
  | .done r, s => some (s, r)
  | .access f next, s => (f s).bind (run (next s))

@[simp] lemma run_done (r : ρ) (s : σ) : (done r).run s = some (s, r) := rfl

lemma run_access (f : σ → Option σ) (next : σ → Block σ ρ) (s : σ) :
    (access f next).run s = (f s).bind (run (next s)) := rfl

@[simp] lemma run_read (next : σ → Block σ ρ) (s : σ) : (read next).run s = (next s).run s := by
  rw [read, run_access, Option.bind_some]

@[simp] lemma run_write (f : σ → Option σ) (next : Block σ ρ) (s : σ) :
    (write f next).run s = (f s).bind next.run := by
  rw [write, run_access]

end Block

/-! ## What can be seen from outside -/

/-- What a caller sees of the object: the calls it makes and their returns. -/
inductive CallEvent (θ : Type u) (κ : Type v) (ρ : Type w)
  | call (t : θ) (c : κ)
  | ret (t : θ) (c : κ) (r : ρ)
  deriving DecidableEq

/-- Runs calls one after another, each with the result it is said to have; the latest is first. -/
def Sequential {θ : Type u} {κ : Type v} {ρ : Type w} {σ : Type*} (effect : κ → σ → Option (σ × ρ))
    (s₀ : σ) : List (θ × κ × ρ) → σ → Prop
  | [], s => s = s₀
  | (_, c, r) :: order, s => ∃ s', Sequential effect s₀ order s' ∧ effect c s' = some (s, r)

/-! ## The locked object -/

section Systems

variable {θ : Type u} {κ : Type v} {ρ : Type w} {σ : Type*}

/-- Where a thread stands. -/
inductive LockPhase (κ : Type v) (ρ : Type w) (σ : Type*)
  | idle
  /-- It has made the call `c` and does not have the lock yet. -/
  | waiting (c : κ)
  /-- It has the lock; `rest` is what it still has to do. -/
  | inside (c : κ) (rest : Block σ ρ)
  /-- It has released the lock and not returned yet. -/
  | leaving (c : κ) (r : ρ)

/-- Threads and an object with a lock. -/
structure LockedState (θ : Type u) (κ : Type v) (ρ : Type w) (σ : Type*) where
  object : σ
  holder : Option θ := none
  phase : θ → LockPhase κ ρ σ := fun _ => .idle
  /-- history: the calls that have released the lock, the latest first -/
  order : List (θ × κ × ρ) := []
  /-- history: the calls and returns, the latest first -/
  events : List (CallEvent θ κ ρ) := []

/-- A step of the thread `t`. -/
inductive LockedAct (θ : Type u) (κ : Type v)
  | call (t : θ) (c : κ)
  | acquire (t : θ)
  | access (t : θ)
  | release (t : θ)
  | ret (t : θ)
  deriving DecidableEq

variable [DecidableEq θ]

/-- One step of one thread, for calls that do `body` under the lock. -/
def LockedState.step (body : κ → Block σ ρ) (s : LockedState θ κ ρ σ) :
    LockedAct θ κ → Option (LockedState θ κ ρ σ)
  | .call t c =>
    match s.phase t with
    | .idle =>
      some { s with
        phase := Function.update s.phase t (.waiting c)
        events := .call t c :: s.events }
    | _ => none
  | .acquire t =>
    match s.phase t, s.holder with
    | .waiting c, none =>
      some { s with phase := Function.update s.phase t (.inside c (body c)), holder := some t }
    | _, _ => none
  | .access t =>
    match s.phase t with
    | .inside c (.access f next) =>
      (f s.object).map fun object =>
        { s with object, phase := Function.update s.phase t (.inside c (next s.object)) }
    | _ => none
  | .release t =>
    match s.phase t with
    | .inside c (.done r) =>
      some { s with
        phase := Function.update s.phase t (.leaving c r)
        holder := none
        order := (t, c, r) :: s.order }
    | _ => none
  | .ret t =>
    match s.phase t with
    | .leaving c r =>
      some { s with
        phase := Function.update s.phase t .idle
        events := .ret t c r :: s.events }
    | _ => none

/-- Any threads, calling as they like, on an object that starts as `s₀`. -/
def lockedSystem (body : κ → Block σ ρ) (s₀ : σ) :
    TransitionSystem (LockedState θ κ ρ σ) (LockedAct θ κ) where
  init s := s = { object := s₀ }
  step := LockedState.step body

/-! ## The atomic object -/

/-- Where a thread stands when calls take effect in one step. -/
inductive AtomicPhase (κ : Type v) (ρ : Type w)
  | idle
  | called (c : κ)
  /-- The call has taken effect and not returned yet. -/
  | performed (c : κ) (r : ρ)
  deriving DecidableEq

/-- Threads and an object without a lock. -/
structure AtomicState (θ : Type u) (κ : Type v) (ρ : Type w) (σ : Type*) where
  object : σ
  phase : θ → AtomicPhase κ ρ := fun _ => .idle
  /-- history: the calls that have taken effect, the latest first -/
  order : List (θ × κ × ρ) := []
  /-- history: the calls and returns, the latest first -/
  events : List (CallEvent θ κ ρ) := []

/-- A step of the thread `t`. -/
inductive AtomicAct (θ : Type u) (κ : Type v)
  | call (t : θ) (c : κ)
  | perform (t : θ)
  | ret (t : θ)
  deriving DecidableEq

/-- One step of one thread, for calls with the given effect. -/
def AtomicState.step (effect : κ → σ → Option (σ × ρ)) (a : AtomicState θ κ ρ σ) :
    AtomicAct θ κ → Option (AtomicState θ κ ρ σ)
  | .call t c =>
    match a.phase t with
    | .idle =>
      some { a with
        phase := Function.update a.phase t (.called c)
        events := .call t c :: a.events }
    | _ => none
  | .perform t =>
    match a.phase t with
    | .called c =>
      (effect c a.object).map fun p =>
        { a with
          object := p.1
          phase := Function.update a.phase t (.performed c p.2)
          order := (t, c, p.2) :: a.order }
    | _ => none
  | .ret t =>
    match a.phase t with
    | .performed c r =>
      some { a with
        phase := Function.update a.phase t .idle
        events := .ret t c r :: a.events }
    | _ => none

/-- Any threads, calling as they like, on an atomic object that starts as `s₀`. -/
def atomicSystem (effect : κ → σ → Option (σ × ρ)) (s₀ : σ) :
    TransitionSystem (AtomicState θ κ ρ σ) (AtomicAct θ κ) where
  init a := a = { object := s₀ }
  step := AtomicState.step effect

/-- The calls that have taken effect, made one after another, give the object. -/
lemma AtomicState.sequential {effect : κ → σ → Option (σ × ρ)} {s₀ : σ} {a : AtomicState θ κ ρ σ}
    (h : (atomicSystem effect s₀).Reachable a) : Sequential effect s₀ a.order a.object := by
  refine h.invariant (I := fun a => Sequential effect s₀ a.order a.object) ?_ ?_
  · rintro _ rfl
    rfl
  · intro a l a' _ ih _ hs
    cases l with
    | call t c =>
      simp only [atomicSystem, AtomicState.step] at hs
      split at hs
      · cases hs
        exact ih
      · cases hs
    | perform t =>
      simp only [atomicSystem, AtomicState.step] at hs
      split at hs
      · obtain ⟨⟨object, r⟩, heff, rfl⟩ := Option.map_eq_some_iff.mp hs
        exact ⟨a.object, ih, heff⟩
      · cases hs
    | ret t =>
      simp only [atomicSystem, AtomicState.step] at hs
      split at hs
      · cases hs
        exact ih
      · cases hs

/-! ## The locked object follows the atomic one -/

/-- The lock has not been let go: the call has not taken effect. -/
def LockPhase.toAtomic : LockPhase κ ρ σ → AtomicPhase κ ρ
  | .idle => .idle
  | .waiting c => .called c
  | .inside c _ => .called c
  | .leaving c r => .performed c r

/-- What the object will be, and the result, when the thread with the lock has done the rest; the
object as it is when nobody has the lock. -/
structure Follows (body : κ → Block σ ρ) (s : LockedState θ κ ρ σ) (a : AtomicState θ κ ρ σ) :
    Prop where
  events : a.events = s.events
  order : a.order = s.order
  phase : ∀ t, a.phase t = (s.phase t).toAtomic
  /-- Only the holder is inside. -/
  exclusive : ∀ t c rest, s.phase t = .inside c rest → s.holder = some t
  free : s.holder = none → a.object = s.object
  /-- What the holder still does to the object comes to what its whole call does to the atomic
  one. -/
  held : ∀ t, s.holder = some t → ∃ c rest, s.phase t = .inside c rest ∧
    rest.run s.object = (body c).run a.object

variable {body : κ → Block σ ρ} {s₀ : σ} {s s' : LockedState θ κ ρ σ} {a : AtomicState θ κ ρ σ}
  {t : θ}

namespace Follows

lemma call (h : Follows body s a) {c : κ} (hp : s.phase t = .idle) :
    Follows body
      { s with
        phase := Function.update s.phase t (.waiting c)
        events := .call t c :: s.events }
      { a with
        phase := Function.update a.phase t (.called c)
        events := .call t c :: a.events } where
  events := congrArg _ h.events
  order := h.order
  phase t' := by
    by_cases ht : t' = t
    · subst ht
      simp [LockPhase.toAtomic]
    · simpa [ht] using h.phase t'
  exclusive t' c' rest hin := by
    by_cases ht : t' = t
    · subst ht
      simp at hin
    · exact h.exclusive t' c' rest (by simpa [ht] using hin)
  free := h.free
  held t' ht' := by
    obtain ⟨c', rest, hin, hrun⟩ := h.held t' ht'
    have hne : t' ≠ t := by
      rintro rfl
      rw [hp] at hin
      cases hin
    exact ⟨c', rest, by simpa [hne] using hin, hrun⟩

lemma acquire (h : Follows body s a) {c : κ} (hp : s.phase t = .waiting c)
    (hfree : s.holder = none) :
    Follows body
      { s with phase := Function.update s.phase t (.inside c (body c)), holder := some t } a where
  events := h.events
  order := h.order
  phase t' := by
    by_cases ht : t' = t
    · subst ht
      simpa [hp, LockPhase.toAtomic] using h.phase t'
    · simpa [ht] using h.phase t'
  exclusive t' c' rest hin := by
    by_cases ht : t' = t
    · rw [ht]
    · have hholder := h.exclusive t' c' rest (by simpa [ht] using hin)
      rw [hfree] at hholder
      cases hholder
  free hnone := by cases hnone
  held t' ht' := by
    obtain rfl : t = t' := Option.some.inj ht'
    exact ⟨c, body c, by simp, by rw [h.free hfree]⟩

lemma access (h : Follows body s a) {c : κ} {f : σ → Option σ} {next : σ → Block σ ρ} {object : σ}
    (hp : s.phase t = .inside c (.access f next)) (hf : f s.object = some object) :
    Follows body
      { s with object, phase := Function.update s.phase t (.inside c (next s.object)) } a where
  events := h.events
  order := h.order
  phase t' := by
    by_cases ht : t' = t
    · subst ht
      simpa [hp, LockPhase.toAtomic] using h.phase t'
    · simpa [ht] using h.phase t'
  exclusive t' c' rest hin := by
    by_cases ht : t' = t
    · subst ht
      exact h.exclusive t' _ _ hp
    · exact h.exclusive t' c' rest (by simpa [ht] using hin)
  free hnone := by
    have hholder := h.exclusive t _ _ hp
    rw [show s.holder = none from hnone] at hholder
    cases hholder
  held t' ht' := by
    obtain rfl : t = t' := Option.some.inj ((h.exclusive t _ _ hp).symm.trans ht')
    obtain ⟨c', rest, hin, hrun⟩ := h.held t ht'
    rw [hp] at hin
    cases hin
    refine ⟨c, next s.object, by simp, ?_⟩
    rw [← hrun, Block.run_access, hf, Option.bind_some]

lemma release (h : Follows body s a) {c : κ} {r : ρ} (hp : s.phase t = .inside c (.done r)) :
    (body c).run a.object = some (s.object, r) ∧
    Follows body
      { s with
        phase := Function.update s.phase t (.leaving c r)
        holder := none
        order := (t, c, r) :: s.order }
      { a with
        object := s.object
        phase := Function.update a.phase t (.performed c r)
        order := (t, c, r) :: a.order } := by
  obtain ⟨c', rest, hin, hrun⟩ := h.held t (h.exclusive t _ _ hp)
  rw [hp] at hin
  cases hin
  refine ⟨by rw [← hrun, Block.run_done], ?_⟩
  exact
    { events := h.events
      order := congrArg _ h.order
      phase := by
        intro t'
        by_cases ht : t' = t
        · subst ht
          simp [LockPhase.toAtomic]
        · simpa [ht] using h.phase t'
      exclusive := by
        intro t' c' rest hin
        by_cases ht : t' = t
        · subst ht
          simp at hin
        · have hholder := h.exclusive t' c' rest (by simpa [ht] using hin)
          rw [h.exclusive t _ _ hp] at hholder
          exact absurd (Option.some.inj hholder).symm ht
      free := fun _ => rfl
      held := by
        intro t' ht'
        cases ht' }

lemma ret (h : Follows body s a) {c : κ} {r : ρ} (hp : s.phase t = .leaving c r) :
    Follows body
      { s with phase := Function.update s.phase t .idle, events := .ret t c r :: s.events }
      { a with phase := Function.update a.phase t .idle, events := .ret t c r :: a.events } where
  events := congrArg _ h.events
  order := h.order
  phase t' := by
    by_cases ht : t' = t
    · subst ht
      simp [LockPhase.toAtomic]
    · simpa [ht] using h.phase t'
  exclusive t' c' rest hin := by
    by_cases ht : t' = t
    · subst ht
      simp at hin
    · exact h.exclusive t' c' rest (by simpa [ht] using hin)
  free := h.free
  held t' ht' := by
    obtain ⟨c', rest, hin, hrun⟩ := h.held t' ht'
    have hne : t' ≠ t := by
      rintro rfl
      rw [hp] at hin
      cases hin
    exact ⟨c', rest, by simpa [hne] using hin, hrun⟩

end Follows

/-- A step of the locked object is a step of the atomic one, or none. -/
lemma Follows.step {effect : κ → σ → Option (σ × ρ)} (heff : ∀ c x, (body c).run x = effect c x)
    (h : Follows body s a) (ha : (atomicSystem effect s₀).Reachable a) {l : LockedAct θ κ}
    (hs : (lockedSystem body s₀).step s l = some s') :
    ∃ a', (atomicSystem effect s₀).Reachable a' ∧ Follows body s' a' := by
  cases l with
  | call t c =>
    simp only [lockedSystem, LockedState.step] at hs
    split at hs
    next hp =>
      cases hs
      refine ⟨_, .step (a := .call t c) ha trivial ?_, h.call hp⟩
      have hphase : a.phase t = .idle := by rw [h.phase, hp, LockPhase.toAtomic]
      simp only [atomicSystem, AtomicState.step, hphase]
    next => cases hs
  | acquire t =>
    simp only [lockedSystem, LockedState.step] at hs
    split at hs
    next hp hfree =>
      cases hs
      exact ⟨a, ha, h.acquire hp hfree⟩
    next => cases hs
  | access t =>
    simp only [lockedSystem, LockedState.step] at hs
    split at hs
    next hp =>
      obtain ⟨object, hf, rfl⟩ := Option.map_eq_some_iff.mp hs
      exact ⟨a, ha, h.access hp hf⟩
    next => cases hs
  | release t =>
    simp only [lockedSystem, LockedState.step] at hs
    split at hs
    next c r hp =>
      cases hs
      obtain ⟨hrun, hnext⟩ := h.release hp
      refine ⟨_, .step (a := .perform t) ha trivial ?_, hnext⟩
      have hphase : a.phase t = .called c := by rw [h.phase, hp, LockPhase.toAtomic]
      simp only [atomicSystem, AtomicState.step, hphase, ← heff, hrun, Option.map_some]
    next => cases hs
  | ret t =>
    simp only [lockedSystem, LockedState.step] at hs
    split at hs
    next c r hp =>
      cases hs
      refine ⟨_, .step (a := .ret t) ha trivial ?_, h.ret hp⟩
      have hphase : a.phase t = .performed c r := by rw [h.phase, hp, LockPhase.toAtomic]
      simp only [atomicSystem, AtomicState.step, hphase]
    next => cases hs

/-- Every run of the locked object is followed by a run of the atomic one whose calls have the
effects of the blocks run in one piece. -/
theorem lockedSystem_follows {effect : κ → σ → Option (σ × ρ)}
    (heff : ∀ c x, (body c).run x = effect c x) (h : (lockedSystem body s₀).Reachable s) :
    ∃ a, (atomicSystem effect s₀).Reachable a ∧ Follows body s a := by
  refine h.invariant
    (I := fun s => ∃ a, (atomicSystem effect s₀).Reachable a ∧ Follows body s a) ?_ ?_
  · rintro _ rfl
    refine ⟨{ object := s₀ }, .init rfl, ?_⟩
    exact
      { events := rfl
        order := rfl
        phase := fun _ => rfl
        exclusive := by
          intro t c rest hin
          cases hin
        free := fun _ => rfl
        held := by
          intro t ht
          cases ht }
  · rintro s l s' _ ⟨a, ha, hfollows⟩ _ hs
    exact hfollows.step heff ha hs

/-- A thread with the lock whose call is defined on what it has found can go on alone until it has
released the lock. -/
lemma canReach_release {c : κ} {rest : Block σ ρ} (hp : s.phase t = .inside c rest)
    {object : σ} {r : ρ} (hrun : rest.run s.object = some (object, r)) :
    (lockedSystem body s₀).CanReach (fun _ l => l = .access t ∨ l = .release t)
      (fun s' => s'.holder = none ∧ s'.object = object ∧ s'.phase t = .leaving c r) s := by
  induction rest generalizing s with
  | done r' =>
    obtain ⟨rfl, rfl⟩ : s.object = object ∧ r' = r := by simpa using hrun
    have hstep : (lockedSystem body s₀).step s (.release t) = some { s with
        phase := Function.update s.phase t (.leaving c r')
        holder := none
        order := (t, c, r') :: s.order } := by
      simp only [lockedSystem, LockedState.step, hp]
    exact .of_step (.inr rfl) hstep (.here (by simp))
  | access f next ih =>
    rw [Block.run_access] at hrun
    obtain ⟨object', hf, hrun⟩ := Option.bind_eq_some_iff.mp hrun
    refine .of_step (a := .access t) (.inl rfl) ?_
      (ih s.object (s := { s with object := object'
                                  phase := Function.update s.phase t (.inside c (next s.object)) })
        (by simp) hrun)
    simp only [lockedSystem, LockedState.step, hp, hf, Option.map_some]

end Systems

end Framework
