import CoroutineCpp.Model.LockedDeque

/-!
# The calls of a `ThreadSafeDeque` are atomic

Each call, made in one piece, is the function the other modules take it for (`run_body`); the
library rule on calls that hold one lock does the rest.
-/

namespace CoroutineCpp

open Framework ThreadSafeDeque

variable {T : Type*}

/-! ## One call in one piece -/

namespace ThreadSafeDeque

lemma erase_front {n : ℕ} {d : ThreadSafeDeque T} (h : n ≤ d.length) :
    eraseRange 0 n d = some (d.drop n) := by
  simp [eraseRange, h]

lemma erase_back (n : ℕ) (d : ThreadSafeDeque T) :
    eraseRange (d.length - n) d.length d = some (d.take (d.length - n)) := by
  simp [eraseRange]

lemma range_front (n : ℕ) (d : ThreadSafeDeque T) : range 0 n d = d.take n := by
  simp [range]

lemma range_back (n : ℕ) (d : ThreadSafeDeque T) : range n d.length d = d.drop n := by
  simp [range]

lemma popBack_eq_none_iff {d : ThreadSafeDeque T} : d.popBack = none ↔ d = [] := by
  simp [popBack]

lemma popFront_eq_none_iff {d : ThreadSafeDeque T} : popFront d = none ↔ d = [] := by
  cases d <;> simp [popFront]

end ThreadSafeDeque

namespace DequeCall

lemma run_popFrontAndAppendUnsafe (n : ℕ) (d out : ThreadSafeDeque T) :
    (popFrontAndAppendUnsafe n out).run d =
      some ((ThreadSafeDeque.popFrontAndAppend n d out).1,
        .deque (ThreadSafeDeque.popFrontAndAppend n d out).2) := by
  simp only [popFrontAndAppendUnsafe, ThreadSafeDeque.popFrontAndAppend, Block.run_read,
    Block.run_write, range_front, erase_front (Nat.min_le_right n d.length), Option.bind_some,
    Block.run_done]

lemma run_popBackAndAppendUnsafe (n : ℕ) (d out : ThreadSafeDeque T) :
    (popBackAndAppendUnsafe n out).run d =
      some ((ThreadSafeDeque.popBackAndAppend n d out).1,
        .deque (ThreadSafeDeque.popBackAndAppend n d out).2) := by
  simp only [popBackAndAppendUnsafe, ThreadSafeDeque.popBackAndAppend, Block.run_read,
    Block.run_write, range_back, erase_back, Option.bind_some, Block.run_done]

/-- The loop of the batch `AddTask` pushes the values in their order and counts them. -/
lemma run_addTasksLoop (values : List T) (count : ℕ) (d : ThreadSafeDeque T) :
    (addTasksLoop values count).run d =
      some (values.foldl ThreadSafeDeque.pushBack d, .size (count + values.length)) := by
  induction values generalizing count d with
  | nil => simp [addTasksLoop]
  | cons value values ih =>
    rw [addTasksLoop, Block.run_write, Option.bind_some, ih, List.foldl_cons, List.length_cons,
      Nat.add_assoc, Nat.add_comm 1]

/-- Each call, with nobody in between, has its effect. -/
lemma run_body (c : DequeCall T) (d : ThreadSafeDeque T) : c.body.run d = c.effect d := by
  cases c with
  | empty | size | clear | pushBack value | pushFront value => simp [body, effect]
  | popBack | popFront =>
    rw [body, Block.run_write, effect, Option.map_eq_bind]
    rfl
  | popFrontAndReplace n ans =>
    simp only [body, effect, popFrontAndReplaceUnsafe, ThreadSafeDeque.popFrontAndReplace,
      Block.run_read, Block.run_write, range_front, erase_front (Nat.min_le_right n d.length),
      Option.bind_some, Block.run_done]
  | popBackAndReplace n ans =>
    simp only [body, effect, popBackAndReplaceUnsafe, ThreadSafeDeque.popBackAndReplace,
      Block.run_read, Block.run_write, range_back, erase_back, Option.bind_some, Block.run_done]
  | popFrontAndAppend n out => exact run_popFrontAndAppendUnsafe n d out
  | popBackAndAppend n out => exact run_popBackAndAppendUnsafe n d out
  | addTasks values => rw [body, run_addTasksLoop, Nat.zero_add, effect]
  | giveUpTasks giveups n =>
    rw [body, effect]
    split
    · exact run_popBackAndAppendUnsafe n d giveups
    · rw [Block.run_read]
      exact run_popBackAndAppendUnsafe d.length d giveups

/-- Only the pops of one element are undefined anywhere, and only on the empty deque. -/
lemma effect_eq_none_iff (c : DequeCall T) (d : ThreadSafeDeque T) :
    c.effect d = none ↔ d = [] ∧ (c = .popBack ∨ c = .popFront) := by
  cases c <;> simp [effect, popBack_eq_none_iff, popFront_eq_none_iff]

/-- The batch `AddTask` of an executor is this call on its runnable queue: `Model/CoExecutor.lean`
and `Model/LockedDeque.lean` model it alike. -/
lemma effect_addTasks (tks : List CoTaskPtr) (ex : CoExecutor) :
    (addTasks tks).effect ex.runnableQueue =
      some ((ex.addTasks tks).1.runnableQueue, .size tks.length) := rfl

/-- So they do with `GiveUpTasks`. -/
lemma effect_giveUpTasks (giveups : ThreadSafeDeque CoTaskPtr) (n : ℕ) (ex : CoExecutor) :
    (giveUpTasks giveups n).effect ex.runnableQueue =
      some ((ex.giveUpTasks giveups n).1.runnableQueue, .deque (ex.giveUpTasks giveups n).2) := rfl

end DequeCall

/-! ## Any number of threads -/

variable {θ : Type*} [DecidableEq θ] {d₀ : ThreadSafeDeque T}
  {s : LockedState θ (DequeCall T) (DequeResult T) (ThreadSafeDeque T)}

/-- However the accesses of the threads interleave, what they see is what they would see of a deque
whose calls take effect one at a time, each between its call and its return: the calls and returns
are the same, the results are those of the calls made one after another in the order in which they
let the lock go, and so are the contents whenever nobody has the lock. -/
theorem locked_calls_atomic (h : (dequeSystem θ d₀).Reachable s) :
    ∃ a, (atomicDequeSystem θ d₀).Reachable a ∧ a.events = s.events ∧ a.order = s.order ∧
      Sequential DequeCall.effect d₀ s.order a.object ∧
      (s.holder = none → a.object = s.object) := by
  obtain ⟨a, ha, hfollows⟩ := lockedSystem_follows DequeCall.run_body h
  refine ⟨a, ha, hfollows.events, hfollows.order, ?_, hfollows.free⟩
  rw [← hfollows.order]
  exact AtomicState.sequential ha

/-- Two threads: the second takes two elements from the back while the first waits to push. -/
theorem locked_calls_atomic_two_threads :
    ∃ (s : LockedState ℕ (DequeCall ℕ) (DequeResult ℕ) (ThreadSafeDeque ℕ))
      (a : AtomicState ℕ (DequeCall ℕ) (DequeResult ℕ) (ThreadSafeDeque ℕ)),
      s.order = [(0, .pushBack 4, .unit), (1, .popBackAndAppend 2 [], .deque [2, 3])] ∧
        s.object = [1, 4] ∧ (atomicDequeSystem ℕ [1, 2, 3]).Reachable a ∧ a.events = s.events ∧
        a.object = s.object := by
  obtain ⟨s, hs, hp⟩ := TransitionSystem.exists_reachable_of_runUnder (G := fun _ _ => True)
    (M := dequeSystem ℕ [1, 2, 3])
    [.call 1 (.popBackAndAppend 2 []), .acquire 1, .access 1, .call 0 (.pushBack 4), .access 1,
      .access 1, .access 1, .release 1, .acquire 0, .access 0, .release 0, .ret 0]
    (fun s => s.holder = none &&
      s.order = [(0, .pushBack 4, .unit), (1, .popBackAndAppend 2 [], .deque [2, 3])] &&
      s.object = [1, 4]) rfl (by decide)
  simp only [Bool.and_eq_true, decide_eq_true_eq] at hp
  obtain ⟨a, ha, hevents, -, -, hfree⟩ := locked_calls_atomic hs
  exact ⟨s, a, hp.1.2, hp.2, ha, hevents, hfree hp.1.1⟩

/-- A thread that has the lock can let it go without a step of any other thread, unless it pops one
element of a deque that the calls before it have left empty. -/
theorem locked_call_ends (h : (dequeSystem θ d₀).Reachable s) {t : θ} (ht : s.holder = some t) :
    (dequeSystem θ d₀).CanReach (fun _ l => l = .access t ∨ l = .release t)
        (fun s' => s'.holder = none) s ∨
      ∃ c rest, s.phase t = .inside c rest ∧ (c = .popBack ∨ c = .popFront) ∧
        Sequential DequeCall.effect d₀ s.order [] := by
  obtain ⟨a, ha, hfollows⟩ := lockedSystem_follows DequeCall.run_body h
  obtain ⟨c, rest, hin, hrun⟩ := hfollows.held t ht
  rw [DequeCall.run_body] at hrun
  cases heff : c.effect a.object with
  | none =>
    obtain ⟨hempty, hpop⟩ := (c.effect_eq_none_iff a.object).mp heff
    right
    refine ⟨c, rest, hin, hpop, ?_⟩
    rw [← hfollows.order, ← hempty]
    exact AtomicState.sequential ha
  | some p =>
    left
    exact (canReach_release hin (hrun.trans heff)).imp fun _ hs' => hs'.1

/-- A thread in the middle of a bulk pop, with another one waiting. -/
theorem locked_call_ends_bulk_pop :
    ∃ s : LockedState ℕ (DequeCall ℕ) (DequeResult ℕ) (ThreadSafeDeque ℕ),
      s.holder = some 1 ∧
        ((dequeSystem ℕ [1, 2, 3]).CanReach (fun _ l => l = .access 1 ∨ l = .release 1)
            (fun s' => s'.holder = none) s ∨
          ∃ c rest, s.phase 1 = .inside c rest ∧ (c = .popBack ∨ c = .popFront) ∧
            Sequential DequeCall.effect [1, 2, 3] s.order []) := by
  obtain ⟨s, hs, hp⟩ := TransitionSystem.exists_reachable_of_runUnder (G := fun _ _ => True)
    (M := dequeSystem ℕ [1, 2, 3])
    [.call 1 (.popFrontAndAppend 2 []), .acquire 1, .access 1, .call 0 .size]
    (fun s => s.holder = some 1) rfl (by decide)
  simp only [decide_eq_true_eq] at hp
  exact ⟨s, hp, locked_call_ends hs hp⟩

end CoroutineCpp
