import CoroutineCpp.Properties.ProcessMoves

/-!
# The size of the finished queue

`Process` tests the size of the finished queue at the end of an iteration, right after a push, so
that the queue is below `TRIGGER_GC_TASK_SIZE` whenever that test has been reached
(`SizeTested`).  An exception that leaves `Process` skips the test.  `finished_bounded_iff` says
that nothing else does, and `exists_thrown` that coroutines which throw one after the other make the
queue as long as one likes.
-/

namespace CoroutineCpp

open Framework TransitionSystem

namespace LoopState

variable {s s' : LoopState} {a : LoopAct}

/-- The finished queue is below `TRIGGER_GC_TASK_SIZE` or, just before the test, at most equal. -/
def SizeTested (s : LoopState) : Prop :=
  s.ex.finishedQueue.length < triggerGcTaskSize ∨
    s.pc = .gcTest ∧ s.ex.finishedQueue.length = triggerGcTaskSize

/-- No exception leaves `Process` with the task that fills the finished queue. -/
def ThrowsBelow (s : LoopState) (a : LoopAct) : Prop :=
  ∀ nowMs ex, a = .thread nowMs → s.pc = .settle →
    (s.tasks s.ex.runningTask).status = .except →
    (s.tasks s.ex.runningTask).exPtr = some ex →
    s.ex.finishedQueue.length + 1 < triggerGcTaskSize

lemma SizeTested.lt (h : s.SizeTested) (hpc : s.pc ≠ .gcTest) :
    s.ex.finishedQueue.length < triggerGcTaskSize :=
  h.resolve_right fun h => hpc h.1

/-- Every effect but a rethrow keeps the size tested. -/
lemma Effect.sizeTested (h : Effect s a s') (hs : s.SizeTested)
    (hn : ∀ nowMs ex, a = .thread nowMs → s.pc = .settle →
      (s.tasks s.ex.runningTask).status = .except →
      (s.tasks s.ex.runningTask).exPtr ≠ some ex) : s'.SizeTested := by
  cases h with
  | enter _ hpc | count _ hpc | stamp _ hpc => exact .inl (hs.lt (by simp [hpc]))
  | resumeOver hpc | resume hpc | counted hpc | held hpc | setWaiting hpc | timedOut hpc
  | leave hpc | holdPush hpc => exact .inl (hs.lt (by simp [hpc]))
  | switchOut hpc => exact .inl (hs.lt (by rcases hpc with hpc | hpc <;> simp [hpc]))
  | assign hpc h =>
    have hlt := hs.lt (by simp [hpc])
    cases h <;> exact .inl hlt
  | @threadMove pc h =>
    generalize hpc : s.pc = pc₀ at h
    cases h with
    | keep hlt => exact .inl hlt
    | _ => exact .inl (hs.lt (by simp [hpc]))
  | finished hpc =>
    have hlt := hs.lt (by simp [hpc])
    rcases Nat.lt_or_eq_of_le (Nat.succ_le_of_lt hlt) with hlt' | heq
    · exact .inl (by simpa using hlt')
    · exact .inr ⟨rfl, by simpa using heq⟩
  | thrown ha hpc hst hex =>
    obtain ⟨nowMs, rfl⟩ := ha
    exact absurd hex (hn nowMs _ rfl hpc hst)
  | gc => exact .inl (by simp [triggerGcTaskSize])
  | idleClean hpc hfin =>
    rcases hfin with rfl | rfl
    · exact .inl (hs.lt (by simp [hpc]))
    · exact .inl (by simp [triggerGcTaskSize])
  | notify =>
    refine hs.imp_right fun h => ⟨?_, h.2⟩
    show notifyAll s.pc = .gcTest
    rw [h.1]
    rfl
  | _ => exact hs

lemma step_sizeTested_iff (hs : s.SizeTested) (h : s.step a = some s') :
    s'.SizeTested ↔ s.ThrowsBelow a := by
  by_cases hn : ∃ nowMs ex, a = .thread nowMs ∧ s.pc = .settle ∧
      (s.tasks s.ex.runningTask).status = .except ∧
      (s.tasks s.ex.runningTask).exPtr = some ex
  · obtain ⟨nowMs, ex, rfl, hpc, hst, hex⟩ := hn
    have hs' : s'.pc = .outside ∧
        s'.ex.finishedQueue.length = s.ex.finishedQueue.length + 1 := by
      have h := act_of_step h
      simp only [act, threadStep, hpc, settle, hst, hex, Option.some.injEq] at h
      subst h
      exact ⟨rfl, by simp [ThreadSafeDeque.pushBack]⟩
    rw [SizeTested, hs'.1, hs'.2]
    simp only [reduceCtorEq, false_and, or_false]
    exact ⟨fun hlt _ _ _ _ _ _ => hlt, fun hC => hC nowMs ex rfl hpc hst hex⟩
  · push Not at hn
    exact ⟨fun _ nowMs ex ha hpc hst hex => absurd hex (hn nowMs ex ha hpc hst),
      fun _ => (step_effect h).sizeTested hs hn⟩

/-- **When the finished queue stays bounded.** In a run the finished queue is at all times below
`TRIGGER_GC_TASK_SIZE` (or equal to it, just before the test), exactly if no exception leaves
`Process` with the task that fills the queue.  Then it never holds more than
`TRIGGER_GC_TASK_SIZE` tasks. -/
theorem finished_bounded_iff {tr : List (LoopState × LoopAct)}
    (h : loopSystem.Exec (fun _ _ => True) tr s) :
    (AlwaysState SizeTested tr s ↔ AlwaysStep ThrowsBelow tr) ∧
      (AlwaysStep ThrowsBelow tr →
        AlwaysState (fun s => s.ex.finishedQueue.length ≤ triggerGcTaskSize) tr s) := by
  have hiff : AlwaysState SizeTested tr s ↔ AlwaysStep ThrowsBelow tr := by
    refine h.always_iff ?_ fun s a s' _ hs _ hstep => step_sizeTested_iff hs hstep
    rintro s ⟨id, nowUs, rfl⟩
    exact .inl (by simp [triggerGcTaskSize])
  refine ⟨hiff, fun hC => (hiff.mpr hC).mono fun s hs => ?_⟩
  rcases hs with hlt | ⟨-, heq⟩
  · exact Nat.le_of_lt hlt
  · exact Nat.le_of_eq heq

/-- A task that returns and one that throws after it. -/
theorem finished_bounded_iff_two_tasks :
    ∃ tr s, loopSystem.Exec (fun _ _ => True) tr s ∧ s.pc = .outside ∧
      s.ex.finishedQueue = [1, 2] ∧ s.thrown = [7] ∧
      ((AlwaysState SizeTested tr s ↔ AlwaysStep ThrowsBelow tr) ∧
        (AlwaysStep ThrowsBelow tr →
          AlwaysState (fun s => s.ex.finishedQueue.length ≤ triggerGcTaskSize) tr s)) := by
  obtain ⟨s, hs, hp⟩ := exists_reachable_of_runUnder (G := fun _ _ => True) (M := loopSystem)
    (List.flatten [[.addTasks 0 [1, 2]], List.replicate 4 (.client 0), [.process 0],
      List.replicate 6 (.thread 0), [.finish], List.replicate 9 (.thread 0), [.throw 7],
      List.replicate 2 (.thread 0)])
    (fun s => s.pc = .outside && s.ex.finishedQueue = [1, 2] && s.thrown = [7])
    ⟨0, 0, rfl⟩ (by decide)
  simp only [Bool.and_eq_true, decide_eq_true_eq] at hp
  obtain ⟨⟨hpc, hfin⟩, hthrown⟩ := hp
  obtain ⟨tr, htr⟩ := hs.exists_exec
  exact ⟨tr, s, htr, hpc, hfin, hthrown, finished_bounded_iff htr⟩

/-! ## A run of throwing coroutines -/

/-- An executor outside `Process`, on which tasks `1, …, n` have thrown, with a runnable queue. -/
structure Thrown (n : ℕ) (runnableQueue : List CoTaskPtr) (s : LoopState) : Prop where
  pc : s.pc = .outside
  fault : s.fault = none
  clients : s.clients 0 = .idle
  queueLock : s.queueLock = none
  isStopping : s.ex.isStopping = false
  waiting : s.ex.waiting = true
  runnableQueue : s.ex.runnableQueue = runnableQueue
  awokenQueue : s.ex.awokenQueue = []
  finishedQueue : s.ex.finishedQueue.length = n
  fresh : ∀ tk, n < tk → s.tasks tk = {}

/-- The next task is added. -/
lemma Thrown.addTask {n : ℕ} (h : s.Thrown n []) :
    ∃ s', loopSystem.runUnder (fun _ _ => True) s
      [.addTask 0 (n + 1), .client 0, .client 0, .client 0] = some s' ∧ s'.Thrown n [n + 1] := by
  obtain ⟨hpc, hfault, hclients, hlock, hstop, hwait, hrun, hawoken, hfin, hfresh⟩ := h
  apply Exists.intro
  constructor
  · simp [runUnder, loopSystem, step, act, begin, setClient, clientStep, notifyAll,
      ThreadSafeDeque.pushBack, nullptr, hpc, hfault, hclients, hlock, hwait, hrun]
    rfl
  · exact ⟨rfl, rfl, by simp, rfl, hstop, rfl, rfl, hawoken, hfin, hfresh⟩

/-- `Process` is called, and the task throws. -/
lemma Thrown.process {n : ℕ} (h : s.Thrown n [n + 1]) :
    ∃ s', loopSystem.runUnder (fun _ _ => True) s
      (List.flatten [[.process 0], List.replicate 6 (.thread 0), [.throw 7],
        List.replicate 2 (.thread 0)]) = some s' ∧ s'.Thrown (n + 1) [] := by
  obtain ⟨hpc, hfault, hclients, hlock, hstop, hwait, hrun, hawoken, hfin, hfresh⟩ := h
  have htask : s.tasks (n + 1) = {} := hfresh (n + 1) (Nat.lt_succ_self n)
  apply Exists.intro
  constructor
  · simp [runUnder, loopSystem, step, act, threadStep, resumeTask, settle, switchOut,
      CoExecutor.chooseQueue, CoExecutor.assignRunnableTask, nullptr, Coroutine.resume,
      Coroutine.canResume, Coroutine.prepare, Coroutine.runThrew, ThreadSafeDeque.pushBack,
      List.replicate, hpc, hfault, hlock, hstop, hrun, hawoken, htask]
    rfl
  · refine ⟨rfl, rfl, hclients, rfl, rfl, hwait, rfl, rfl, ?_, fun tk htk => ?_⟩
    · simp [hfin]
    · have hne : tk ≠ n + 1 := by omega
      simp [hne, hfresh tk (by omega)]

/-- Coroutines that throw one after the other fill the finished queue as far as one likes, with
`Process` called again after each: the test that cleans the queue is never reached. -/
lemma exists_thrown (n : ℕ) : ∃ s, loopSystem.Reachable s ∧ s.Thrown n [] := by
  induction n with
  | zero =>
    exact ⟨_, .init ⟨0, 0, rfl⟩, rfl, rfl, rfl, rfl, rfl, rfl, rfl, rfl, rfl, fun _ _ => rfl⟩
  | succ n ih =>
    obtain ⟨s, hreach, hs⟩ := ih
    obtain ⟨s₁, hrun₁, hs₁⟩ := hs.addTask
    obtain ⟨s₂, hrun₂, hs₂⟩ := hs₁.process
    exact ⟨s₂, (hreach.runUnder hrun₁).runUnder hrun₂, hs₂⟩

/-- After one task more than `TRIGGER_GC_TASK_SIZE` has thrown, all of them are in the finished
queue. -/
theorem finished_overflow :
    ∃ s, loopSystem.Reachable s ∧ s.pc = .outside ∧
      s.ex.finishedQueue.length = triggerGcTaskSize + 1 := by
  obtain ⟨s, hreach, hs⟩ := exists_thrown (triggerGcTaskSize + 1)
  exact ⟨s, hreach, hs.pc, hs.finishedQueue⟩

end LoopState

end CoroutineCpp
