import CoroutineCpp.Properties.PoolSteps

/-!
# Taking from the task queue

A worker tests the queue, takes its lock and then reads and removes the front.  The test is made
before the lock is taken, so another worker may remove the last task in between.  `TakeOk` says what
is known at each of these points; it survives exactly the pops that do not do this (`LeavesTask`),
and then no worker meets an empty deque (`pop_never_empty`).

Two workers and one task are enough for it to happen (`pop_meets_empty`), and any pop that violates
the condition makes it possible (`exists_fault_of_pop`).
-/

namespace CoroutineCpp

open Framework TransitionSystem

namespace ThreadPool

variable {s s' : ThreadPool} {w : ℕ}

/-- Where the step pops the last task, no worker stands between its test of the queue and the
acquisition of the queue lock. -/
def leavesTask (s : ThreadPool) : PoolAct → Bool
  | .worker w =>
    match s.workers w with
    | .pop _ =>
      s.tasks.length ≠ 1 || (List.range s.threads).all fun w' => s.workers w' ≠ .lockQueue
    | _ => true
  | _ => true

/-- The steps that meet the condition. -/
def LeavesTask (s : ThreadPool) (a : PoolAct) : Prop := s.leavesTask a = true

instance (s : ThreadPool) (a : PoolAct) : Decidable (LeavesTask s a) :=
  inferInstanceAs (Decidable (_ = true))

/-! ## What a worker knows -/

/-- What holds of the queue and its lock where worker `w` stands at the given point. -/
def WorkerOk (tasks : List TaskF) (queueLock : Option ℕ) (w : ℕ) : WorkerPc → Prop
  | .lockQueue => tasks ≠ []
  | .front => queueLock = some w ∧ tasks ≠ []
  | .pop fn => queueLock = some w ∧ tasks.head? = some fn
  | .unlockQueue _ => queueLock = some w
  | _ => True

variable {tasks tasks' : List TaskF} {queueLock queueLock' : Option ℕ} {pc : WorkerPc}

/-- A push keeps it. -/
lemma WorkerOk.push (h : WorkerOk tasks queueLock w pc) (task : TaskF) :
    WorkerOk (tasks ++ [task]) queueLock w pc := by
  cases pc with
  | lockQueue => simp [WorkerOk]
  | front => exact ⟨h.1, by simp⟩
  | pop fn => exact ⟨h.1, by simp [List.head?_append, h.2]⟩
  | _ => exact h

/-- A worker without the lock relies on the tasks only where it is about to take the lock. -/
lemma WorkerOk.of_not_holds (h : WorkerOk tasks queueLock w pc) (hne : queueLock ≠ some w)
    (ht : pc = .lockQueue → tasks' ≠ []) : WorkerOk tasks' queueLock' w pc := by
  cases pc with
  | lockQueue => exact ht rfl
  | front => exact absurd h.1 hne
  | pop fn => exact absurd h.1 hne
  | unlockQueue fn => exact absurd h hne
  | _ => trivial

lemma WorkerOk.notified (h : WorkerOk tasks queueLock w pc) :
    WorkerOk tasks queueLock w (notified pc) := by
  cases pc <;> exact h

/-- The invariant of the runs that meet `LeavesTask`. -/
structure TakeOk (s : ThreadPool) : Prop where
  worker : ∀ w, WorkerOk s.tasks s.queueLock w (s.workers w)
  unborn : ∀ w, s.threads ≤ w → s.workers w = .unborn
  fault : s.fault ≠ some .emptyDeque

/-- A worker that has been created moves on. -/
lemma TakeOk.worker_step (h : s.TakeOk) (hborn : s.workers w ≠ .unborn)
    (hw : s'.workers = Function.update s.workers w pc) (hthreads : s'.threads = s.threads)
    (hf : s'.fault = s.fault) (hok : WorkerOk s'.tasks s'.queueLock w pc)
    (hother : ∀ w', w' ≠ w → WorkerOk s'.tasks s'.queueLock w' (s.workers w')) : s'.TakeOk where
  worker := by
    intro w'
    rw [hw]
    by_cases heq : w' = w
    · subst heq
      simpa using hok
    · simpa [heq] using hother w' heq
  unborn := by
    intro w' hw'
    rw [hthreads] at hw'
    have hne : w' ≠ w := by
      rintro rfl
      exact hborn (h.unborn w' hw')
    simpa [hw, hne] using h.unborn w' hw'
  fault := hf ▸ h.fault

/-- A step that moves no worker and leaves the queue alone. -/
lemma TakeOk.congr (h : s.TakeOk) (hw : s'.workers = s.workers) (hthreads : s'.threads = s.threads)
    (hf : s'.fault ≠ some .emptyDeque) (ht : s'.tasks = s.tasks)
    (hq : s'.queueLock = s.queueLock) : s'.TakeOk :=
  ⟨by simpa only [hw, ht, hq] using h.worker, by simpa only [hw, hthreads] using h.unborn, hf⟩

lemma WorkerMove.born {pc pc' : WorkerPc} (h : WorkerMove s pc pc') : pc ≠ .unborn := by
  cases h <;> simp

lemma WorkerMove.workerOk {pc pc' : WorkerPc} (h : WorkerMove s pc pc')
    (hok : WorkerOk s.tasks s.queueLock w pc) : WorkerOk s.tasks s.queueLock w pc' := by
  cases h with
  | ready hne => exact hne
  | front hhead => exact ⟨hok.1, hhead⟩
  | _ => trivial

lemma Effect.takeOk {a : PoolAct} (h : Effect s a s') (hG : LeavesTask s a) (hs : s.TakeOk) :
    s'.TakeOk := by
  cases h with
  | @workerMove w pc h =>
    exact hs.worker_step h.born rfl rfl rfl (h.workerOk (hs.worker w)) fun w' _ => hs.worker w'
  | workerTakes hpc | workerBlocks hpc | workerGives hpc =>
    exact hs.worker_step (by simp [hpc]) rfl rfl rfl trivial fun w' _ => hs.worker w'
  | @lockQueue w hpc hfree =>
    have hok : WorkerOk s.tasks s.queueLock w .lockQueue := hpc ▸ hs.worker w
    refine hs.worker_step (by simp [hpc]) rfl rfl rfl ⟨rfl, hok⟩ fun w' _ => ?_
    exact (hs.worker w').of_not_holds (by simp [hfree]) fun hlock => by
      have hok' := hs.worker w'
      rwa [hlock] at hok'
  | @pop w fn fn' rest ha hpc hq =>
    have hok : WorkerOk s.tasks s.queueLock w (.pop fn) := hpc ▸ hs.worker w
    refine hs.worker_step (by simp [hpc]) rfl rfl rfl hok.1 fun w' hne => ?_
    refine (hs.worker w').of_not_holds (by simpa [hok.1] using Ne.symm hne) fun hlock => ?_
    -- another worker has tested the queue: this is not the last task
    have hlt : w' < s.threads := by
      by_contra hge
      simp [hs.unborn w' (Nat.le_of_not_lt hge)] at hlock
    subst ha
    simp only [LeavesTask, leavesTask, hpc, hq, Bool.or_eq_true, decide_eq_true_eq,
      List.all_eq_true, List.mem_range] at hG
    rcases hG with hlen | hall
    · rintro rfl
      simp at hlen
    · exact absurd hlock (hall w' hlt)
  | @unlockQueue w fn hpc =>
    have hok : WorkerOk s.tasks s.queueLock w (.unlockQueue fn) := hpc ▸ hs.worker w
    have hlock : s.queueLock = some w := hok
    refine hs.worker_step (by simp [hpc]) rfl rfl rfl trivial fun w' hne => ?_
    refine (hs.worker w').of_not_holds (by simpa [hlock] using Ne.symm hne) fun hlock' => ?_
    have hok' := hs.worker w'
    rwa [hlock'] at hok'
  | push => exact ⟨fun w => (hs.worker w).push _, hs.unborn, hs.fault⟩
  | notifyAll =>
    refine ⟨fun w => (hs.worker w).notified, fun w hw => ?_, hs.fault⟩
    simp [hs.unborn w hw, ThreadPool.notified]
  | spawn =>
    refine ⟨fun w => ?_, fun w hw => ?_, hs.fault⟩
    · simp only [setWorker, setCaller, Function.update_apply]
      split
      · trivial
      · exact hs.worker w
    · have hlt : s.threads < w := hw
      simpa [setWorker, setCaller, Nat.ne_of_gt hlt] using hs.unborn w (Nat.le_of_lt hlt)
  | @emptyDeque w hpc hnil =>
    -- whoever reads or removes the front has the lock, and has seen a task
    exfalso
    have hok := hs.worker w
    rcases hpc with hpc | ⟨fn, hpc⟩ <;> rw [hpc] at hok
    · exact hok.2 hnil
    · simp [WorkerOk, hnil] at hok
  | notJoinable => exact hs.congr rfl rfl (by simp) rfl rfl
  | _ => exact hs.congr rfl rfl hs.fault rfl rfl

/-! ## Runs -/

lemma init_takeOk (n : ℕ) : TakeOk { threadCount := n } :=
  ⟨fun _ => trivial, fun _ _ => rfl, by simp⟩

lemma reachable_takeOk (h : poolSystem.ReachableUnder LeavesTask s) : s.TakeOk :=
  effect_invariant init_takeOk (fun _ _ _ hs hG h => h.takeOk hG hs) h

/-- **Workers never take from an empty queue.**  In a run in which no worker pops the last task
while another stands between its test of the queue and the queue lock, `FrontNoLock` and
`PopFrontUnsafe` meet no empty deque. -/
theorem pop_never_empty (h : poolSystem.ReachableUnder LeavesTask s) :
    s.fault ≠ some .emptyDeque :=
  (reachable_takeOk h).fault

/-! ## The race -/

/-- `Start` of a pool of two workers, and the submission of one task. -/
def startTwo : List PoolAct :=
  .start 0 :: List.replicate 6 (.caller 0) ++ .schedulerTask 0 7 :: List.replicate 6 (.caller 0)

/-- Two workers compete for one task; the one that comes second finds the queue empty in its
test. -/
theorem pop_never_empty_two_workers :
    ∃ s, poolSystem.ReachableUnder LeavesTask s ∧ s.taken = [7] ∧ s.workers 1 = .loop ∧
      s.fault ≠ some .emptyDeque := by
  obtain ⟨s, hs, hp⟩ := exists_reachable_of_runUnder (G := LeavesTask) (M := poolSystem)
    (List.flatten [startTwo, List.replicate 4 (.worker 0), List.replicate 4 (.worker 1),
      List.replicate 6 (.worker 0), [.worker 1]])
    (fun s => s.taken = [7] && s.workers 1 = .loop) ⟨2, rfl⟩ (by decide)
  simp only [Bool.and_eq_true, decide_eq_true_eq] at hp
  exact ⟨s, hs, hp.1, hp.2, pop_never_empty hs⟩

/-- Both workers pass their test before either takes the lock: the second `FrontNoLock` meets an
empty deque. -/
theorem pop_meets_empty :
    ∃ s, poolSystem.Reachable s ∧ s.accepted = [7] ∧ s.workers 1 = .front ∧
      s.fault = some .emptyDeque := by
  obtain ⟨s, hs, hp⟩ := exists_reachable_of_runUnder (G := fun _ _ => True) (M := poolSystem)
    (List.flatten [startTwo, List.replicate 5 (.worker 0), List.replicate 5 (.worker 1),
      List.replicate 4 (.worker 0), List.replicate 2 (.worker 1)])
    (fun s => s.accepted = [7] && s.workers 1 = .front && s.fault = some .emptyDeque)
    ⟨2, rfl⟩ (by decide)
  simp only [Bool.and_eq_true, decide_eq_true_eq] at hp
  exact ⟨s, hs, hp.1.1, hp.1.2, hp.2⟩

/-- **The condition is tight.**  After any pop that violates it, three steps bring another worker to
`FrontNoLock` on the empty queue. -/
theorem exists_fault_of_pop {a : PoolAct} (hG : ¬ LeavesTask s a) (h : s.step a = some s') :
    ∃ as, (poolSystem.runUnder (fun _ _ => True) s' as).map fault = some (some .emptyDeque) := by
  cases a with
  | worker w =>
    cases hpc : s.workers w with
    | pop fn =>
      simp only [LeavesTask, leavesTask, hpc, Bool.or_eq_true, decide_eq_true_eq, not_or,
        Decidable.not_not, List.all_eq_true, List.mem_range, not_forall] at hG
      obtain ⟨hlen, w', -, hw'⟩ := hG
      obtain ⟨fn', hq⟩ := List.length_eq_one_iff.mp hlen
      have hne : w' ≠ w := by
        rintro rfl
        simp [hpc] at hw'
      obtain ⟨hfault, h⟩ := Option.ite_none_left_eq_some.mp h
      simp only [workerStep, hpc, hq, ThreadSafeDeque.popFront_cons, Option.some.injEq] at h
      subst h
      -- the lock is given back, the other worker takes it and reads the front
      refine ⟨[.worker w, .worker w', .worker w'], ?_⟩
      simp [runUnder, poolSystem, step, workerStep, setWorker, hw', hne, hfault,
        ThreadSafeDeque.front]
    | _ => simp [LeavesTask, leavesTask, hpc] at hG
  | _ => simp [LeavesTask, leavesTask] at hG

end ThreadPool

end CoroutineCpp
