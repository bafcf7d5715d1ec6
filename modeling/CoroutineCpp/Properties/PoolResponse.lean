import CoroutineCpp.Framework.Accounting
import CoroutineCpp.Properties.PoolProgress

/-!
# A queued task is soon taken

While the queue is not empty, each step of a worker brings it nearer to the pop of a task.  So the
steps of all workers are paid for by the ways they have to go (`ways`), by the tasks they take,
after each of which a worker starts anew, and by the workers that come to life (`step_ways`).  The
queue being first in, first out, a task waits for those ahead of it and for no others
(`task_taken_within`).
-/

namespace CoroutineCpp

open Framework TransitionSystem

lemma WorkerPc.way_le (pc : WorkerPc) : pc.way ≤ 12 := by
  cases pc with
  | blocked notified => cases notified <;> simp [WorkerPc.way]
  | _ => simp [WorkerPc.way]

/-- A step of a worker. -/
def PoolAct.ofWorker : PoolAct → Bool
  | .worker _ | .spurious _ => true
  | _ => false

namespace ThreadPool

variable {s s' s₀ : ThreadPool} {w c : ℕ} {a : PoolAct} {fn : TaskF} {ahead behind : List TaskF}
  {tr : List (ThreadPool × PoolAct)}

/-! ## The ways of the workers -/

/-- The ways of all workers together. -/
def ways (s : ThreadPool) : ℕ := ∑ w ∈ Finset.range s.threads, (s.workers w).way

lemma ways_le (s : ThreadPool) : s.ways ≤ 12 * s.threads := by
  calc s.ways ≤ ∑ w ∈ Finset.range s.threads, 12 :=
        Finset.sum_le_sum fun w _ => (s.workers w).way_le
    _ = 12 * s.threads := by
        rw [Finset.sum_const_nat fun _ _ => rfl, Finset.card_range, Nat.mul_comm]

/-- A worker moves on. -/
lemma ways_worker {pc : WorkerPc} (hw : w < s.threads) (hthreads : s'.threads = s.threads)
    (hworkers : s'.workers = Function.update s.workers w pc) :
    s'.ways + (s.workers w).way = s.ways + pc.way := by
  have hsum := sum_agree_off (Finset.mem_range.mpr hw) (f := fun w => (s.workers w).way)
    (g := fun w => (s'.workers w).way) fun j hj => by simp [hworkers, hj]
  simpa [ways, hthreads, hworkers] using hsum

/-- With something in the queue, a step of a worker shortens its way, but for the one by which it
takes a task. -/
lemma workerStep_way (hne : s.tasks ≠ []) (h : s.workerStep w = some s') :
    ∃ pc, s'.workers = Function.update s.workers w pc ∧ s'.threads = s.threads ∧
      1 + pc.way + 10 * s.taken.length ≤ (s.workers w).way + 10 * s'.taken.length := by
  obtain ⟨fn, rest, hq⟩ := List.exists_cons_of_ne_nil hne
  unfold workerStep at h
  cases hpc : s.workers w with
  | unborn | done => simp [hpc] at h
  | blocked notified =>
    simp only [hpc] at h
    obtain ⟨-, h⟩ := Option.ite_none_right_eq_some.mp h
    obtain rfl := Option.some.inj h
    refine ⟨_, rfl, rfl, ?_⟩
    cases notified <;> simp [WorkerPc.way, setWorker]
  | loop =>
    simp only [hpc, Option.some.injEq] at h
    subst h
    refine ⟨_, rfl, rfl, ?_⟩
    split <;> simp [WorkerPc.way, setWorker]
  | evaluate | test =>
    simp only [hpc, hq] at h
    obtain ⟨-, h⟩ := Option.ite_none_right_eq_some.mp h
    obtain rfl := Option.some.inj h
    exact ⟨_, rfl, rfl, by simp [WorkerPc.way, setWorker]⟩
  | acquire | lockQueue =>
    simp only [hpc] at h
    obtain ⟨-, h⟩ := Option.ite_none_right_eq_some.mp h
    obtain rfl := Option.some.inj h
    exact ⟨_, rfl, rfl, by simp [WorkerPc.way, setWorker]⟩
  | front | pop fn' =>
    simp only [hpc, hq, ThreadSafeDeque.front_cons, ThreadSafeDeque.popFront_cons,
      Option.some.injEq] at h
    subst h
    refine ⟨_, rfl, rfl, ?_⟩
    simp only [WorkerPc.way, setWorker, List.length_append, List.length_singleton]
    omega
  | block | release | unlockQueue fn' | run fn' =>
    simp only [hpc, Option.some.injEq] at h
    subst h
    exact ⟨_, rfl, rfl, by simp [WorkerPc.way, setWorker]⟩

/-- A caller brings no worker further from the queue, but may start one. -/
lemma callerStep_ways (h : s.callerStep c = some s') :
    s'.taken = s.taken ∧ s'.ways + 8 * s.threads ≤ s.ways + 8 * s'.threads := by
  unfold callerStep at h
  cases hpc : s.callers c with
  | notifyAll k =>
    simp only [hpc, Option.some.injEq] at h
    subst h
    refine ⟨rfl, Nat.add_le_add_right ?_ _⟩
    exact Finset.sum_le_sum fun w _ => notified_way_le (s.workers w)
  | spawn left =>
    cases left with
    | zero =>
      simp only [hpc, Option.some.injEq] at h
      subst h
      exact ⟨rfl, Nat.le_refl _⟩
    | succ left =>
      simp only [hpc, Option.some.injEq] at h
      subst h
      have hsame : ∑ w ∈ Finset.range s.threads,
          (Function.update s.workers s.threads .loop w).way = s.ways :=
        Finset.sum_congr rfl fun w hw => by
          rw [Function.update_of_ne (Finset.mem_range.mp hw).ne]
      refine ⟨rfl, ?_⟩
      simp only [ways, setWorker, setCaller, Finset.sum_range_succ, Function.update_self] at hsame ⊢
      rw [hsame, WorkerPc.way]
      omega
  | _ =>
    simp only [hpc] at h
    repeat' split at h
    all_goals cases h <;> exact ⟨rfl, Nat.le_refl _⟩

/-- **One step**, with the tasks taken and the workers started paid for. -/
lemma step_ways (hplaced : s.Placed) (hne : s.tasks ≠ []) (h : s.step a = some s') :
    (if a.ofWorker = true then 1 else 0) + s'.ways + (10 * s.taken.length + 8 * s.threads) ≤
      s.ways + (10 * s'.taken.length + 8 * s'.threads) := by
  have hborn : ∀ w, s.workers w ≠ .unborn → w < s.threads := fun w hw =>
    Nat.lt_of_not_le (mt (hplaced.unborn w) hw)
  obtain ⟨-, h⟩ := Option.ite_none_left_eq_some.mp h
  cases a with
  | schedulerTask c task | start c | stop c join =>
    obtain ⟨-, h⟩ := Option.ite_none_right_eq_some.mp h
    obtain rfl := Option.some.inj h
    simp [PoolAct.ofWorker, setCaller, ways]
  | caller c =>
    obtain ⟨htaken, hle⟩ := callerStep_ways h
    simp only [PoolAct.ofWorker, htaken, Bool.false_eq_true, if_false]
    omega
  | worker w =>
    obtain ⟨pc, hworkers, hthreads, hle⟩ := workerStep_way hne h
    have hw : w < s.threads := hborn w fun hunborn => by simp [workerStep, hunborn] at h
    have hsum := ways_worker hw hthreads hworkers
    simp only [PoolAct.ofWorker, hthreads, if_true]
    omega
  | spurious w =>
    dsimp only at h
    split at h
    next b hpc =>
      obtain rfl := Option.some.inj h
      have hsum : (s.setWorker w .acquire).ways + (s.workers w).way =
          s.ways + WorkerPc.acquire.way := ways_worker (hborn w (by simp [hpc])) rfl rfl
      have hway : 8 ≤ (s.workers w).way := by
        rw [hpc]
        cases b <;> simp [WorkerPc.way]
      have hacquire : WorkerPc.acquire.way = 7 := rfl
      simp only [PoolAct.ofWorker, setWorker, if_true] at hsum ⊢
      omega
    · cases h

/-! ## What a run adds to -/

lemma step_grows (h : s.step a = some s') :
    s.accepted <+: s'.accepted ∧ s.taken <+: s'.taken ∧ s.threads ≤ s'.threads := by
  cases step_effect h with
  | pop => exact ⟨List.prefix_rfl, List.prefix_append _ _, Nat.le_refl _⟩
  | push => exact ⟨List.prefix_append _ _, List.prefix_rfl, Nat.le_refl _⟩
  | spawn => exact ⟨List.prefix_rfl, List.prefix_rfl, Nat.le_succ _⟩
  | _ => exact ⟨List.prefix_rfl, List.prefix_rfl, Nat.le_refl _⟩

lemma run_grows (h : (poolSystem.startAt s₀).Reachable s) :
    s₀.accepted <+: s.accepted ∧ s₀.taken <+: s.taken ∧ s₀.threads ≤ s.threads := by
  refine h.invariant_startAt (I := fun s => s₀.accepted <+: s.accepted ∧ s₀.taken <+: s.taken ∧
    s₀.threads ≤ s.threads) ⟨List.prefix_rfl, List.prefix_rfl, Nat.le_refl _⟩
    fun s a s' _ hs _ hstep => ?_
  obtain ⟨hacc, htaken, hthreads⟩ := step_grows hstep
  exact ⟨hs.1.trans hacc, hs.2.1.trans htaken, Nat.le_trans hs.2.2 hthreads⟩

/-! ## A task that is not taken yet -/

/-- The tasks of a queue, as the pool goes on. -/
lemma line_grows (h₀ : poolSystem.Reachable s₀) (h : (poolSystem.startAt s₀).Reachable s) :
    s₀.taken ++ s₀.tasks <+: s.taken ++ s.tasks := by
  rw [(reachable_fifo h₀).order, (reachable_fifo (.of_startAt h₀ h)).order]
  exact (run_grows h).1

/-- Until a task is taken, there is something in the queue. -/
lemma tasks_ne_nil (h₀ : poolSystem.Reachable s₀) (hq : s₀.tasks = ahead ++ fn :: behind)
    (h : (poolSystem.startAt s₀).Reachable s)
    (hlen : s.taken.length ≤ s₀.taken.length + ahead.length) : s.tasks ≠ [] := by
  have hle := (line_grows h₀ h).length_le
  intro hnil
  simp only [hq, hnil, List.length_append, List.length_cons, List.length_nil] at hle
  omega

lemma exec_queued (h₀ : poolSystem.Reachable s₀) (hq : s₀.tasks = ahead ++ fn :: behind)
    (h : (poolSystem.startAt s₀).Exec (fun _ _ => True) tr s)
    (hlen : s.taken.length ≤ s₀.taken.length + ahead.length) :
    (poolSystem.startAt s₀).Exec (fun s _ => s.tasks ≠ []) tr s := by
  induction h with
  | init hs => exact .init hs
  | @step tr s s' a hrun _ hstep ih =>
    have hle := (step_grows hstep).2.1.length_le
    have hlen' : s.taken.length ≤ s₀.taken.length + ahead.length := Nat.le_trans hle hlen
    exact .step (ih hlen') (tasks_ne_nil h₀ hq hrun.reachableUnder hlen') hstep

/-- **A queued task is soon taken.**  From any reachable state, in any run, with any calls of
`SchedulerTask`, `Start` and `Stop` and any wakeups: a task with `k` tasks ahead of it is taken,
after these, before the workers have made more than `12 * n + 10 * k` steps, with `n` the number of
workers.  Until then, in a pool that is not stopping and has met no fault, a thread that is at work
can go on. -/
theorem task_taken_within (h₀ : poolSystem.Reachable s₀) (hq : s₀.tasks = ahead ++ fn :: behind)
    (h : (poolSystem.startAt s₀).Exec (fun _ _ => True) tr s) :
    s₀.taken ++ (ahead ++ [fn]) <+: s.taken ∨
      countSteps (fun _ a => a.ofWorker = true) tr ≤ 12 * s.threads + 10 * ahead.length ∧
        (s.isStopping = false → s.fault = none → (∃ w, s.workers w ≠ .unborn) →
          ∃ a s', a.goesOn = true ∧ s.step a = some s') := by
  by_cases hlen : s.taken.length ≤ s₀.taken.length + ahead.length
  · right
    have hne := tasks_ne_nil h₀ hq h.reachableUnder hlen
    constructor
    · have hbound := (countSteps_add_rank_le_credit (D := fun _ a => a.ofWorker = true)
        (I := fun s => poolSystem.Reachable s) ways
        (fun _ s => 10 * s.taken.length + 8 * s.threads) (exec_queued h₀ hq h hlen) h₀
        fun _ s a s' hs hne hstep =>
          ⟨reachable_step hs hstep, step_ways (reachable_placed hs) hne hstep⟩).2
      have hways := s₀.ways_le
      have hthreads := (run_grows h.reachableUnder).2.2
      omega
    · rintro hrun hf ⟨w, hw⟩
      have hbusy : s.Busy w s.tasks s.taken :=
        ⟨.of_startAt h₀ h.reachableUnder, hf, hrun, rfl, rfl, hw⟩
      exact hbusy.canReach_drained.exists_step fun hdrained => hne hdrained.tasks
  · left
    have hfirst : s₀.taken ++ (ahead ++ [fn]) <+: s₀.taken ++ s₀.tasks := by
      refine ⟨behind, ?_⟩
      rw [hq, List.append_assoc, List.append_assoc, List.singleton_append]
    refine List.prefix_of_prefix_length_le (hfirst.trans (line_grows h₀ h.reachableUnder))
      (List.prefix_append _ _) ?_
    simp only [List.length_append, List.length_singleton]
    omega

/-- Two workers and two tasks.  Once both are taken the workers sleep, and one of them comes back
for nothing. -/
theorem task_taken_within_two_workers :
    ∃ s₀ tr s, poolSystem.Reachable s₀ ∧ s₀.tasks = [7, 8] ∧
      (poolSystem.startAt s₀).Exec (fun _ _ => True) tr s ∧ s.threads = 2 ∧
      countSteps (fun _ a => a.ofWorker = true) tr = 36 ∧ s₀.taken ++ ([7] ++ [8]) <+: s.taken := by
  obtain ⟨s₀, h₀, hp⟩ := exists_reachable_of_runUnder (G := fun _ _ => True) (M := poolSystem)
    (List.flatten [[.start 0], List.replicate 6 (.caller 0), [.schedulerTask 1 7, .caller 1,
      .caller 1, .schedulerTask 2 8, .caller 2, .caller 2]])
    (fun s₀ => s₀.tasks = [7, 8] &&
      ((poolSystem.startAt s₀).traceUnder (fun _ _ => True) [] s₀ (List.flatten
        [List.replicate 10 (.worker 0), List.replicate 10 (.worker 1), List.replicate 4 (.worker 0),
          List.replicate 4 (.worker 1), .spurious 0 :: List.replicate 3 (.worker 0),
          .spurious 0 :: List.replicate 3 (.worker 0)])).map
        (fun q => decide (q.2.threads = 2 ∧
          countSteps (fun _ a => a.ofWorker = true) q.1 = 36)) = some true)
    ⟨2, rfl⟩ (by decide)
  simp only [Bool.and_eq_true, decide_eq_true_eq] at hp
  obtain ⟨hq, hrun⟩ := hp
  obtain ⟨tr, s, h, hend⟩ := exists_exec_of_traceUnder (M := poolSystem.startAt s₀) _
    (fun tr s => decide (s.threads = 2 ∧ countSteps (fun _ a => a.ofWorker = true) tr = 36))
    rfl hrun
  obtain ⟨hthreads, hcount⟩ := of_decide_eq_true hend
  refine ⟨s₀, tr, s, h₀, hq, h, hthreads, hcount, ?_⟩
  have hq' : s₀.tasks = [7] ++ 8 :: [] := hq
  rcases task_taken_within h₀ hq' h with htaken | ⟨hle, -⟩
  · exact htaken
  · simp [hcount, hthreads] at hle

end ThreadPool

end CoroutineCpp
