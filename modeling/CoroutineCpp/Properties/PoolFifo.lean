import CoroutineCpp.Properties.PoolSteps

/-!
# The thread pool is a queue

A worker copies the front of the task queue and removes it in two steps, but it holds the lock of
the queue across them, and neither a push nor another removal gets in between.  So what it removes
is what it copied (`HoldsFront`), and the tasks taken by all workers together, followed by those
still queued, are the accepted ones in the order of their pushes (`taken_append_tasks`).  No
condition is needed: where a worker meets an empty queue, nothing was there to be lost.
-/

namespace CoroutineCpp

open Framework TransitionSystem

namespace ThreadPool

variable {s s' : ThreadPool} {w : ℕ}

/-! ## The copy and the removal -/

/-- Where worker `w` stands in the critical section of `Runnable`, it holds the lock of the queue,
and what it has copied is still the front. -/
def HoldsFront (tasks : List TaskF) (queueLock : Option ℕ) (w : ℕ) : WorkerPc → Prop
  | .front => queueLock = some w
  | .pop fn => queueLock = some w ∧ tasks.head? = some fn
  | .unlockQueue _ => queueLock = some w
  | _ => True

variable {tasks tasks' : List TaskF} {queueLock queueLock' : Option ℕ} {pc : WorkerPc}

lemma HoldsFront.push (h : HoldsFront tasks queueLock w pc) (task : TaskF) :
    HoldsFront (tasks ++ [task]) queueLock w pc := by
  cases pc with
  | pop fn => exact ⟨h.1, by simp [List.head?_append, h.2]⟩
  | _ => exact h

/-- Nothing is claimed of a worker that does not hold the lock. -/
lemma HoldsFront.of_ne (h : HoldsFront tasks queueLock w pc) (hne : queueLock ≠ some w) :
    HoldsFront tasks' queueLock' w pc := by
  cases pc with
  | front => exact absurd h hne
  | pop fn => exact absurd h.1 hne
  | unlockQueue fn => exact absurd h hne
  | _ => trivial

lemma HoldsFront.notified (h : HoldsFront tasks queueLock w pc) :
    HoldsFront tasks queueLock w (notified pc) := by
  cases pc <;> exact h

/-- No worker comes to copy the front without taking the lock first. -/
lemma WorkerMove.holdsFront {pc pc' : WorkerPc} (h : WorkerMove s pc pc')
    (hok : HoldsFront s.tasks s.queueLock w pc) : HoldsFront s.tasks s.queueLock w pc' := by
  cases h with
  | front hhead => exact ⟨hok, hhead⟩
  | _ => trivial

/-! ## The order of the tasks -/

/-- The invariant of all runs. -/
structure Fifo (s : ThreadPool) : Prop where
  worker : ∀ w, HoldsFront s.tasks s.queueLock w (s.workers w)
  order : s.taken ++ s.tasks = s.accepted

/-- Worker `w` moves on, and what it knows holds in the new state. -/
lemma Fifo.worker_step (hw : s'.workers = Function.update s.workers w pc)
    (hok : HoldsFront s'.tasks s'.queueLock w pc)
    (hother : ∀ w', w' ≠ w → HoldsFront s'.tasks s'.queueLock w' (s.workers w'))
    (horder : s'.taken ++ s'.tasks = s'.accepted) : s'.Fifo where
  worker := by
    rw [hw]
    refine (Function.forall_update_iff s.workers fun w' pc =>
      HoldsFront s'.tasks s'.queueLock w' pc).mpr ⟨hok, hother⟩
  order := horder

lemma Effect.fifo {a : PoolAct} (h : Effect s a s') (hs : s.Fifo) : s'.Fifo := by
  cases h with
  | @workerMove w pc h =>
    exact .worker_step rfl (h.holdsFront (hs.worker w)) (fun w' _ => hs.worker w') hs.order
  | workerTakes | workerBlocks | workerGives =>
    exact .worker_step rfl trivial (fun w' _ => hs.worker w') hs.order
  | @lockQueue w hpc hfree =>
    refine .worker_step rfl rfl (fun w' _ => ?_) hs.order
    exact (hs.worker w').of_ne (by simp [hfree])
  | @pop w fn fn' rest ha hpc hq =>
    have hok : HoldsFront s.tasks s.queueLock w (.pop fn) := hpc ▸ hs.worker w
    obtain ⟨hlock, hhead⟩ := hok
    obtain rfl : fn' = fn := by simpa [hq] using hhead
    refine .worker_step rfl hlock (fun w' hne => ?_) ?_
    · exact (hs.worker w').of_ne (by simpa [hlock] using Ne.symm hne)
    · have horder := hs.order
      rw [hq] at horder
      simpa [setWorker] using horder
  | @unlockQueue w fn hpc =>
    have hlock : s.queueLock = some w := by
      have hok := hs.worker w
      rwa [hpc] at hok
    refine .worker_step rfl trivial (fun w' hne => ?_) hs.order
    exact (hs.worker w').of_ne (by simpa [hlock] using Ne.symm hne)
  | @push c task hpc hfree =>
    refine ⟨fun w => (hs.worker w).push task, ?_⟩
    simp only [setCaller, ← hs.order, List.append_assoc]
  | notifyAll => exact ⟨fun w => (hs.worker w).notified, hs.order⟩
  | spawn =>
    refine ⟨?_, hs.order⟩
    exact (Function.forall_update_iff s.workers fun w pc =>
      HoldsFront s.tasks s.queueLock w pc).mpr ⟨trivial, fun w _ => hs.worker w⟩
  | callerMove | callerTakes | callerGives | setStarted | setStopped | setStopping | join | detach
  | emptyDeque | notJoinable => exact ⟨hs.worker, hs.order⟩

/-- **First in, first out.**  In every state of every run the tasks taken by all workers together,
followed by those in the queue, are the tasks accepted by `SchedulerTask` in the order of their
pushes; so no task is taken more often than it was accepted. -/
theorem taken_append_tasks (h : poolSystem.Reachable s) :
    s.taken ++ s.tasks = s.accepted ∧ ∀ fn, s.taken.count fn ≤ s.accepted.count fn := by
  have hs : s.Fifo :=
    effect_invariant (fun _ => ⟨fun _ => trivial, rfl⟩) (fun _ _ _ hs _ h => h.fifo hs) h
  refine ⟨hs.order, fun fn => ?_⟩
  rw [← hs.order, List.count_append]
  exact Nat.le_add_right _ _

/-- Two workers take two of three tasks, and `Stop` is called. -/
theorem taken_append_tasks_three :
    ∃ s, poolSystem.Reachable s ∧ s.isStopping = true ∧ s.accepted = [7, 8, 9] ∧
      s.taken ++ s.tasks = [7, 8, 9] ∧ s.taken = [7, 8] := by
  obtain ⟨s, hs, hp⟩ := exists_reachable_of_runUnder (G := fun _ _ => True) (M := poolSystem)
    (List.flatten [[.start 0], List.replicate 6 (.caller 0), [.schedulerTask 0 7],
      List.replicate 6 (.caller 0), [.schedulerTask 0 8], List.replicate 6 (.caller 0),
      [.schedulerTask 0 9], List.replicate 6 (.caller 0), List.replicate 9 (.worker 1),
      List.replicate 4 (.worker 0), [.stop 0 true], List.replicate 2 (.caller 0),
      List.replicate 4 (.worker 0)])
    (fun s => s.isStopping && s.accepted = [7, 8, 9] && s.taken = [7, 8]) ⟨2, rfl⟩ (by decide)
  simp only [Bool.and_eq_true, decide_eq_true_eq] at hp
  obtain ⟨horder, -⟩ := taken_append_tasks hs
  exact ⟨s, hs, hp.1.1, hp.1.2, horder.trans hp.1.2, hp.2⟩

end ThreadPool

end CoroutineCpp
