import CoroutineCpp.Properties.SchedSteps

/-!
# A coroutine stays with the executor that started it

The results of the affinity invariant, for runs that submit new tasks only.  All operations may
run in parts here: a body may stand between the push and the switch of a `Hold`, a
`WakeupAllTasks` between two of its queue calls, and a dispatcher pass between two of its queue
operations.

`executor_affinity` is about the tasks the dispatcher has still to hand out.  Its deque `stolen`
keeps a task after the hand-out, until the pass is over, and by then the executor that was
handed the task may run it (`stolen_mem_running`).
-/

namespace CoroutineCpp

open Framework TransitionSystem

namespace Sched

variable {s : Sched}

lemma reachable_affine (h : schedSystem.ReachableUnder Fresh s) : s.Affine :=
  (effect_invariant_of_waker (I := fun _ => True) (fun _ _ hG => hG) (fun _ _ => trivial)
    (fun _ _ _ _ _ => trivial) (fun _ _ _ _ _ => trivial) h).1

/-- **Executor affinity.**  All calls of `Resume` on a coroutine are made by one executor, the one
whose thread the coroutine has stored as its master and its successor; what is in a runnable queue
or still to be handed out is idle; and what is held or awoken belongs to the executor of the
queue. -/
theorem executor_affinity (h : schedSystem.ReachableUnder Fresh s) :
    (∀ tk e e', (tk, e) ∈ s.resumes → (tk, e') ∈ s.resumes → e = e') ∧
    (∀ tk e, (tk, e) ∈ s.resumes →
      (s.tasks tk).co.masterCo = some e ∧ (s.tasks tk).co.ucLink = some e) ∧
    (∀ e, e < s.n → ∀ tk ∈ (s.executors e).runnableQueue, (s.tasks tk).co.status = .idle) ∧
    (∀ tk ∈ s.disp.outstanding, (s.tasks tk).co.status = .idle) ∧
    (∀ e, ∀ tk ∈ (s.executors e).waitingQueue, (s.tasks tk).proc = some e) ∧
    (∀ e, ∀ tk ∈ (s.executors e).awokenQueue, tk ≠ nullptr → (s.tasks tk).proc = some e) ∧
    s.fault ≠ some .foreignContext := by
  have hs := reachable_affine h
  refine ⟨fun tk e e' he he' => ?_, fun tk e he => ?_, fun e he tk htk => ?_, fun tk htk => ?_,
    fun e tk htk => ?_, fun e tk htk hne => ?_, fun hf => ?_⟩
  · exact (hs.resumed_started tk e he).unique (hs.resumed_started tk e' he')
  · have htk := hs.resumed_started tk e he
    exact ⟨htk.masterCo, htk.ucLink⟩
  · rw [hs.pool_new tk (Affine.mem_pool_of_runnable he htk)]
  · rw [hs.pool_new tk (Multiset.mem_add.mpr (.inr htk))]
  · exact (hs.waiting_started e tk htk).proc
  · exact (hs.awoken_started e tk htk hne).proc
  · exact absurd (hs.fault_ofTask _ hf) (by simp [Fault.ofTask])

/-- A run in which a task is stolen and handed to the second executor, which starts it, holds it
and, once it is woken, resumes it. -/
theorem executor_affinity_stolen_task :
    ∃ s, schedSystem.ReachableUnder Fresh s ∧ s.resumes = [(2, 1), (2, 1)] ∧
      (s.tasks 2).co.masterCo = some 1 ∧ (s.tasks 2).co.ucLink = some 1 ∧
      (∀ e', (2, e') ∈ s.resumes → 1 = e') ∧ s.fault ≠ some .foreignContext := by
  obtain ⟨s, hs, hp⟩ := exists_reachable_of_runUnder (G := Fresh) (M := schedSystem)
    (List.flatten [[.addTasks 0 [1, 2], .passStart], List.replicate 9 (.passStep 0),
      [.process 1 0, .pick 1 0 0, .holdPush 1, .wakeupFromEntry 1 { tk := 2, id := 1 },
        .holdSwitch 1 0, .pick 1 0 0]])
    (fun s => s.resumes = [(2, 1), (2, 1)]) ⟨2, fun e => e, rfl⟩ (by decide)
  have hres : s.resumes = [(2, 1), (2, 1)] := by simpa using hp
  obtain ⟨hone, hmaster, -, -, -, -, hfault⟩ := executor_affinity hs
  have hmem : (2, 1) ∈ s.resumes := by simp [hres]
  exact ⟨s, hs, hres, (hmaster 2 1 hmem).1, (hmaster 2 1 hmem).2,
    fun e' he' => hone 2 1 e' hmem he', hfault⟩

/-- The pass has handed task `2` to the second executor and has still to hand out task `3`.  The
executor runs task `2`, which `stolen` has not let go of. -/
theorem stolen_mem_running :
    ∃ s, schedSystem.ReachableUnder Fresh s ∧ s.disp.pc ≠ .idle ∧
      ∃ tk ∈ s.disp.stolen, (s.tasks tk).co.status ≠ .idle := by
  obtain ⟨s, hs, hp⟩ := exists_reachable_of_runUnder (G := Fresh) (M := schedSystem)
    (List.flatten [[.addTasks 0 [1, 2, 3], .passStart], List.replicate 9 (.passStep 0),
      [.process 1 0, .pick 1 0 0]])
    (fun s => s.disp.pc ≠ .idle && s.disp.stolen.contains 2 && (s.tasks 2).co.status ≠ .idle)
    ⟨2, fun e => e, rfl⟩ (by decide)
  simp only [Bool.and_eq_true, decide_eq_true_eq, List.contains_iff_mem] at hp
  exact ⟨s, hs, hp.1.1, 2, hp.1.2, hp.2⟩

end Sched

end CoroutineCpp
