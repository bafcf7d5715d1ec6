import CoroutineCpp.Properties.ReadyRuns
import CoroutineCpp.Properties.TaskPlacement

/-!
# The count of pending tasks

`GetValidTasksCount` adds the sizes of the runnable and the waiting queue, as the dispatcher does
for its load total.  A task that was woken is in neither: `valid_count_iff` says that between two
iterations of `Process` the count is right exactly while the awoken queue is empty, and that a
wakeup changes the count exactly if it wakes a task.
-/

namespace CoroutineCpp

open Framework TransitionSystem

/-- A step that submits new tasks only, is not a `Yield` and not a part of a `WakeupAllTasks`. -/
def HoldsOnly (s : Sched) (a : Act) : Prop :=
  Fresh s a ∧ a.isYield = false ∧ a.isWakerStep = false

instance (s : Sched) (a : Act) : Decidable (HoldsOnly s a) := inferInstanceAs (Decidable (_ ∧ _))

namespace Sched

/-- The tasks of executor `e`: those in its queues and the one on its CPU. -/
def tasksOf (s : Sched) (e : ℕ) : Finset CoTaskPtr :=
  (s.tasksAt e .runnable ++ s.tasksAt e .waiting ++ s.tasksAt e .awoken ++ s.tasksAt e .finished ++
    s.tasksAt e .cpu).toFinset

/-- The body of the task has returned or thrown. -/
def isOver (s : Sched) (tk : CoTaskPtr) : Bool :=
  (s.tasks tk).co.status = .finished || (s.tasks tk).co.status = .except

/-- The tasks of executor `e` that have not yet finished. -/
def pendingTasks (s : Sched) (e : ℕ) : Finset CoTaskPtr := (s.tasksOf e).filter (!s.isOver ·)

/-- Between two iterations of its `Process`, `GetValidTasksCount` of an executor is the number of
its tasks that have not yet finished. -/
def CountsPending (s : Sched) : Prop :=
  ∀ e < s.n, (s.pc e).onCpu = false →
    (s.executors e).getValidTasksCount = (s.pendingTasks e).card

/-- The step puts a task into an awoken queue. -/
def awakens (s : Sched) : Act → Bool
  | .wakeupFromEntry e entry => (s.wakeupFromEntry e entry).2
  | .wakeup entry => (s.wakeup entry).any Prod.snd
  | .wakeupAllTasks e => !(s.executors e).waitingQueue.isEmpty
  | _ => false

variable {s s' : Sched} {e timeoutMs nowMs : ℕ} {last : Bool}

/-! ## The tasks that count -/

/-- The three queues of pending tasks hold no task twice. -/
lemma Placed.pending_nodup (hp : s.Placed) (hs : s.Affine) (he : e < s.n) :
    (s.tasksAt e .runnable ++ s.tasksAt e .waiting ++ s.tasksAt e .awoken).Nodup := by
  have hr : (s.tasksAt e .runnable : Multiset CoTaskPtr) ≤ s.ledger.pool :=
    (le_total he fun e => (s.executors e).runnableQueue).trans (Multiset.le_add_right _ _)
  have hw : (s.tasksAt e .waiting : Multiset CoTaskPtr) ≤ s.ledger.waiting :=
    le_total he fun e => (s.executors e).waitingQueue
  have ha : (s.tasksAt e .awoken : Multiset CoTaskPtr) ≤ s.ledger.awoken :=
    le_total he fun e => (s.executors e).awokenQueue
  have hle : s.ledger.pool + s.ledger.waiting + s.ledger.awoken ≤ s.ledger.tokens := by
    rw [TaskLedger.tokens, add_assoc _ s.ledger.cpu, add_assoc _ (s.ledger.cpu + _)]
    exact Multiset.le_add_right _ _
  rw [← Multiset.coe_nodup, ← Multiset.coe_add, ← Multiset.coe_add]
  exact Multiset.nodup_of_le ((add_le_add (add_le_add hr hw) ha).trans hle) (hp.tokens_nodup hs)

/-- They hold the pending tasks of an executor whose thread runs nothing. -/
lemma Placed.pendingTasks_eq (hp : s.Placed) (hs : s.Affine) (he : e < s.n)
    (hpc : (s.pc e).onCpu = false) :
    s.pendingTasks e =
      (s.tasksAt e .runnable ++ s.tasksAt e .waiting ++ s.tasksAt e .awoken).toFinset := by
  have hover : ∀ tk, s.isOver tk = true ↔
      (s.tasks tk).co.status = .finished ∨ (s.tasks tk).co.status = .except := by
    simp [isOver]
  ext tk
  simp only [pendingTasks, tasksOf, Finset.mem_filter, List.mem_toFinset, List.mem_append,
    Bool.not_eq_true', ← Bool.not_eq_true, hover]
  constructor
  · rintro ⟨(h | hfin) | hcpu, hnot⟩
    · exact h
    · have hend : tk ∈ s.ended := Multiset.mem_add.mpr (.inl (mem_total.mpr ⟨e, he, hfin⟩))
      exact absurd (hp.ended_status tk hend) hnot
    · simp [tasksAt, hpc] at hcpu
  · intro h
    refine ⟨.inl (.inl h), ?_⟩
    rcases h with (hr | hw) | ha
    · rw [hs.pool_new tk (Affine.mem_pool_of_runnable he hr)]
      simp
    · exact hp.not_over (.inl hw)
    · exact hp.not_over (.inr ha)

/-- **The count leaves out what is awoken.** -/
lemma Placed.card_pendingTasks (hp : s.Placed) (hs : s.Affine) (he : e < s.n)
    (hpc : (s.pc e).onCpu = false) :
    (s.pendingTasks e).card =
      (s.executors e).getValidTasksCount + (s.executors e).awokenQueue.length := by
  rw [hp.pendingTasks_eq hs he hpc, List.toFinset_card_of_nodup (hp.pending_nodup hs he)]
  simp only [tasksAt, CoExecutor.getValidTasksCount, List.length_append]

/-! ## Wakeups -/

/-- `WakeupFromEntry` lowers the count if it wakes the task. -/
lemma wakeupFromEntry_count_iff {entry : RecoveryEntry} :
    ((s.wakeupFromEntry e entry).1.executors e).getValidTasksCount =
        (s.executors e).getValidTasksCount ↔ (s.wakeupFromEntry e entry).2 = false := by
  unfold wakeupFromEntry
  split
  next hmem =>
    have hpos := List.length_pos_of_mem hmem
    simp only [setExecutor, Function.update_self, CoExecutor.getValidTasksCount,
      List.length_erase_of_mem hmem, Bool.true_eq_false, iff_false]
    omega
  next => simp

/-- `WakeupAllTasks` lowers the count if a task waits. -/
lemma wakeupAllTasks_count_iff {ex : CoExecutor} :
    ex.wakeupAllTasks.getValidTasksCount = ex.getValidTasksCount ↔ ex.waitingQueue = [] := by
  rw [CoExecutor.wakeupAllTasks_eq]
  simp [CoExecutor.getValidTasksCount]

/-! ## Runs without wakeups -/

/-- A change of one executor. -/
lemma awokenQueue_update {ex' : CoExecutor} (hex : s'.executors = Function.update s.executors e ex')
    (hq : ex'.awokenQueue ⊆ (s.executors e).awokenQueue) (e' : ℕ) :
    (s'.executors e').awokenQueue ⊆ (s.executors e').awokenQueue := by
  rw [hex]
  by_cases heq : e' = e
  · subst heq
    rwa [Function.update_self]
  · rw [Function.update_of_ne heq]
    exact List.Subset.refl _

lemma KeepsReady.awokenQueue (h : KeepsReady s s') (e' : ℕ) :
    (s'.executors e').awokenQueue ⊆ (s.executors e').awokenQueue := by
  have heq : (s'.executors e').awokenQueue = (s.executors e').awokenQueue := h.readyQueue e' true
  rw [heq]
  exact List.Subset.refl _

/-- A pick takes from the awoken queue, if it touches it. -/
lemma pick_awokenQueue {nowUs : ℕ} (e' : ℕ) :
    ((s.pick e timeoutMs last nowUs nowMs).executors e').awokenQueue ⊆
      (s.executors e').awokenQueue := by
  simp only [Sched.pick]
  cases hc : (s.executors e).chooseQueue last with
  | none =>
    refine awokenQueue_update (e := e) rfl ?_ e'
    exact List.Subset.refl _
  | some b =>
    obtain ⟨ex, last₂, hassign, hq⟩ : ∃ ex last₂,
        (s.executors e).assignRunnableTask b = some (ex, last₂) ∧
          ex.awokenQueue ⊆ (s.executors e).awokenQueue := by
      rcases CoExecutor.assignRunnableTask_of_chooseQueue hc with
        ⟨-, tk, rest, hq, hassign⟩ | ⟨-, tk, rest, -, hassign⟩
      · exact ⟨_, _, hassign, by rw [hq]; exact List.subset_cons_self tk rest⟩
      · exact ⟨_, _, hassign, List.Subset.refl _⟩
    simp only [hassign, Sched.runTask]
    split
    · exact List.Subset.refl _
    · split
      · exact List.Subset.refl _
      · obtain ⟨ex', -, hex, -, -, hq', -⟩ := endIteration_update
          (setTask { s.setExecutor e (ex.beforeResume nowUs) with
            resumes := s.resumes ++ [(ex.runningTask, e)] } ex.runningTask
              { s.tasks ex.runningTask with proc := some e })
          e timeoutMs last₂ nowMs
        have hawoken : ex'.awokenQueue = ex.awokenQueue := by
          simpa [setTask, setExecutor, CoExecutor.beforeResume] using hq' true
        exact awokenQueue_update (hex.trans (Function.update_idem ..)) (hawoken ▸ hq) e'
      · refine awokenQueue_update (e := e) rfl ?_ e'
        exact hq

/-- **Only a wakeup puts a task into an awoken queue.** -/
lemma act_awokenQueue {a : Act} (h : s.act a = some s') (hw : a.isWakerStep = false)
    (ha : s.awakens a = false) (e' : ℕ) :
    (s'.executors e').awokenQueue ⊆ (s.executors e').awokenQueue := by
  have hpass : ∀ (d' : DispatchState) (t' : Executors),
      (∀ e, t' e = { s.executors e with runnableQueue := (t' e).runnableQueue }) →
      (t' e').awokenQueue ⊆ (s.executors e').awokenQueue := fun d' t' hframe => by
    rw [hframe e']
    exact List.Subset.refl _
  have hwake : ∀ e entry, (s.wakeupFromEntry e entry).2 = false →
      ((s.wakeupFromEntry e entry).1.executors e').awokenQueue ⊆
        (s.executors e').awokenQueue := fun e entry hfalse => by
    unfold Sched.wakeupFromEntry at hfalse ⊢
    split at hfalse
    · cases hfalse
    next hmem =>
      rw [if_neg hmem]
      exact List.Subset.refl _
  cases act_move h with
  | @addTask e tk | @schedulerTask _ tk =>
    refine awokenQueue_update rfl ?_ e'
    rw [CoExecutor.addTask_fst]
    exact List.Subset.refl _
  | @addTasks e tks =>
    refine awokenQueue_update (e := e) rfl ?_ e'
    rw [CoExecutor.addTasks_fst]
    exact List.Subset.refl _
  | schedulerTaskStopped | wakeupUninitialised | passOutOfBounds | process | exitLoop
  | wakeupInvalid | wakerStart | passStart | keepRef | dropRef => exact List.Subset.refl _
  | pick => exact pick_awokenQueue e'
  | wake hpc | timeout hpc => exact (KeepsReady.resumeLoop hpc).awokenQueue e'
  | hold hpc => exact (KeepsReady.hold hpc).awokenQueue e'
  | holdPush hpc => exact (KeepsReady.holdPush (by rw [hpc]; rfl)).awokenQueue e'
  | holdSwitch hpc => exact (KeepsReady.holdSwitch (by rw [hpc]; rfl)).awokenQueue e'
  | yield hpc => exact (KeepsReady.yieldCurrent (by rw [hpc]; rfl)).awokenQueue e'
  | finish hpc | throw hpc => exact (KeepsReady.switchOut (by rw [hpc]; rfl)).awokenQueue e'
  | @wakeupFromEntry e entry => exact hwake e entry ha
  | @wakeup entry p hvalid hproc =>
    refine hwake p entry ?_
    simpa [awakens, Sched.wakeup, hvalid, hproc] using ha
  | @wakeupAllTasks e =>
    have hnil : (s.executors e).waitingQueue = [] := by simpa [awakens] using ha
    refine awokenQueue_update (e := e) rfl ?_ e'
    rw [CoExecutor.wakeupAllTasks_eq, hnil, List.append_nil]
    exact List.Subset.refl _
  | wakerStep => cases hw
  | dispatch => exact hpass {} _ (PassStep.frame (dispatchTasksEqually_run _ _ _))
  | passStep hstep => exact hpass {} _ (DispatchState.step_frame hstep)
  | @clean e =>
    refine awokenQueue_update (e := e) rfl ?_ e'
    exact List.Subset.refl _
  | stop => exact (KeepsReady.stop s).awokenQueue e'

lemma holdsOnly_placed (h : schedSystem.ReachableUnder HoldsOnly s) : s.Affine ∧ s.Placed :=
  reachable_placed (fun _ _ hG => ⟨hG.1, hG.2.2⟩) h

/-- In a run that wakes nothing the count is right. -/
lemma countsPending_of_reachable
    (h : schedSystem.ReachableUnder (fun s a => HoldsOnly s a ∧ s.awakens a = false) s) :
    s.CountsPending := by
  have hnil : ∀ e, (s.executors e).awokenQueue = [] := by
    refine h.invariant (I := fun s => ∀ e, (s.executors e).awokenQueue = []) (fun s hs => ?_)
      fun s a s' _ hs hG hstep e => ?_
    · obtain ⟨n, id, rfl⟩ := hs
      exact fun _ => rfl
    · have hsub := act_awokenQueue (act_of_step hstep) hG.1.2.2 hG.2 e
      rw [hs e] at hsub
      exact List.subset_nil.mp hsub
  obtain ⟨hs, hp⟩ := reachable_placed (fun _ _ hG => ⟨hG.1.1, hG.1.2.2⟩) h
  intro e he hpc
  rw [hp.card_pendingTasks hs he hpc, hnil e]
  rfl

/-- **When the count of pending tasks is right.**  Between two iterations `GetValidTasksCount` is
the number of tasks of the executor that have not finished exactly if its awoken queue is empty, so
always in a run that wakes no task; and a wakeup leaves the count alone exactly if it wakes none. -/
theorem valid_count_iff {tr : List (Sched × Act)} (h : schedSystem.Exec HoldsOnly tr s) :
    (∀ e < s.n, (s.pc e).onCpu = false →
      ((s.executors e).getValidTasksCount = (s.pendingTasks e).card ↔
        (s.executors e).awokenQueue = [])) ∧
    (AlwaysStep (fun s a => s.awakens a = false) tr → AlwaysState CountsPending tr s) ∧
    (∀ e entry, ((s.wakeupFromEntry e entry).1.executors e).getValidTasksCount =
      (s.executors e).getValidTasksCount ↔ (s.wakeupFromEntry e entry).2 = false) ∧
    (∀ e, (s.executors e).wakeupAllTasks.getValidTasksCount =
      (s.executors e).getValidTasksCount ↔ (s.executors e).waitingQueue = []) := by
  refine ⟨fun e he hpc => ?_, fun hC => ?_, fun _ _ => wakeupFromEntry_count_iff,
    fun _ => wakeupAllTasks_count_iff⟩
  · obtain ⟨hs, hp⟩ := holdsOnly_placed h.reachableUnder
    rw [hp.card_pendingTasks hs he hpc, left_eq_add, List.length_eq_zero_iff]
  · induction h with
    | init hs => exact (alwaysState_nil _ _).mpr (countsPending_of_reachable (.init hs))
    | step h hG hs ih =>
      have hreach := (Exec.step h hG hs).reachableUnder_and hC
      exact (alwaysState_cons _ _ _ _).mpr
        ⟨countsPending_of_reachable hreach, ih ((alwaysStep_cons _ _ _).mp hC).2⟩

/-- Three tasks on one executor: one returns, one is held, woken, resumed and held again, one is
still runnable. -/
theorem valid_count_iff_three_tasks :
    ∃ tr s, schedSystem.Exec HoldsOnly tr s ∧ s.wakes = [2] ∧
      (s.executors 0).getValidTasksCount = 2 ∧ (s.pendingTasks 0).card = 2 := by
  obtain ⟨s, hs, hp⟩ := exists_reachable_of_runUnder (G := HoldsOnly) (M := schedSystem)
    [.addTasks 0 [1, 2, 3], .process 0 0, .pick 0 0 0, .finish 0 0, .pick 0 0 0, .hold 0 0,
      .wakeupFromEntry 0 { tk := 2, id := 0 }, .pick 0 0 0, .hold 0 0]
    (fun s => s.n = 1 && s.pc 0 = .loop 0 true && s.wakes = [2] &&
      (s.executors 0).awokenQueue = [] && (s.executors 0).getValidTasksCount = 2)
    ⟨1, fun e => e, rfl⟩ (by decide)
  simp only [Bool.and_eq_true, decide_eq_true_eq] at hp
  obtain ⟨⟨⟨⟨hn, hpc⟩, hwakes⟩, hnil⟩, hcount⟩ := hp
  obtain ⟨tr, htr⟩ := hs.exists_exec
  have hiff := (valid_count_iff htr).1 0 (by omega) (by simp [hpc, ProcessPc.onCpu])
  exact ⟨tr, s, htr, hwakes, hcount, (hiff.mpr hnil).symm.trans hcount⟩

/-- One task, held and woken: the wakeup takes it out of the count. -/
theorem wakeup_lowers_count :
    ∃ s entry, schedSystem.ReachableUnder HoldsOnly s ∧ s.CountsPending ∧
      (s.wakeupFromEntry 0 entry).2 = true ∧
      (s.executors 0).getValidTasksCount = 1 ∧
      ((s.wakeupFromEntry 0 entry).1.executors 0).getValidTasksCount = 0 ∧
      ((s.wakeupFromEntry 0 entry).1.pendingTasks 0).card = 1 ∧
      ¬ (s.wakeupFromEntry 0 entry).1.CountsPending := by
  obtain ⟨s, hs, hp⟩ := exists_reachable_of_runUnder (M := schedSystem)
    (G := fun s a => HoldsOnly s a ∧ s.awakens a = false)
    [.addTask 0 1, .process 0 0, .pick 0 0 0, .hold 0 0]
    (fun s =>
      let s' := (s.wakeupFromEntry 0 { tk := 1, id := 0 }).1
      s'.n = 1 && s'.pc 0 = .loop 0 false && (s.wakeupFromEntry 0 { tk := 1, id := 0 }).2 &&
        (s.executors 0).getValidTasksCount = 1 && (s'.executors 0).getValidTasksCount = 0 &&
        (s'.pendingTasks 0).card = 1)
    ⟨1, fun e => e, rfl⟩ (by decide)
  simp only [Bool.and_eq_true, decide_eq_true_eq] at hp
  obtain ⟨⟨⟨⟨⟨hn, hpc⟩, hwoke⟩, hcount⟩, hcount'⟩, hcard⟩ := hp
  refine ⟨s, _, ?_, countsPending_of_reachable hs, hwoke, hcount, hcount', hcard, fun h => ?_⟩
  · exact hs.weaken fun _ _ hG => hG.1
  · have heq := h 0 (by omega) (by simp [hpc, ProcessPc.onCpu])
    omega

end Sched

end CoroutineCpp
