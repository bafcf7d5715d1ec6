import CoroutineCpp.Properties.SchedSteps

/-!
# The end of an executor and the coroutines it destroys

A coroutine is destroyed when the last pointer to its task goes away, and `~Coroutine` asserts
`CanDestroy()`.  `Owned` says why a coroutine that is running or suspended still has an owner: a
running one is the running task of an executor whose thread is in `Process`, and a suspended one
is kept by its own stack, where the by-value parameter `tk` of `HoldThere` (or the local `tk` of
`YieldCurrent`) lives as long as the coroutine is not resumed.  So the destruction of an executor
leaks what is still held there, and destroys none of it.

Nothing is assumed of the submissions: a task may be added twice, or added again when it is over.
-/

namespace CoroutineCpp

open Framework TransitionSystem Relation

/-! ## The dispatcher moves queued tasks only -/

namespace DispatchState

lemma step_runningTask {size : ℕ} {blocking : Bool} {d d' : DispatchState} {t t' : Executors}
    (h : d.step size blocking t = some (d', t')) (e : ℕ) :
    (t' e).runningTask = (t e).runningTask := by
  cases step_move h with
  | giveUp =>
    simp only [stealFrom]
    refine Sched.update_view CoExecutor.runningTask ?_ e
    rfl
  | handOut | handOutLast | rest =>
    refine Sched.update_view CoExecutor.runningTask ?_ e
    rw [CoExecutor.addTasks_fst]
  | _ => rfl

lemma passSteps_runningTask {size : ℕ} {blocking : ℕ → Bool} {p q : DispatchState × Executors}
    (h : ReflTransGen (PassStep size blocking) p q) (e : ℕ) :
    (q.2 e).runningTask = (p.2 e).runningTask := by
  induction h with
  | refl => rfl
  | tail _ hstep ih => exact (step_runningTask hstep e).trans ih

end DispatchState

namespace Sched

variable {s s' : Sched} {e timeoutMs nowMs : ℕ} {last : Bool}

/-! ## Who owns a coroutine that is not over -/

/-- A running coroutine is on the CPU of an executor, and a suspended one is kept by its stack. -/
structure Owned (s : Sched) : Prop where
  lt : ∀ e, s.pc e ≠ .outside → e < s.n
  onCpu : ∀ tk, (s.tasks tk).co.status = .running →
    ∃ e, (s.pc e).onCpu = true ∧ (s.executors e).runningTask = tk
  ref_of_hold : ∀ tk, (s.tasks tk).co.status = .hold → (s.tasks tk).stackRef = true

lemma Owned.congr (h : s.Owned) (hn : s'.n = s.n) (hpc : s'.pc = s.pc) (htasks : s'.tasks = s.tasks)
    (hrun : ∀ e, (s'.executors e).runningTask = (s.executors e).runningTask) : s'.Owned where
  lt := by simpa only [hn, hpc] using h.lt
  onCpu := by simpa only [hpc, htasks, hrun] using h.onCpu
  ref_of_hold := by simpa only [htasks] using h.ref_of_hold

/-- The queues and flags of one executor change. -/
lemma Owned.executor {ex' : CoExecutor} (h : s.Owned)
    (hrun : ex'.runningTask = (s.executors e).runningTask) : (s.setExecutor e ex').Owned :=
  h.congr rfl rfl rfl (update_view CoExecutor.runningTask hrun)

/-- A step of the thread of executor `e`: what runs afterwards is its running task, or was running
before on another thread. -/
lemma Owned.move (h : s.Owned) (hn : s'.n = s.n) (he : e < s.n)
    (hpc : ∀ e' ≠ e, s'.pc e' = s.pc e')
    (hrun : ∀ e' ≠ e, (s'.executors e').runningTask = (s.executors e').runningTask)
    (hhold : ∀ tk, (s'.tasks tk).co.status = .hold → (s'.tasks tk).stackRef = true)
    (hrunning : ∀ tk, (s'.tasks tk).co.status = .running →
      (s'.pc e).onCpu = true ∧ (s'.executors e).runningTask = tk ∨
      (s.tasks tk).co.status = .running ∧
        ((s.pc e).onCpu = true → (s.executors e).runningTask ≠ tk)) : s'.Owned where
  lt e' he' := by
    rw [hn]
    by_cases heq : e' = e
    · exact heq ▸ he
    · exact h.lt e' (hpc e' heq ▸ he')
  onCpu tk htk := by
    rcases hrunning tk htk with hnew | ⟨hold, hne⟩
    · exact ⟨e, hnew⟩
    · obtain ⟨e', hcpu, hrun'⟩ := h.onCpu tk hold
      have heq : e' ≠ e := by
        rintro rfl
        exact hne hcpu hrun'
      exact ⟨e', by rw [hpc e' heq, hcpu], by rw [hrun e' heq, hrun']⟩
  ref_of_hold := hhold

/-- A thread that runs nothing moves on. -/
lemma Owned.off {ex' : CoExecutor} {pc' : ProcessPc} (h : s.Owned) (hn : s'.n = s.n) (he : e < s.n)
    (hex : s'.executors = Function.update s.executors e ex')
    (hpc : s'.pc = Function.update s.pc e pc') (htasks : s'.tasks = s.tasks)
    (hcpu : (s.pc e).onCpu = false) : s'.Owned := by
  refine h.move hn he (fun e' hne => ?_) (fun e' hne => ?_) ?_ fun tk htk => .inr ⟨?_, ?_⟩
  · rw [hpc, Function.update_of_ne hne]
  · rw [hex, Function.update_of_ne hne]
  · simpa only [htasks] using h.ref_of_hold
  · rwa [htasks] at htk
  · simp [hcpu]

/-- The thread of executor `e` replaces the task `tk`, the only one it can have been running. -/
lemma Owned.task (ex' : CoExecutor) (pc' : ProcessPc) (tk : CoTaskPtr) {task' : CoTask}
    (h : s.Owned) (hn : s'.n = s.n) (he : e < s.n)
    (hex : s'.executors = Function.update s.executors e ex')
    (hpc : s'.pc = Function.update s.pc e pc')
    (htasks : s'.tasks = Function.update s.tasks tk task')
    (hcpu : (s.pc e).onCpu = true → (s.executors e).runningTask = tk)
    (hhold : task'.co.status = .hold → task'.stackRef = true)
    (hrunning : task'.co.status = .running → pc'.onCpu = true ∧ ex'.runningTask = tk) :
    s'.Owned := by
  refine h.move hn he (fun e' hne => ?_) (fun e' hne => ?_) (fun tk' htk' => ?_)
    fun tk' htk' => ?_
  · rw [hpc, Function.update_of_ne hne]
  · rw [hex, Function.update_of_ne hne]
  · rw [htasks] at htk' ⊢
    by_cases heq : tk' = tk
    · subst heq
      simpa using hhold (by simpa using htk')
    · rw [Function.update_of_ne heq] at htk' ⊢
      exact h.ref_of_hold tk' htk'
  · rw [htasks] at htk'
    by_cases heq : tk' = tk
    · subst heq
      rw [hpc, hex, Function.update_self, Function.update_self]
      exact .inl (hrunning (by simpa using htk'))
    · rw [Function.update_of_ne heq] at htk'
      exact .inr ⟨htk', fun hon hrun => heq (hrun.symm.trans (hcpu hon))⟩

/-! ## The steps keep the owners -/

/-- The end of an iteration, for a state in which the task that has left the CPU is already
updated. -/
lemma Owned.leave (task' : CoTask) (tk : CoTaskPtr) (h : s.Owned) (he : e < s.n)
    (htk : (s.executors e).runningTask = tk ∨ (s.pc e).onCpu = false)
    (hexec : s'.executors = s.executors) (hpc : s'.pc = s.pc) (hn : s'.n = s.n)
    (htasks : s'.tasks = Function.update s.tasks tk task')
    (hhold : task'.co.status = .hold → task'.stackRef = true)
    (hoff : task'.co.status ≠ .running) : (s'.endIteration e timeoutMs last nowMs).Owned := by
  obtain ⟨ex', pc', reclaimed, thrown, heq, -, -, -⟩ := endIteration_eq s' e timeoutMs last nowMs
  rw [heq]
  refine h.task ex' pc' tk hn he (by simp [hexec]) (by simp [hpc]) htasks
    (fun hon => ?_) hhold fun hrun => absurd hrun hoff
  rcases htk with htk | hcpu
  · exact htk
  · simp [hcpu] at hon

lemma Owned.switchOut {ctx : Coroutine → Option ThreadId} {f : Coroutine → Coroutine}
    {stackRef : Bool} (h : s.Owned) (he : e < s.n)
    (hhold : ∀ co, (f co).status = .hold → stackRef = true)
    (hoff : ∀ co, (f co).status ≠ .running) :
    (s.switchOut e timeoutMs last nowMs ctx f stackRef).Owned := by
  simp only [Sched.switchOut]
  split
  · exact h.leave _ _ he (.inl rfl) rfl rfl rfl rfl (hhold _) (hoff _)
  · exact h.congr rfl rfl rfl fun _ => rfl

lemma Owned.runTask {nowUs : ℕ} {ex : CoExecutor} (h : s.Owned) (he : e < s.n)
    (hcpu : (s.pc e).onCpu = false) : (s.runTask e timeoutMs last nowUs nowMs ex).Owned := by
  have hoff : (s.pc e).onCpu = true → (s.executors e).runningTask = ex.runningTask := by
    simp [hcpu]
  simp only [Sched.runTask]
  split
  · exact h.congr rfl rfl rfl fun _ => rfl
  · split
    · exact h.congr rfl rfl rfl fun _ => rfl
    next hres =>
      -- a coroutine that is over is not switched in
      have hst := Coroutine.resume_eq_inert hres
      have hoff' : (s.setExecutor e (ex.beforeResume nowUs)).Owned :=
        h.off rfl he rfl (Function.update_eq_self e s.pc).symm rfl hcpu
      refine hoff'.leave { s.tasks ex.runningTask with proc := some e } ex.runningTask he
        (.inr hcpu) rfl rfl rfl rfl ?_ ?_ <;>
        rcases hst with hst | hst <;> simp [hst]
    next co hres =>
      obtain ⟨-, rfl⟩ := Coroutine.resume_eq_switched hres
      refine h.task _ _ _ rfl he rfl rfl rfl hoff (by simp) fun _ => ⟨rfl, rfl⟩

lemma Owned.pick {nowUs : ℕ} (h : s.Owned) (hpc : s.pc e = .loop timeoutMs last) :
    (s.pick e timeoutMs last nowUs nowMs).Owned := by
  have he : e < s.n := h.lt e (by simp [hpc])
  have hcpu : (s.pc e).onCpu = false := by simp [hpc, ProcessPc.onCpu]
  unfold Sched.pick
  split
  · exact h.off rfl he rfl rfl rfl hcpu
  · split
    · exact h.congr rfl rfl rfl fun _ => rfl
    · exact h.runTask he hcpu

lemma Owned.resumeLoop {nowMs' : ℕ} {ex : CoExecutor} (h : s.Owned)
    (hpc : s.pc e = .waiting timeoutMs last) :
    (s.resumeLoop e timeoutMs last nowMs nowMs' ex).Owned :=
  h.off rfl (h.lt e (by simp [hpc])) rfl rfl rfl (by simp [hpc, ProcessPc.onCpu])

lemma Owned.holdPush (h : s.Owned) (hpc : s.pc e = .resumed timeoutMs last) :
    (s.holdPush e timeoutMs last).Owned := by
  have hcpu : (s.pc e).onCpu = true := by simp [hpc, ProcessPc.onCpu]
  unfold Sched.holdPush
  split
  · exact h
  next p _ =>
    dsimp only
    split
    · exact h.congr rfl rfl rfl fun _ => rfl
    · split
      · exact h.congr rfl rfl rfl fun _ => rfl
      · have hrun : ∀ e', (Function.update s.executors p { s.executors p with
            waitingQueue := (s.executors p).waitingQueue.pushBack (s.executors p).runningTask }
              e').runningTask = (s.executors e').runningTask :=
          update_view CoExecutor.runningTask rfl
        refine h.move rfl (h.lt e (by simp [hpc])) (fun e' hne => ?_) (fun e' _ => hrun e')
          h.ref_of_hold fun tk htk => ?_
        · exact Function.update_of_ne hne ..
        · by_cases heq : (s.executors e).runningTask = tk
          · exact .inl ⟨by simp [setPc, ProcessPc.onCpu], (hrun e).trans heq⟩
          · exact .inr ⟨htk, fun _ => heq⟩

lemma Owned.holdSwitch {p : ℕ} (h : s.Owned) (hpc : s.pc e = .holding timeoutMs last p) :
    (s.holdSwitch e timeoutMs last p nowMs).Owned := by
  unfold Sched.holdSwitch
  split
  · exact h.switchOut (h.lt e (by simp [hpc])) (fun _ _ => rfl) fun _ => by simp [Coroutine.giveUp]
  · exact h.congr rfl rfl rfl fun _ => rfl

lemma Owned.wakeupFromEntry (h : s.Owned) (e : ℕ) (entry : RecoveryEntry) :
    (s.wakeupFromEntry e entry).1.Owned := by
  unfold Sched.wakeupFromEntry
  split
  · refine Owned.congr (s := (s.setExecutor e _).setExecutor e _) ?_ rfl rfl rfl fun _ => rfl
    refine (h.executor ?_).executor ?_ <;> rfl
  · exact h

lemma Owned.wakerStep {w : ℕ} (h : s.Owned) (hs : s.wakerStep w = some s') : s'.Owned := by
  unfold Sched.wakerStep at hs
  dsimp only at hs
  repeat' split at hs
  all_goals cases hs
  all_goals first
    | exact h.congr rfl rfl rfl fun _ => rfl
    | exact h.congr rfl rfl rfl (update_view CoExecutor.runningTask (by rfl))

/-- **Every step keeps the owners.** -/
lemma act_owned {a : Act} (h : s.Owned) (ha : s.act a = some s') : s'.Owned := by
  cases act_move ha with
  | addTask he | schedulerTask =>
    refine (h.executor ?_).congr rfl rfl rfl fun _ => rfl
    rw [CoExecutor.addTask_fst]
  | addTasks he =>
    refine (h.executor ?_).congr rfl rfl rfl fun _ => rfl
    rw [CoExecutor.addTasks_fst]
  | schedulerTaskStopped | wakeupUninitialised | passOutOfBounds =>
    exact h.congr rfl rfl rfl fun _ => rfl
  | process he hpc =>
    exact h.off rfl he (Function.update_eq_self _ _).symm rfl rfl (by simp [hpc, ProcessPc.onCpu])
  | @exitLoop e timeoutMs last hpc =>
    exact h.off rfl (h.lt e (by simp [hpc])) (Function.update_eq_self _ _).symm rfl rfl
      (by simp [hpc, ProcessPc.onCpu])
  | pick hpc => exact h.pick hpc
  | wake hpc | timeout hpc => exact h.resumeLoop hpc
  | @hold e timeoutMs nowMs last hpc =>
    unfold Sched.hold
    dsimp only
    split
    next hpc' => exact (h.holdPush hpc).holdSwitch hpc'
    next => exact h.holdPush hpc
  | holdPush hpc => exact h.holdPush hpc
  | holdSwitch hpc => exact h.holdSwitch hpc
  | @yield e timeoutMs nowMs last hpc =>
    unfold Sched.yieldCurrent
    dsimp only
    split
    · exact h.congr rfl rfl rfl fun _ => rfl
    · have h' : Owned { s with yielded := s.yielded ++ [(s.executors e).runningTask] } :=
        h.congr rfl rfl rfl fun _ => rfl
      exact h'.switchOut (h.lt e (by simp [hpc])) (fun _ _ => rfl)
        fun _ => by simp [Coroutine.giveUp]
  | @finish e timeoutMs nowMs last hpc =>
    exact h.switchOut (h.lt e (by simp [hpc])) (fun _ hst => by simp [Coroutine.runReturned] at hst)
      fun _ => by simp [Coroutine.runReturned]
  | @throw e timeoutMs nowMs last ex hpc =>
    exact h.switchOut (h.lt e (by simp [hpc])) (fun _ hst => by simp [Coroutine.runThrew] at hst)
      fun _ => by simp [Coroutine.runThrew]
  | wakeupFromEntry | wakeup => exact h.wakeupFromEntry _ _
  | wakeupInvalid => exact h
  | wakeupAllTasks he => exact (h.executor (by rfl)).congr rfl rfl rfl fun _ => rfl
  | wakerStart | passStart | keepRef | dropRef => exact h.congr rfl rfl rfl fun _ => rfl
  | wakerStep hs => exact h.wakerStep hs
  | dispatch =>
    exact h.congr rfl rfl rfl
      (DispatchState.passSteps_runningTask (dispatchTasksEqually_run _ _ _))
  | passStep hs => exact h.congr rfl rfl rfl (DispatchState.step_runningTask hs)
  | clean he => exact (h.executor (by rfl)).congr rfl rfl rfl fun _ => rfl
  | stop =>
    refine h.congr rfl rfl rfl fun e' => ?_
    simp only [Sched.stop]
    split <;> rfl

lemma init_owned (h : schedSystem.init s) : s.Owned := by
  obtain ⟨n, id, rfl⟩ := h
  constructor <;> simp

lemma reachable_owned (h : schedSystem.Reachable s) : s.Owned :=
  h.invariant (fun _ => init_owned) fun _ _ _ _ hs _ hstep => act_owned hs (act_of_step hstep)

/-! ## What is destroyed -/

/-- A task without owner can be destroyed. -/
lemma Owned.canDestroy {tk : CoTaskPtr} (h : s.Owned) (hdead : s.alive tk = false) :
    (s.tasks tk).co.canDestroy = true := by
  rw [← Bool.not_eq_true] at hdead
  cases hst : (s.tasks tk).co.status with
  | idle | finished | except => simp [Coroutine.canDestroy, hst]
  | running =>
    obtain ⟨e, hcpu, hrun⟩ := h.onCpu tk hst
    refine absurd (alive_of_runningTask (h.lt e ?_) hrun) hdead
    intro hout
    simp [hout, ProcessPc.onCpu] at hcpu
  | hold => exact absurd (alive_of_stackRef (h.ref_of_hold tk hst)) hdead

/-- The destruction of an executor whose thread is not in `Process` takes away no owner that a
running or suspended coroutine relies on. -/
lemma Owned.destroyExecutor (h : s.Owned) (hpc : s.pc e = .outside) :
    (s.destroyExecutor e nowMs).Owned where
  lt := h.lt
  onCpu tk htk := by
    obtain ⟨e', hcpu, hrun⟩ := h.onCpu tk htk
    have heq : e' ≠ e := by
      rintro rfl
      simp [hpc, ProcessPc.onCpu] at hcpu
    refine ⟨e', hcpu, ?_⟩
    simpa [Sched.destroyExecutor, setExecutor, heq] using hrun
  ref_of_hold := h.ref_of_hold

/-- **No suspended coroutine is destroyed.** In every state of every run the tasks that have lost
their last owner so far, by `Clean` or otherwise, can be destroyed, and so can those that lose it
when an executor is destroyed whose `Process` has returned. -/
theorem teardown_canDestroy (h : schedSystem.Reachable s) :
    (∀ tk, s.alive tk = false → (s.tasks tk).co.canDestroy = true) ∧
    ∀ e nowMs, s.pc e = .outside → ∀ tk, (s.destroyExecutor e nowMs).alive tk = false →
      (s.tasks tk).co.canDestroy = true := by
  have hs := reachable_owned h
  exact ⟨fun tk => hs.canDestroy, fun e nowMs hpc tk => (hs.destroyExecutor hpc).canDestroy⟩

/-- One executor that has run into its idle time-out, with a finished, a held and a thrown task.
Its destruction takes the last owner of the two tasks that are over; the held one stays, kept by
its stack. -/
theorem teardown_canDestroy_one_executor :
    ∃ s, schedSystem.Reachable s ∧ s.pc 0 = .outside ∧
      (s.executors 0).waitingQueue = [2] ∧ (s.tasks 2).co.canDestroy = false ∧
      (s.destroyExecutor 0 0).alive 2 = true ∧
      (∀ tk ∈ [1, 3], s.alive tk = true ∧ (s.destroyExecutor 0 0).alive tk = false ∧
        (s.tasks tk).co.canDestroy = true) := by
  obtain ⟨s, hs, hp⟩ := exists_reachable_of_runUnder (G := fun _ _ => True) (M := schedSystem)
    [.addTasks 0 [1, 2, 3], .process 0 5, .pick 0 0 0, .finish 0 0, .pick 0 0 0, .hold 0 0,
      .pick 0 0 0, .throw 0 7 0, .process 0 5, .pick 0 0 0, .timeout 0 0 0 0, .exitLoop 0]
    (fun s => s.pc 0 = .outside && (s.executors 0).waitingQueue = [2] &&
      !(s.tasks 2).co.canDestroy && (s.destroyExecutor 0 0).alive 2 && s.alive 1 && s.alive 3 &&
      !(s.destroyExecutor 0 0).alive 1 && !(s.destroyExecutor 0 0).alive 3)
    ⟨1, fun e => e, rfl⟩ (by decide)
  simp only [Bool.and_eq_true, decide_eq_true_eq, Bool.not_eq_true'] at hp
  obtain ⟨⟨⟨⟨⟨⟨⟨hpc, hwait⟩, hst⟩, hkept⟩, h1⟩, h3⟩, hdead1⟩, hdead3⟩ := hp
  have hdestroy := (teardown_canDestroy hs).2 0 0 hpc
  refine ⟨s, hs, hpc, hwait, hst, hkept, ?_⟩
  simp only [List.mem_cons, List.not_mem_nil, or_false, forall_eq_or_imp, forall_eq]
  exact ⟨⟨h1, hdead1, hdestroy 1 hdead1⟩, h3, hdead3, hdestroy 3 hdead3⟩

end Sched

end CoroutineCpp
