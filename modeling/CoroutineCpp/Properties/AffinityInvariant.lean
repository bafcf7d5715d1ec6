import CoroutineCpp.Properties.SchedEffect

/-!
# The affinity invariant

`Affine` says where started and unstarted coroutines can be: what is in a runnable queue or in the
hands of the dispatcher has never been resumed, and what is in a waiting or awoken queue was first
resumed by the executor of that queue.  Its part about threads is `CpuAffine`.  Every effect
preserves the invariant (`Effect.affine`, `WakerEffect.affine`).
-/

namespace CoroutineCpp

open Framework Relation

/-! ## The threads and the running coroutines -/

/-- A thread that runs a body runs one that its own executor started, and a running coroutine is
on the CPU of that executor. -/
structure CpuAffine (n : ℕ) (pc : ℕ → ProcessPc) (tasks : CoTaskPtr → CoTask) (t : Executors) :
    Prop where
  lt : ∀ e, pc e ≠ .outside → e < n
  started : ∀ e, (pc e).onCpu = true → (tasks (t e).runningTask).StartedOn e
  running : ∀ e, (pc e).onCpu = true → (tasks (t e).runningTask).co.status = .running
  /-- a body in `HoldThere` is held by its own executor -/
  holding : ∀ e timeoutMs last p, pc e = .holding timeoutMs last p → p = e
  onCpu : ∀ tk, (tasks tk).co.status = .running →
    ∃ e, (pc e).onCpu = true ∧ (t e).runningTask = tk

/-- Changing one task keeps the started tasks started if it keeps that one so. -/
lemma CoTask.StartedOn.update {tasks : CoTaskPtr → CoTask} {tk tk' : CoTaskPtr} {e : ℕ}
    {task : CoTask} (htk : (tasks tk').StartedOn e)
    (h : (tasks tk).StartedOn e → task.StartedOn e) :
    (Function.update tasks tk task tk').StartedOn e := by
  by_cases heq : tk' = tk
  · subst heq
    simpa using h htk
  · simpa [heq] using htk

lemma CoTask.StartedOn.unique {task : CoTask} {e e' : ℕ} (h : task.StartedOn e)
    (h' : task.StartedOn e') : e = e' :=
  Option.some.inj (h.proc.symm.trans h'.proc)

namespace CpuAffine

variable {n : ℕ} {pc : ℕ → ProcessPc} {tasks : CoTaskPtr → CoTask} {t t' : Executors} {e : ℕ}
  {tk : CoTaskPtr} {ex' : CoExecutor} {pc' : ProcessPc} {task' : CoTask}

lemma congr (h : CpuAffine n pc tasks t) (ht : ∀ e, (t' e).runningTask = (t e).runningTask) :
    CpuAffine n pc tasks t' where
  lt := h.lt
  started := by simpa only [ht] using h.started
  running := by simpa only [ht] using h.running
  holding := h.holding
  onCpu := by simpa only [ht] using h.onCpu

lemma lt_update (h : CpuAffine n pc tasks t) (he : e < n) :
    ∀ e', Function.update pc e pc' e' ≠ .outside → e' < n :=
  (Function.forall_update_iff pc fun e' pc => pc ≠ .outside → e' < n).mpr
    ⟨fun _ => he, fun e' _ => h.lt e'⟩

lemma holding_update (h : CpuAffine n pc tasks t)
    (hpc' : ∀ timeoutMs last p, pc' = .holding timeoutMs last p → p = e) :
    ∀ e' timeoutMs last p, Function.update pc e pc' e' = .holding timeoutMs last p → p = e' :=
  (Function.forall_update_iff pc fun e' pc => ∀ timeoutMs last p,
    pc = .holding timeoutMs last p → p = e').mpr ⟨hpc', fun e' _ => h.holding e'⟩

lemma lt_of_onCpu (h : CpuAffine n pc tasks t) (hpc : (pc e).onCpu = true) : e < n :=
  h.lt e fun hout => by simp [hout, ProcessPc.onCpu] at hpc

/-- A task that is not running is switched in on a thread that runs nothing. -/
lemma enter (h : CpuAffine n pc tasks t) (he : e < n) (hpc : (pc e).onCpu = false)
    (hpc' : pc'.isResumed = true) (hrun : ex'.runningTask = tk)
    (hst : (tasks tk).co.status ≠ .running) (hst' : task'.co.status = .running)
    (htask : task'.StartedOn e) :
    CpuAffine n (Function.update pc e pc') (Function.update tasks tk task')
      (Function.update t e ex') := by
  have hne : ∀ e', (pc e').onCpu = true → e' ≠ e ∧ (t e').runningTask ≠ tk := by
    intro e' he'
    refine ⟨?_, fun htk => hst (htk ▸ h.running e' he')⟩
    rintro rfl
    simp [hpc] at he'
  refine ⟨h.lt_update he, fun e' he' => ?_, fun e' he' => ?_, h.holding_update ?_,
    fun tk' htk' => ?_⟩
  · by_cases heq : e' = e
    · subst heq
      simpa [hrun] using htask
    · have hcpu : (pc e').onCpu = true := by simpa [heq] using he'
      simpa [heq, (hne e' hcpu).2] using h.started e' hcpu
  · by_cases heq : e' = e
    · subst heq
      simpa [hrun] using hst'
    · have hcpu : (pc e').onCpu = true := by simpa [heq] using he'
      simpa [heq, (hne e' hcpu).2] using h.running e' hcpu
  · rintro _ _ _ rfl
    cases hpc'
  · by_cases heq : tk' = tk
    · subst heq
      refine ⟨e, ?_, by simpa using hrun⟩
      cases pc' <;> simp_all [ProcessPc.isResumed, ProcessPc.onCpu]
    · obtain ⟨e', hcpu, hrun'⟩ := h.onCpu tk' (by simpa [heq] using htk')
      refine ⟨e', ?_, ?_⟩ <;> simpa [(hne e' hcpu).1]

/-- The running task of a thread leaves the CPU. -/
lemma leave (h : CpuAffine n pc tasks t) (hpc : (pc e).onCpu = true)
    (hpc' : pc'.onCpu = false) (hst' : task'.co.status ≠ .running) :
    CpuAffine n (Function.update pc e pc') (Function.update tasks (t e).runningTask task')
      (Function.update t e ex') := by
  have hne : ∀ e', e' ≠ e → (pc e').onCpu = true → (t e').runningTask ≠ (t e).runningTask := by
    intro e' heq hcpu htk
    exact heq ((h.started e' hcpu).unique (htk ▸ h.started e hpc))
  have hcpu : ∀ e', (Function.update pc e pc' e').onCpu = true → e' ≠ e ∧ (pc e').onCpu = true := by
    intro e' he'
    have heq : e' ≠ e := by
      rintro rfl
      simp [hpc'] at he'
    exact ⟨heq, by simpa [heq] using he'⟩
  refine ⟨h.lt_update (h.lt_of_onCpu hpc), fun e' he' => ?_, fun e' he' => ?_,
    h.holding_update ?_, fun tk' htk' => ?_⟩
  · obtain ⟨heq, hcpu⟩ := hcpu e' he'
    simpa [heq, hne e' heq hcpu] using h.started e' hcpu
  · obtain ⟨heq, hcpu⟩ := hcpu e' he'
    simpa [heq, hne e' heq hcpu] using h.running e' hcpu
  · rintro _ _ _ rfl
    cases hpc'
  · by_cases heq : tk' = (t e).runningTask
    · subst heq
      simp [hst'] at htk'
    · obtain ⟨e', hcpu', hrun'⟩ := h.onCpu tk' (by simpa [heq] using htk')
      have heq' : e' ≠ e := by
        rintro rfl
        exact heq hrun'.symm
      exact ⟨e', by simpa [heq'] using hcpu', by simpa [heq'] using hrun'⟩

/-- A running body enters `HoldThere`, or leaves it while it still runs. -/
lemma stay (h : CpuAffine n pc tasks t) (hpc : (pc e).onCpu = true) (hpc' : pc'.onCpu = true)
    (hp : ∀ timeoutMs last p, pc' = .holding timeoutMs last p → p = e)
    (hrun : ex'.runningTask = (t e).runningTask) :
    CpuAffine n (Function.update pc e pc') tasks (Function.update t e ex') := by
  have hcpu : ∀ e', (Function.update pc e pc' e').onCpu = (pc e').onCpu := by
    intro e'
    by_cases heq : e' = e
    · subst heq; simp [hpc, hpc']
    · simp [heq]
  have hrun' : ∀ e', (Function.update t e ex' e').runningTask = (t e').runningTask := by
    intro e'
    by_cases heq : e' = e
    · subst heq; simp [hrun]
    · simp [heq]
  refine ⟨h.lt_update (h.lt_of_onCpu hpc), ?_, ?_, h.holding_update hp, ?_⟩
  · simpa only [hcpu, hrun'] using h.started
  · simpa only [hcpu, hrun'] using h.running
  · simpa only [hcpu, hrun'] using h.onCpu

/-- A thread that runs nothing goes on running nothing. -/
lemma off (h : CpuAffine n pc tasks t) (he : e < n) (hpc : (pc e).onCpu = false)
    (hpc' : pc'.onCpu = false) :
    CpuAffine n (Function.update pc e pc') tasks (Function.update t e ex') := by
  have hcpu : ∀ e', (Function.update pc e pc' e').onCpu = true ∨ (pc e').onCpu = true →
      e' ≠ e ∧ (pc e').onCpu = true := by
    intro e' he'
    have heq : e' ≠ e := by
      rintro rfl
      simp [hpc, hpc'] at he'
    exact ⟨heq, by simpa [heq] using he'⟩
  refine ⟨h.lt_update he, fun e' he' => ?_, fun e' he' => ?_, h.holding_update ?_,
    fun tk' htk' => ?_⟩
  · obtain ⟨heq, hcpu⟩ := hcpu e' (.inl he')
    simpa [heq] using h.started e' hcpu
  · obtain ⟨heq, hcpu⟩ := hcpu e' (.inl he')
    simpa [heq] using h.running e' hcpu
  · rintro _ _ _ rfl
    cases hpc'
  · obtain ⟨e', hcpu', hrun'⟩ := h.onCpu tk' htk'
    obtain ⟨heq, -⟩ := hcpu e' (.inr hcpu')
    exact ⟨e', by simpa [heq] using hcpu', by simpa [heq] using hrun'⟩

end CpuAffine

/-! ## The invariant -/

namespace Sched

/-- The affinity invariant. -/
structure Affine (s : Sched) : Prop where
  dispWf : s.disp.Wf
  dispCount : s.disp.executorCount ≤ s.n
  size_le : s.size ≤ s.n
  nodup : s.submitted.Nodup
  null_notMem : nullptr ∉ s.submitted
  /-- each task sits at most once in the runnable queues and the hands of the dispatcher -/
  pool_le : pool s.n s.executors s.disp ≤ (s.submitted : Multiset CoTaskPtr)
  /-- no task there has been resumed -/
  pool_new : ∀ tk ∈ pool s.n s.executors s.disp, (s.tasks tk).co = {}
  unsubmitted : ∀ tk, tk ∉ s.submitted → (s.tasks tk).co = {}
  co_of_idle : ∀ tk, (s.tasks tk).co.status = .idle → (s.tasks tk).co = {}
  /-- a suspended coroutine keeps its task alive -/
  ref_of_hold : ∀ tk, (s.tasks tk).co.status = .hold → (s.tasks tk).stackRef = true
  waiting_started : ∀ e, ∀ tk ∈ (s.executors e).waitingQueue, (s.tasks tk).StartedOn e
  awoken_started : ∀ e, ∀ tk ∈ (s.executors e).awokenQueue,
    tk ≠ nullptr → (s.tasks tk).StartedOn e
  waker_started : ∀ w e tk, s.wakers w = .push e tk → (s.tasks tk).StartedOn e
  waker_lt : ∀ w e, (s.wakers w).target = some e → e < s.n
  cpu : CpuAffine s.n s.pc s.tasks s.executors
  resumed_started : ∀ tk e, (tk, e) ∈ s.resumes → (s.tasks tk).StartedOn e
  proc_lt : ∀ tk e, (s.tasks tk).proc = some e → e < s.n
  fault_ofTask : ∀ f, s.fault = some f → f.ofTask = false

namespace Affine

variable {s : Sched}

lemma mem_submitted_of_co (hs : s.Affine) {tk : CoTaskPtr} (h : (s.tasks tk).co ≠ {}) :
    tk ∈ s.submitted := by
  by_contra htk
  exact h (hs.unsubmitted tk htk)

lemma ne_null_of_co (hs : s.Affine) {tk : CoTaskPtr} (h : (s.tasks tk).co ≠ {}) :
    tk ≠ nullptr := by
  rintro rfl
  exact hs.null_notMem (hs.mem_submitted_of_co h)

/-- Only started tasks have a status other than `idle`. -/
lemma ne_null_of_status (hs : s.Affine) {tk : CoTaskPtr} (h : (s.tasks tk).co.status ≠ .idle) :
    tk ≠ nullptr :=
  hs.ne_null_of_co fun hco => h (by rw [hco])

lemma pool_nodup (hs : s.Affine) : (pool s.n s.executors s.disp).Nodup :=
  Multiset.nodup_of_le hs.pool_le (Multiset.coe_nodup.mpr hs.nodup)

lemma mem_pool_of_runnable {e : ℕ} (he : e < s.n) {tk : CoTaskPtr}
    (h : tk ∈ (s.executors e).runnableQueue) : tk ∈ pool s.n s.executors s.disp :=
  Multiset.mem_add.mpr (.inl (mem_runnables.mpr ⟨e, he, h⟩))

end Affine

/-! ## Every effect preserves it -/

lemma Quiet.affine {s s' : Sched} (h : Quiet s s') (hs : s.Affine) : s'.Affine := by
  have hrun : runnables s'.n s'.executors = runnables s.n s.executors := by
    rw [h.n]
    exact total_congr fun e => h.runnableQueue e
  have hpool : pool s'.n s'.executors s'.disp = pool s.n s.executors s.disp := by
    rw [pool, pool, hrun, h.outstanding hs.dispWf]
  have hcpu : ∀ e, (s'.pc e).onCpu = true ∨ (s.pc e).onCpu = true → s'.pc e = s.pc e := by
    intro e he
    rcases h.pc e with heq | ⟨-, hoff, hoff'⟩
    · exact heq
    · simp [hoff, hoff'] at he
  exact
    { dispWf := h.dispWf hs.dispWf
      dispCount := h.n ▸ h.dispCount hs.size_le hs.dispCount
      size_le := h.n ▸ h.size.trans hs.size_le
      nodup := h.submitted ▸ hs.nodup
      null_notMem := h.submitted ▸ hs.null_notMem
      pool_le := by rw [hpool, h.submitted]; exact hs.pool_le
      pool_new := by rw [hpool, h.tasks]; exact hs.pool_new
      unsubmitted := by rw [h.submitted, h.tasks]; exact hs.unsubmitted
      co_of_idle := by rw [h.tasks]; exact hs.co_of_idle
      ref_of_hold := by rw [h.tasks]; exact hs.ref_of_hold
      waiting_started := by
        intro e tk htk
        rw [h.waitingQueue] at htk
        exact h.tasks ▸ hs.waiting_started e tk htk
      awoken_started := by
        intro e tk htk
        rw [h.awokenQueue] at htk
        exact h.tasks ▸ hs.awoken_started e tk htk
      waker_started := by
        intro w e tk hw
        rw [h.tasks]
        rcases h.wakers w e tk hw with hw | htk
        · exact hs.waker_started w e tk hw
        · exact hs.waiting_started e tk htk
      waker_lt := by
        intro w e hw
        rw [h.n]
        rcases h.wakerTarget w e hw with hw | he
        · exact hs.waker_lt w e hw
        · exact he
      cpu :=
        { lt := by
            intro e he
            rw [h.n]
            rcases h.pc e with heq | ⟨hlt, -⟩
            · exact hs.cpu.lt e (heq ▸ he)
            · exact hlt
          started := by
            intro e he
            rw [h.tasks, h.runningTask]
            exact hs.cpu.started e (hcpu e (.inl he) ▸ he)
          running := by
            intro e he
            rw [h.tasks, h.runningTask]
            exact hs.cpu.running e (hcpu e (.inl he) ▸ he)
          holding := fun e tmo last p he =>
            hs.cpu.holding e tmo last p
              (by rw [← hcpu e (.inl (by simp [he, ProcessPc.onCpu])), he])
          onCpu := by
            intro tk htk
            rw [h.tasks] at htk
            obtain ⟨e, he, rfl⟩ := hs.cpu.onCpu tk htk
            exact ⟨e, hcpu e (.inr he) ▸ he, h.runningTask e⟩ }
      resumed_started := by rw [h.resumes, h.tasks]; exact hs.resumed_started
      proc_lt := by rw [h.tasks, h.n]; exact hs.proc_lt
      fault_ofTask := by
        intro f hf
        rcases h.fault f hf with hf | hf
        · exact hs.fault_ofTask f hf
        · exact hf }

/-- A change of the queues of one executor is checked at that executor only. -/
lemma forall_mem_update {P : ℕ → CoTaskPtr → Prop} {t : Executors} {e : ℕ} {ex : CoExecutor}
    (q : CoExecutor → List CoTaskPtr) (h : ∀ e', ∀ tk ∈ q (t e'), P e' tk)
    (he : ∀ tk ∈ q ex, tk ∈ q (t e) ∨ P e tk) :
    ∀ e', ∀ tk ∈ q (Function.update t e ex e'), P e' tk := by
  intro e' tk htk
  by_cases heq : e' = e
  · subst heq
    rw [Function.update_self] at htk
    rcases he tk htk with htk | htk
    · exact h e' tk htk
    · exact htk
  · rw [Function.update_of_ne heq] at htk
    exact h e' tk htk

/-- What an update keeps at one executor it keeps at all. -/
lemma update_view {β : Type*} {t : Executors} {e : ℕ} {ex : CoExecutor} (F : CoExecutor → β)
    (h : F ex = F (t e)) (e' : ℕ) : F (Function.update t e ex e') = F (t e') := by
  by_cases heq : e' = e
  · subst heq; simpa using h
  · simp [heq]

namespace Effect

variable {s : Sched} {e : ℕ} {tk : CoTaskPtr} {ex' : CoExecutor} {pc' : ProcessPc}

lemma affine_submit {tks : List CoTaskPtr} (hs : s.Affine) (he : e < s.n) (hnd : tks.Nodup)
    (hnew : ∀ tk ∈ tks, tk ≠ nullptr ∧ tk ∉ s.submitted) :
    Affine { s with
      executors := Function.update s.executors e
        { s.executors e with runnableQueue := (s.executors e).runnableQueue ++ tks }
      submitted := s.submitted ++ tks } := by
  have hpool : pool s.n (Function.update s.executors e
      { s.executors e with runnableQueue := (s.executors e).runnableQueue ++ tks }) s.disp =
      pool s.n s.executors s.disp + (tks : Multiset CoTaskPtr) := by
    rw [pool, pool, runnables_append he rfl]
    abel
  exact
    { hs with
      nodup := by
        refine hs.nodup.append hnd ?_
        intro tk htk htks
        exact (hnew tk htks).2 htk
      null_notMem := by
        intro hmem
        rcases List.mem_append.mp hmem with hmem | hmem
        · exact hs.null_notMem hmem
        · exact (hnew _ hmem).1 rfl
      pool_le := by
        simp only [hpool, ← Multiset.coe_add]
        exact add_le_add_left hs.pool_le _
      pool_new := by
        simp only [hpool]
        intro tk htk
        rcases Multiset.mem_add.mp htk with htk | htk
        · exact hs.pool_new tk htk
        · exact hs.unsubmitted tk (hnew tk htk).2
      unsubmitted := fun tk htk => hs.unsubmitted tk fun hmem => htk (List.mem_append_left _ hmem)
      waiting_started := forall_mem_update CoExecutor.waitingQueue hs.waiting_started
        fun tk htk => .inl htk
      awoken_started := forall_mem_update CoExecutor.awokenQueue hs.awoken_started
        fun tk htk => .inl htk
      cpu := hs.cpu.congr (update_view CoExecutor.runningTask rfl) }

lemma affine_pass {d' : DispatchState} {t' : Executors} (hs : s.Affine)
    (h : DispatchState.StepEffect s.disp d' s.executors t') (hwf : d'.Wf)
    (hcount : d'.executorCount ≤ s.n) : Affine { s with disp := d', executors := t' } := by
  have hpool : pool s.n t' d' = pool s.n s.executors s.disp := h.pool_eq hs.dispCount
  have hwaiting : ∀ e, (t' e).waitingQueue = (s.executors e).waitingQueue :=
    fun e => by rw [h.frame e]
  have hawoken : ∀ e, (t' e).awokenQueue = (s.executors e).awokenQueue :=
    fun e => by rw [h.frame e]
  have hrunning : ∀ e, (t' e).runningTask = (s.executors e).runningTask :=
    fun e => by rw [h.frame e]
  exact
    { hs with
      dispWf := hwf
      dispCount := hcount
      pool_le := hpool.trans_le hs.pool_le
      pool_new := by
        simp only [hpool]
        exact hs.pool_new
      waiting_started := fun e tk htk => hs.waiting_started e tk (hwaiting e ▸ htk)
      awoken_started := fun e tk htk => hs.awoken_started e tk (hawoken e ▸ htk)
      cpu := hs.cpu.congr hrunning }

lemma affine_start (hs : s.Affine) (he : e < s.n) (hpc : (s.pc e).onCpu = false)
    (hpc' : pc'.isResumed = true)
    (hq : (s.executors e).runnableQueue = tk :: ex'.runnableQueue)
    (hex : CoExecutor.SamePending { s.executors e with runnableQueue := ex'.runnableQueue } ex')
    (hrun : ex'.runningTask = tk) (hco : (s.tasks tk).co = {}) :
    Affine { s with
      executors := Function.update s.executors e ex'
      pc := Function.update s.pc e pc'
      tasks := Function.update s.tasks tk
        { proc := some e, co := { Coroutine.prepare e {} with status := .running } }
      resumes := s.resumes ++ [(tk, e)] } := by
  have htask : CoTask.StartedOn e
      { proc := some e, co := { Coroutine.prepare e {} with status := .running } } :=
    ⟨rfl, rfl, rfl, rfl⟩
  have hnew : ∀ e', ¬ (s.tasks tk).StartedOn e' := fun e' h => h.co_ne hco
  have hpop : runnables s.n s.executors =
      tk ::ₘ runnables s.n (Function.update s.executors e ex') := runnables_pop he hq
  have hpool : pool s.n s.executors s.disp =
      tk ::ₘ pool s.n (Function.update s.executors e ex') s.disp := by
    rw [pool, pool, hpop, Multiset.cons_add]
  have hnodup := hs.pool_nodup
  have hmem : tk ∈ pool s.n s.executors s.disp := by simp [hpool]
  exact
    { hs with
      pool_le := (hpool ▸ Multiset.le_cons_self _ _).trans hs.pool_le
      pool_new := by
        intro tk' htk'
        have hne : tk' ≠ tk := by
          rintro rfl
          rw [hpool] at hnodup
          exact (Multiset.nodup_cons.mp hnodup).1 htk'
        simpa [hne] using hs.pool_new tk' (by rw [hpool]; exact Multiset.mem_cons_of_mem htk')
      unsubmitted := by
        intro tk' htk'
        have hne : tk' ≠ tk := by
          rintro rfl
          exact htk' (Multiset.mem_coe.mp (Multiset.mem_of_le hs.pool_le hmem))
        simpa [hne] using hs.unsubmitted tk' htk'
      co_of_idle := (Function.forall_update_iff s.tasks
        fun _ task => task.co.status = .idle → task.co = {}).mpr
          ⟨fun h => by simp at h, fun tk' _ => hs.co_of_idle tk'⟩
      ref_of_hold := (Function.forall_update_iff s.tasks
        fun _ task => task.co.status = .hold → task.stackRef = true).mpr
          ⟨fun h => by simp at h, fun tk' _ => hs.ref_of_hold tk'⟩
      waiting_started := forall_mem_update CoExecutor.waitingQueue
        (fun e' tk' htk' => (hs.waiting_started e' tk' htk').update fun h => (hnew e' h).elim)
        fun tk' htk' => .inl (hex.waitingQueue ▸ htk')
      awoken_started := forall_mem_update CoExecutor.awokenQueue
        (fun e' tk' htk' hne => (hs.awoken_started e' tk' htk' hne).update
          fun h => (hnew e' h).elim)
        fun tk' htk' => .inl (hex.awokenQueue ▸ htk')
      waker_started := fun w e' tk' hw =>
        (hs.waker_started w e' tk' hw).update fun h => (hnew e' h).elim
      cpu := hs.cpu.enter he hpc hpc' hrun (by simp [hco]) rfl htask
      resumed_started := by
        intro tk' e' hmem'
        rcases List.mem_append.mp hmem' with hmem' | hmem'
        · exact (hs.resumed_started tk' e' hmem').update fun h => (hnew e' h).elim
        · obtain ⟨rfl, rfl⟩ : tk' = tk ∧ e' = e := by simpa using hmem'
          simpa using htask
      proc_lt := (Function.forall_update_iff s.tasks
        fun _ task => ∀ e', task.proc = some e' → e' < s.n).mpr
          ⟨fun e' h => Option.some.inj h ▸ he, fun tk' _ => hs.proc_lt tk'⟩ }

/-- A change of a started task that stays started, on one executor whose runnable queue it does not
touch: what is common to `resume`, `inert` and `leave`. -/
lemma affine_change {task' : CoTask} {reclaimed yielded : List CoTaskPtr}
    {resumes : List (CoTaskPtr × ℕ)} {thrown : List (ℕ × ExceptionPtr)} (hs : s.Affine)
    (htk : (s.tasks tk).StartedOn e) (htask : task'.StartedOn e)
    (hst : task'.co.status ≠ .idle) (href : task'.co.status = .hold → task'.stackRef = true)
    (hr : ex'.runnableQueue = (s.executors e).runnableQueue)
    (hw : ∀ tk' ∈ ex'.waitingQueue, tk' ∈ (s.executors e).waitingQueue)
    (ha : ∀ tk' ∈ ex'.awokenQueue, tk' ∈ (s.executors e).awokenQueue)
    (hres : ∀ tk' e', (tk', e') ∈ resumes → (tk', e') ∈ s.resumes ∨ tk' = tk ∧ e' = e)
    (hcpu : CpuAffine s.n (Function.update s.pc e pc') (Function.update s.tasks tk task')
      (Function.update s.executors e ex')) :
    Affine { s with
      executors := Function.update s.executors e ex'
      pc := Function.update s.pc e pc'
      tasks := Function.update s.tasks tk task'
      resumes := resumes
      reclaimed := reclaimed
      yielded := yielded
      thrown := thrown } := by
  have hkeep : ∀ e', (s.tasks tk).StartedOn e' → task'.StartedOn e' :=
    fun e' h => h.unique htk ▸ htask
  have hpool : pool s.n (Function.update s.executors e ex') s.disp =
      pool s.n s.executors s.disp := pool_update_of_eq s.n s.disp hr
  exact
    { hs with
      pool_le := hpool.trans_le hs.pool_le
      pool_new := by
        intro tk' htk'
        have hmem : tk' ∈ pool s.n s.executors s.disp := hpool ▸ htk'
        have hne : tk' ≠ tk := by
          rintro rfl
          exact htk.co_ne (hs.pool_new _ hmem)
        simpa [hne] using hs.pool_new tk' hmem
      unsubmitted := by
        intro tk' htk'
        have hne : tk' ≠ tk := by
          rintro rfl
          exact htk' (hs.mem_submitted_of_co htk.co_ne)
        simpa [hne] using hs.unsubmitted tk' htk'
      co_of_idle := (Function.forall_update_iff s.tasks
        fun _ task => task.co.status = .idle → task.co = {}).mpr
          ⟨fun h => absurd h hst, fun tk' _ => hs.co_of_idle tk'⟩
      ref_of_hold := (Function.forall_update_iff s.tasks
        fun _ task => task.co.status = .hold → task.stackRef = true).mpr
          ⟨href, fun tk' _ => hs.ref_of_hold tk'⟩
      waiting_started := forall_mem_update CoExecutor.waitingQueue
        (fun e' tk' htk' => (hs.waiting_started e' tk' htk').update (hkeep e'))
        fun tk' htk' => .inl (hw tk' htk')
      awoken_started := forall_mem_update CoExecutor.awokenQueue
        (fun e' tk' htk' hne => (hs.awoken_started e' tk' htk' hne).update (hkeep e'))
        fun tk' htk' => .inl (ha tk' htk')
      waker_started := fun w e' tk' hw => (hs.waker_started w e' tk' hw).update (hkeep e')
      cpu := hcpu
      resumed_started := by
        intro tk' e' hmem
        rcases hres tk' e' hmem with hmem | ⟨rfl, rfl⟩
        · exact (hs.resumed_started tk' e' hmem).update (hkeep e')
        · simpa using htask
      proc_lt := (Function.forall_update_iff s.tasks
        fun _ task => ∀ e', task.proc = some e' → e' < s.n).mpr
          ⟨fun e' h => Option.some.inj (htask.proc.symm.trans h) ▸ hs.proc_lt tk e htk.proc,
            fun tk' _ => hs.proc_lt tk'⟩ }

/-- A change of the waiting and the awoken queue of one executor by tasks it has started: what is
common to `hold`, `wake` and the two waker effects. -/
lemma affine_requeue {entries : List RecoveryEntry} {wakes : List CoTaskPtr} {pc : ℕ → ProcessPc}
    {wakers : ℕ → WakerPc} (hs : s.Affine)
    (hr : ex'.runnableQueue = (s.executors e).runnableQueue)
    (hw : ∀ tk ∈ ex'.waitingQueue, tk ∈ (s.executors e).waitingQueue ∨ (s.tasks tk).StartedOn e)
    (ha : ∀ tk ∈ ex'.awokenQueue, tk ∈ (s.executors e).awokenQueue ∨
      (tk ≠ nullptr → (s.tasks tk).StartedOn e))
    (hpush : ∀ w e tk, wakers w = .push e tk → s.wakers w = .push e tk)
    (htarget : ∀ w e, (wakers w).target = some e → (s.wakers w).target = some e ∨ e < s.n)
    (hcpu : CpuAffine s.n pc s.tasks (Function.update s.executors e ex')) :
    Affine { s with
      executors := Function.update s.executors e ex'
      pc := pc
      wakers := wakers
      entries := entries
      wakes := wakes } := by
  have hpool : pool s.n (Function.update s.executors e ex') s.disp =
      pool s.n s.executors s.disp := pool_update_of_eq s.n s.disp hr
  exact
    { hs with
      pool_le := hpool.trans_le hs.pool_le
      pool_new := fun tk htk => hs.pool_new tk (hpool ▸ htk)
      waiting_started := forall_mem_update CoExecutor.waitingQueue hs.waiting_started hw
      awoken_started := forall_mem_update CoExecutor.awokenQueue hs.awoken_started ha
      waker_started := fun w e' tk h => hs.waker_started w e' tk (hpush w e' tk h)
      waker_lt := by
        intro w e' h
        rcases htarget w e' h with h | h
        · exact hs.waker_lt w e' h
        · exact h
      cpu := hcpu }

/-- **Every effect preserves the affinity invariant.** -/
lemma affine {s' : Sched} (h : Effect s s') (hs : s.Affine) : s'.Affine := by
  cases h with
  | quiet h => exact h.affine hs
  | submit he hnd hnew => exact affine_submit hs he hnd hnew
  | pass h hwf hcount => exact affine_pass hs h hwf hcount
  | start he hpc hpc' hq hex _ hrun hco => exact affine_start hs he hpc hpc' hq hex hrun hco
  | @resume e tk ex' pc' he hpc hpc' hq hex hfin hrun hst =>
    have htk := hs.awoken_started e tk (by simp [hq]) (hs.ne_null_of_status (by simp [hst]))
    have htask : CoTask.StartedOn e
        { proc := some e, co := { (s.tasks tk).co with status := .running } } :=
      ⟨rfl, htk.masterCo, htk.ucLink, htk.stack⟩
    exact affine_change hs htk htask (by simp) (by simp) hex.runnableQueue
      (fun tk' h => hex.waitingQueue ▸ h) (fun tk' h => by simp [hq, h])
      (by simp) (hs.cpu.enter he hpc hpc' hrun (by simp [hst]) rfl htask)
  | @inert e tk ex' pc' reclaimed thrown he hpc hpc' hq hex hfin hst =>
    have hidle : (s.tasks tk).co.status ≠ .idle := by rcases hst with hst | hst <;> simp [hst]
    have htk := hs.awoken_started e tk (by simp [hq]) (hs.ne_null_of_status hidle)
    have hsame : Function.update s.tasks tk (s.tasks tk) = s.tasks := Function.update_eq_self _ _
    have h : Affine { s with
        executors := Function.update s.executors e ex'
        pc := Function.update s.pc e pc'
        tasks := Function.update s.tasks tk (s.tasks tk)
        resumes := s.resumes ++ [(tk, e)]
        reclaimed := s.reclaimed ++ reclaimed
        thrown := thrown } :=
      affine_change hs htk htk hidle (hs.ref_of_hold tk) hex.runnableQueue
        (fun tk' h => hex.waitingQueue ▸ h)
        (fun tk' h => by simp [hq, h]) (by simp) (hsame.symm ▸ hs.cpu.off he hpc hpc')
    rwa [hsame] at h
  | @hold e pc' he hpc hpc' =>
    obtain ⟨timeoutMs, last, rfl⟩ := hpc'
    have hcpu : (s.pc e).onCpu = true := by
      cases h : s.pc e <;> simp_all [ProcessPc.isResumed, ProcessPc.onCpu]
    refine affine_requeue hs rfl (fun tk htk => ?_) (fun tk htk => .inl htk)
      (fun _ _ _ h => h) (fun _ _ h => .inl h) (hs.cpu.stay hcpu rfl ?_ rfl)
    · rcases List.mem_append.mp htk with htk | htk
      · exact .inl htk
      · obtain rfl := List.mem_singleton.mp htk
        exact .inr (hs.cpu.started e hcpu)
    · rintro _ _ p ⟨⟩
      rfl
  | @leave e ex' pc' task' reclaimed yielded thrown he hpc hpc' hex hfin href hstarted hout =>
    have htk := hs.cpu.started e hpc
    have hst : task'.co.status ≠ .idle ∧ task'.co.status ≠ .running := by
      rcases hout with ⟨hst | hst, -⟩ | ⟨hst, -⟩ | ⟨hst, -⟩ <;> simp [hst]
    exact affine_change hs htk (hstarted e htk) hst.1 href hex.runnableQueue
      (fun tk' h => hex.waitingQueue ▸ h) (fun tk' h => hex.awokenQueue ▸ h)
      (fun tk' e' h => .inl h) (hs.cpu.leave hpc hpc' hst.2)
  | @wake e tk he htk =>
    refine affine_requeue hs rfl (fun tk' h => .inl (List.mem_of_mem_erase h)) (fun tk' h => ?_)
      (fun _ _ _ h => h) (fun _ _ h => .inl h)
      (hs.cpu.congr (update_view CoExecutor.runningTask rfl))
    rcases List.mem_append.mp h with h | h
    · exact .inl h
    · obtain rfl := List.mem_singleton.mp h
      exact .inr fun _ => hs.waiting_started e tk' htk
  | @wakeExpired e tk he htk hover =>
    refine affine_requeue hs rfl (fun tk' h => .inl (List.mem_of_mem_erase h)) (fun tk' h => ?_)
      (fun _ _ _ h => h) (fun _ _ h => .inl h)
      (hs.cpu.congr (update_view CoExecutor.runningTask rfl))
    rcases List.mem_append.mp h with h | h
    · exact .inl h
    · obtain rfl := List.mem_singleton.mp h
      exact .inr fun hne => (hne rfl).elim

end Effect

/-- A waker that goes on with executor `e` and is not about to push. -/
lemma wakers_update {n e : ℕ} (wakers : ℕ → WakerPc) (w : ℕ) (pc : WakerPc) (he : e < n)
    (hpush : ∀ e' tk, pc ≠ .push e' tk) (htarget : pc.target = some e) :
    (∀ w' e' tk, Function.update wakers w pc w' = .push e' tk → wakers w' = .push e' tk) ∧
    (∀ w' e', (Function.update wakers w pc w').target = some e' →
      (wakers w').target = some e' ∨ e' < n) :=
  ⟨(Function.forall_update_iff wakers fun w' pc => ∀ e' tk, pc = .push e' tk →
      wakers w' = .push e' tk).mpr ⟨fun e' tk h => absurd h (hpush e' tk), fun _ _ _ _ h => h⟩,
    (Function.forall_update_iff wakers fun w' pc => ∀ e', pc.target = some e' →
      (wakers w').target = some e' ∨ e' < n).mpr
        ⟨fun _ h => .inr (Option.some.inj (htarget.symm.trans h) ▸ he), fun _ _ _ h => .inl h⟩⟩

lemma WakerEffect.affine {s s' : Sched} (h : WakerEffect s s') (hs : s.Affine) : s'.Affine := by
  cases h with
  | @push w e tk he hw =>
    obtain ⟨hpush, htarget⟩ := wakers_update s.wakers w (.pop e) he (by simp) rfl
    refine Effect.affine_requeue hs rfl (fun tk' h => .inl h) (fun tk' h => ?_) hpush htarget
      (hs.cpu.congr (update_view CoExecutor.runningTask rfl))
    rcases List.mem_append.mp h with h | h
    · exact .inl h
    · obtain rfl := List.mem_singleton.mp h
      exact .inr fun _ => hs.waker_started w e tk' hw
  | @pop w e tk rest he hq =>
    obtain ⟨hpush, htarget⟩ := wakers_update s.wakers w (.test e) he (by simp) rfl
    exact Effect.affine_requeue hs rfl (fun tk' h => .inl (by simp [hq, h])) (fun tk' h => .inl h)
      hpush htarget (hs.cpu.congr (update_view CoExecutor.runningTask rfl))

end Sched

end CoroutineCpp
