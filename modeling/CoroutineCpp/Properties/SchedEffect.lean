import CoroutineCpp.Model.Sched
import CoroutineCpp.Properties.DispatchRefinement

/-!
# What a step of the system can do to the tasks

`Sched.act` has some two dozen labels, but only a few ways to touch a task.  `Effect` lists them,
each with the facts about the state it starts from; a step is a sequence of effects (one for most
labels, two for a whole `Hold`, one per task for a whole `WakeupAllTasks`, one per queue operation
for a whole dispatcher pass).  `WakerEffect` adds the push and the pop of a `WakeupAllTasks` that
runs one queue call at a time.

That a step is a sequence of effects is proved in `Properties/SchedSteps.lean`, because the facts an
effect carries are those of the affinity invariant.
-/

namespace CoroutineCpp

open Framework

/-! ## Started tasks -/

/-- The coroutine of the task was resumed for the first time by executor `e`. -/
structure CoTask.StartedOn (e : ℕ) (task : CoTask) : Prop where
  proc : task.proc = some e
  masterCo : task.co.masterCo = some e
  ucLink : task.co.ucLink = some e
  stack : task.co.stack = true

lemma CoTask.StartedOn.co_ne {e : ℕ} {task : CoTask} (h : task.StartedOn e) : task.co ≠ {} := by
  intro hco
  have hm := h.masterCo
  simp [hco] at hm

/-- A faulting step of this kind found a coroutine in the wrong state or on the wrong thread. -/
def Fault.ofTask : Fault → Bool
  | .assertion => true
  | .foreignContext => true
  | _ => false

/-- The queues of pending tasks, the flag and the name of an executor are left alone. -/
structure CoExecutor.SamePending (ex ex' : CoExecutor) : Prop where
  runnableQueue : ex'.runnableQueue = ex.runnableQueue
  waitingQueue : ex'.waitingQueue = ex.waitingQueue
  awokenQueue : ex'.awokenQueue = ex.awokenQueue
  isStopping : ex'.isStopping = ex.isStopping
  id : ex'.id = ex.id

namespace Sched

/-- The tasks in finished queues and those already dropped from one. -/
def ended (s : Sched) : Multiset CoTaskPtr :=
  total s.n (fun e => (s.executors e).finishedQueue) + (s.reclaimed : Multiset CoTaskPtr)

/-! ## Effects -/

/-- No task moves, except out of a finished queue. -/
structure Quiet (s s' : Sched) : Prop where
  n : s'.n = s.n
  size : s'.size ≤ s.size
  runnableQueue : ∀ e, (s'.executors e).runnableQueue = (s.executors e).runnableQueue
  waitingQueue : ∀ e, (s'.executors e).waitingQueue = (s.executors e).waitingQueue
  awokenQueue : ∀ e, (s'.executors e).awokenQueue = (s.executors e).awokenQueue
  runningTask : ∀ e, (s'.executors e).runningTask = (s.executors e).runningTask
  id : ∀ e, (s'.executors e).id = (s.executors e).id
  pc : ∀ e, s'.pc e = s.pc e ∨ e < s.n ∧ (s.pc e).onCpu = false ∧ (s'.pc e).onCpu = false
  tasks : s'.tasks = s.tasks
  dispWf : s.disp.Wf → s'.disp.Wf
  dispCount : s.size ≤ s.n → s.disp.executorCount ≤ s.n → s'.disp.executorCount ≤ s.n
  outstanding : s.disp.Wf → s'.disp.outstanding = s.disp.outstanding
  wakers : ∀ w e tk, s'.wakers w = .push e tk →
    s.wakers w = .push e tk ∨ tk ∈ (s.executors e).waitingQueue
  wakerTarget : ∀ w e, (s'.wakers w).target = some e → (s.wakers w).target = some e ∨ e < s.n
  submitted : s'.submitted = s.submitted
  resumes : s'.resumes = s.resumes
  wakes : s'.wakes = s.wakes
  yielded : s'.yielded = s.yielded
  entries : s'.entries = s.entries
  ended : s'.ended = s.ended
  fault : ∀ f, s'.fault = some f → s.fault = some f ∨ f.ofTask = false

/-- One way a step can touch a task. -/
inductive Effect (s : Sched) : Sched → Prop
  | quiet {s' : Sched} (h : Quiet s s') : Effect s s'
  /-- new tasks go to the back of a runnable queue -/
  | submit {e : ℕ} {tks : List CoTaskPtr} (he : e < s.n) (hnd : tks.Nodup)
      (hnew : ∀ tk ∈ tks, tk ≠ nullptr ∧ tk ∉ s.submitted) :
      Effect s { s with
        executors := Function.update s.executors e
          { s.executors e with runnableQueue := (s.executors e).runnableQueue ++ tks }
        submitted := s.submitted ++ tks }
  /-- a queue operation of the dispatcher -/
  | pass {d' : DispatchState} {t' : Executors}
      (h : DispatchState.StepEffect s.disp d' s.executors t') (hwf : d'.Wf)
      (hcount : d'.executorCount ≤ s.n) :
      Effect s { s with disp := d', executors := t' }
  /-- a task is resumed for the first time, from the front of a runnable queue -/
  | start {e : ℕ} {tk : CoTaskPtr} {ex' : CoExecutor} {pc' : ProcessPc} (he : e < s.n)
      (hpc : (s.pc e).onCpu = false) (hpc' : pc'.isResumed = true)
      (hq : (s.executors e).runnableQueue = tk :: ex'.runnableQueue)
      (hex : CoExecutor.SamePending { s.executors e with runnableQueue := ex'.runnableQueue } ex')
      (hfin : ex'.finishedQueue = (s.executors e).finishedQueue) (hrun : ex'.runningTask = tk)
      (hco : (s.tasks tk).co = {}) :
      Effect s { s with
        executors := Function.update s.executors e ex'
        pc := Function.update s.pc e pc'
        tasks := Function.update s.tasks tk
          { proc := some e, co := { Coroutine.prepare e {} with status := .running } }
        resumes := s.resumes ++ [(tk, e)] }
  /-- a held task is resumed, from the front of the awoken queue -/
  | resume {e : ℕ} {tk : CoTaskPtr} {ex' : CoExecutor} {pc' : ProcessPc} (he : e < s.n)
      (hpc : (s.pc e).onCpu = false) (hpc' : pc'.isResumed = true)
      (hq : (s.executors e).awokenQueue = tk :: ex'.awokenQueue)
      (hex : CoExecutor.SamePending { s.executors e with awokenQueue := ex'.awokenQueue } ex')
      (hfin : ex'.finishedQueue = (s.executors e).finishedQueue) (hrun : ex'.runningTask = tk)
      (hst : (s.tasks tk).co.status = .hold) :
      Effect s { s with
        executors := Function.update s.executors e ex'
        pc := Function.update s.pc e pc'
        tasks := Function.update s.tasks tk
          { proc := some e, co := { (s.tasks tk).co with status := .running } }
        resumes := s.resumes ++ [(tk, e)] }
  /-- `Resume` of a task that is over, from the front of the awoken queue -/
  | inert {e : ℕ} {tk : CoTaskPtr} {ex' : CoExecutor} {pc' : ProcessPc}
      {reclaimed : List CoTaskPtr} {thrown : List (ℕ × ExceptionPtr)} (he : e < s.n)
      (hpc : (s.pc e).onCpu = false) (hpc' : pc'.onCpu = false)
      (hq : (s.executors e).awokenQueue = tk :: ex'.awokenQueue)
      (hex : CoExecutor.SamePending { s.executors e with awokenQueue := ex'.awokenQueue } ex')
      (hfin : reclaimed ++ ex'.finishedQueue = (s.executors e).finishedQueue ++ [tk])
      (hst : (s.tasks tk).co.status = .finished ∨ (s.tasks tk).co.status = .except) :
      Effect s { s with
        executors := Function.update s.executors e ex'
        pc := Function.update s.pc e pc'
        resumes := s.resumes ++ [(tk, e)]
        reclaimed := s.reclaimed ++ reclaimed
        thrown := thrown }
  /-- a running task is pushed onto the waiting queue of its executor -/
  | hold {e : ℕ} {pc' : ProcessPc} (he : e < s.n) (hpc : (s.pc e).isResumed = true)
      (hpc' : ∃ timeoutMs last, pc' = .holding timeoutMs last e) :
      Effect s { s with
        executors := Function.update s.executors e
          { s.executors e with
            waitingQueue := (s.executors e).waitingQueue ++ [(s.executors e).runningTask] }
        pc := Function.update s.pc e pc'
        entries := s.entries ++ [{ tk := (s.executors e).runningTask, id := (s.executors e).id }] }
  /-- the running task leaves the CPU -/
  | leave {e : ℕ} {ex' : CoExecutor} {pc' : ProcessPc} {task' : CoTask}
      {reclaimed yielded : List CoTaskPtr} {thrown : List (ℕ × ExceptionPtr)} (he : e < s.n)
      (hpc : (s.pc e).onCpu = true) (hpc' : pc'.onCpu = false)
      (hex : CoExecutor.SamePending (s.executors e) ex')
      (hfin : reclaimed ++ ex'.finishedQueue = (s.executors e).finishedQueue ++
        CoExecutor.justFinished task'.co.status (s.executors e).runningTask)
      (href : task'.co.status = .hold → task'.stackRef = true)
      (hstarted : ∀ e', (s.tasks (s.executors e).runningTask).StartedOn e' → task'.StartedOn e')
      (hout : (task'.co.status = .finished ∨ task'.co.status = .except) ∧
          (s.pc e).isResumed = true ∧ yielded = [] ∨
        task'.co.status = .hold ∧ (s.pc e).isResumed = true ∧
          yielded = [(s.executors e).runningTask] ∨
        task'.co.status = .hold ∧ (s.pc e).isResumed = false ∧ yielded = []) :
      Effect s { s with
        executors := Function.update s.executors e ex'
        pc := Function.update s.pc e pc'
        tasks := Function.update s.tasks (s.executors e).runningTask task'
        reclaimed := s.reclaimed ++ reclaimed
        yielded := s.yielded ++ yielded
        thrown := thrown }
  /-- a wakeup moves a task from the waiting to the awoken queue -/
  | wake {e : ℕ} {tk : CoTaskPtr} (he : e < s.n) (htk : tk ∈ (s.executors e).waitingQueue) :
      Effect s { s with
        executors := Function.update s.executors e
          { s.executors e with
            waitingQueue := (s.executors e).waitingQueue.erase tk
            awokenQueue := (s.executors e).awokenQueue ++ [tk] }
        wakes := s.wakes ++ [tk] }
  /-- a wakeup removes a task that is over from the waiting queue, dropping the last reference to
  it, and pushes the null pointer instead -/
  | wakeExpired {e : ℕ} {tk : CoTaskPtr} (he : e < s.n)
      (htk : tk ∈ (s.executors e).waitingQueue)
      (hover : (s.tasks tk).co.status = .finished ∨ (s.tasks tk).co.status = .except) :
      Effect s { s with
        executors := Function.update s.executors e
          { s.executors e with
            waitingQueue := (s.executors e).waitingQueue.erase tk
            awokenQueue := (s.executors e).awokenQueue ++ [nullptr] }
        wakes := s.wakes ++ [nullptr] }

/-- The queue calls of a `WakeupAllTasks` that runs in parts. -/
inductive WakerEffect (s : Sched) : Sched → Prop
  | push {w e : ℕ} {tk : CoTaskPtr} (he : e < s.n) (hw : s.wakers w = .push e tk) :
      WakerEffect s { s with
        executors := Function.update s.executors e
          { s.executors e with awokenQueue := (s.executors e).awokenQueue ++ [tk] }
        wakers := Function.update s.wakers w (.pop e)
        wakes := s.wakes ++ [tk] }
  | pop {w e : ℕ} {tk : CoTaskPtr} {rest : List CoTaskPtr} (he : e < s.n)
      (hq : (s.executors e).waitingQueue = tk :: rest) :
      WakerEffect s { s with
        executors := Function.update s.executors e { s.executors e with waitingQueue := rest }
        wakers := Function.update s.wakers w (.test e) }

end Sched

end CoroutineCpp
