import CoroutineCpp.Model.TaskLedger
import CoroutineCpp.Properties.SchedSteps

/-!
# The system keeps its ledger

`Sched.ledger` reads off a state how many tokens of each task stand at each station of a
`TaskLedger`.  `Effect.entry` proves that an effect out of an affine state is booked by one entry,
with a single exception that takes a `WakeupAllTasks` run in parts to arise: a wakeup that finds a
finished task in the waiting queue removes it and pushes the null pointer.
-/

namespace CoroutineCpp

open Framework TaskLedger

lemma ProcessPc.isResumed_of_off {pc : ProcessPc} (h : pc.onCpu = false) :
    pc.isResumed = false := by
  cases pc <;> simp_all [onCpu, isResumed]

lemma ProcessPc.onCpu_of_resumed {pc : ProcessPc} (h : pc.isResumed = true) : pc.onCpu = true := by
  cases pc <;> simp_all [onCpu, isResumed]

/-! ## The stations -/

/-- The task the thread of executor `e` runs, unless it is about to be held. -/
def onCpu (pc : ℕ → ProcessPc) (t : Executors) (e : ℕ) : List CoTaskPtr :=
  if (pc e).isResumed then [(t e).runningTask] else []

/-- The tasks on a CPU that are not about to be held. -/
def cpus (n : ℕ) (pc : ℕ → ProcessPc) (t : Executors) : Multiset CoTaskPtr :=
  total n (onCpu pc t)

/-- The tasks in waiting queues. -/
def waitings (n : ℕ) (t : Executors) : Multiset CoTaskPtr := total n fun e => (t e).waitingQueue

/-- The pointers in awoken queues. -/
def awokens (n : ℕ) (t : Executors) : Multiset CoTaskPtr := total n fun e => (t e).awokenQueue

/-- The ledger of a state. -/
def Sched.ledger (s : Sched) : TaskLedger CoTaskPtr where
  pool := pool s.n s.executors s.disp
  waiting := waitings s.n s.executors
  awoken := awokens s.n s.executors
  cpu := cpus s.n s.pc s.executors
  ended := s.ended
  yielded := s.yielded
  submitted := s.submitted
  resumed := s.resumes.map Prod.fst
  woken := s.wakes

section Cpus

variable {n e : ℕ} {pc : ℕ → ProcessPc} {t t' : Executors} {pc' : ProcessPc} {ex' : CoExecutor}

lemma cpus_congr (ht : ∀ e, (t' e).runningTask = (t e).runningTask) :
    cpus n pc t' = cpus n pc t :=
  total_congr fun e => by simp only [onCpu, ht]

lemma onCpu_update_of_ne {e' : ℕ} (h : e' ≠ e) :
    onCpu (Function.update pc e pc') (Function.update t e ex') e' = onCpu pc t e' := by
  simp [onCpu, h]

lemma cpus_enter (he : e < n) (hpc : (pc e).isResumed = false) (hpc' : pc'.isResumed = true) :
    cpus n (Function.update pc e pc') (Function.update t e ex') =
      cpus n pc t + {ex'.runningTask} :=
  total_append he (fun _ => onCpu_update_of_ne) (by simp [onCpu, hpc, hpc'])

lemma cpus_leave (he : e < n) (hpc : (pc e).isResumed = true) (hpc' : pc'.isResumed = false) :
    cpus n pc t = (t e).runningTask ::ₘ
      cpus n (Function.update pc e pc') (Function.update t e ex') :=
  total_remove he (fun _ => onCpu_update_of_ne) (by simp [onCpu, hpc, hpc'])

lemma cpus_off (hpc : (pc e).isResumed = false) (hpc' : pc'.isResumed = false) :
    cpus n (Function.update pc e pc') (Function.update t e ex') = cpus n pc t := by
  refine total_congr fun e' => ?_
  by_cases heq : e' = e
  · subst heq; simp [onCpu, hpc, hpc']
  · exact onCpu_update_of_ne heq

end Cpus

namespace Sched

variable {s s' : Sched} {e : ℕ} {ex' : CoExecutor}

lemma ended_update {reclaimed l : List CoTaskPtr} (he : e < s.n) (hn : s'.n = s.n)
    (hex : s'.executors = Function.update s.executors e ex')
    (hrec : s'.reclaimed = s.reclaimed ++ reclaimed)
    (hfin : reclaimed ++ ex'.finishedQueue = (s.executors e).finishedQueue ++ l) :
    s'.ended = s.ended + (l : Multiset CoTaskPtr) :=
  over_eq hn he (fun e' he' => by simp [hex, he']) (by simpa [hex] using hfin) hrec

/-- `Clean` moves tasks, and `ended` counts them before and after. -/
lemma ended_update_clean {reclaimed : List CoTaskPtr} (he : e < s.n) (hn : s'.n = s.n)
    (hex : s'.executors = Function.update s.executors e ex')
    (hrec : s'.reclaimed = s.reclaimed ++ reclaimed)
    (hfin : reclaimed ++ ex'.finishedQueue = (s.executors e).finishedQueue ++ []) :
    s'.ended = s.ended :=
  (ended_update he hn hex hrec hfin).trans (add_zero _)

lemma ended_update_of_eq (hn : s'.n = s.n) (hex : s'.executors = Function.update s.executors e ex')
    (hrec : s'.reclaimed = s.reclaimed)
    (hfin : ex'.finishedQueue = (s.executors e).finishedQueue) : s'.ended = s.ended := by
  rw [ended, ended, hn, hrec, hex, total_update_of_eq CoExecutor.finishedQueue hfin]

lemma resumed_append (resumes : List (CoTaskPtr × ℕ)) (tk : CoTaskPtr) (e : ℕ) :
    (((resumes ++ [(tk, e)]).map Prod.fst : List CoTaskPtr) : Multiset CoTaskPtr) =
      (resumes.map Prod.fst : List CoTaskPtr) + {tk} := by
  rw [List.map_append, ← Multiset.coe_add]
  rfl

/-! ## Effects are booked -/

lemma Quiet.ledger_eq (h : Quiet s s') (hs : s.Affine) : s'.ledger = s.ledger := by
  have hcpu : cpus s'.n s'.pc s'.executors = cpus s.n s.pc s.executors := by
    rw [h.n]
    refine total_congr fun e => ?_
    rcases h.pc e with heq | ⟨-, hoff, hoff'⟩
    · simp only [onCpu, heq, h.runningTask]
    · simp [onCpu, ProcessPc.isResumed_of_off hoff, ProcessPc.isResumed_of_off hoff']
  have hrun : runnables s'.n s'.executors = runnables s.n s.executors :=
    h.n ▸ total_congr h.runnableQueue
  have hw : waitings s'.n s'.executors = waitings s.n s.executors :=
    h.n ▸ total_congr h.waitingQueue
  have ha : awokens s'.n s'.executors = awokens s.n s.executors :=
    h.n ▸ total_congr h.awokenQueue
  simp only [ledger, pool, hrun, h.outstanding hs.dispWf, hw, ha, hcpu, h.ended, h.yielded,
    h.submitted, h.resumes, h.wakes]

/-- A queue operation of the dispatcher moves tasks within the pool. -/
lemma ledger_pass {d' : DispatchState} {t' : Executors} (hs : s.Affine)
    (h : DispatchState.StepEffect s.disp d' s.executors t') :
    Sched.ledger { s with disp := d', executors := t' } = s.ledger := by
  have hw : waitings s.n t' = waitings s.n s.executors := total_congr fun e => by rw [h.frame e]
  have ha : awokens s.n t' = awokens s.n s.executors := total_congr fun e => by rw [h.frame e]
  have hcpu : cpus s.n s.pc t' = cpus s.n s.pc s.executors := cpus_congr fun e => by rw [h.frame e]
  have hfin : ∀ e, (t' e).finishedQueue = (s.executors e).finishedQueue :=
    fun e => by rw [h.frame e]
  have hover : Sched.ended { s with disp := d', executors := t' } = s.ended :=
    congrArg (· + (s.reclaimed : Multiset CoTaskPtr)) (total_congr hfin)
  exact TaskLedger.ext (h.pool_eq hs.dispCount) hw ha hcpu hover rfl rfl rfl rfl

/-- A first resumption takes its task from the pool to the CPU. -/
lemma entry_start {tk : CoTaskPtr} {pc' : ProcessPc} (he : e < s.n)
    (hpc : (s.pc e).onCpu = false) (hpc' : pc'.isResumed = true)
    (hq : (s.executors e).runnableQueue = tk :: ex'.runnableQueue)
    (hex : CoExecutor.SamePending { s.executors e with runnableQueue := ex'.runnableQueue } ex')
    (hfin : ex'.finishedQueue = (s.executors e).finishedQueue) (hrun : ex'.runningTask = tk)
    (tasks : CoTaskPtr → CoTask) :
    Entry s.ledger (Sched.ledger { s with
      executors := Function.update s.executors e ex'
      pc := Function.update s.pc e pc'
      tasks := tasks
      resumes := s.resumes ++ [(tk, e)] }) := by
  have hpool : s.ledger.pool = tk ::ₘ pool s.n (Function.update s.executors e ex') s.disp := by
    have hpop : runnables s.n s.executors =
        tk ::ₘ runnables s.n (Function.update s.executors e ex') := runnables_pop he hq
    simp only [ledger, pool, hpop, Multiset.cons_add]
  convert Entry.start hpool using 1
  refine TaskLedger.ext rfl (total_update_of_eq CoExecutor.waitingQueue hex.waitingQueue)
    (total_update_of_eq CoExecutor.awokenQueue hex.awokenQueue) ?_
    (ended_update_of_eq rfl rfl rfl hfin) rfl rfl (resumed_append _ _ _) rfl
  simp only [ledger, cpus_enter he (ProcessPc.isResumed_of_off hpc) hpc', hrun]

/-- `Hold` takes the running task from the CPU to the waiting queues. -/
lemma entry_hold {timeoutMs : ℕ} {last : Bool} (he : e < s.n) (hpc : (s.pc e).isResumed = true)
    (entries : List RecoveryEntry) :
    Entry s.ledger (Sched.ledger { s with
      executors := Function.update s.executors e
        { s.executors e with
          waitingQueue := (s.executors e).waitingQueue ++ [(s.executors e).runningTask] }
      pc := Function.update s.pc e (.holding timeoutMs last e)
      entries := entries }) := by
  have hpop : s.ledger.cpu = (s.executors e).runningTask ::ₘ
      cpus s.n (Function.update s.pc e (.holding timeoutMs last e))
        (Function.update s.executors e { s.executors e with
          waitingQueue := (s.executors e).waitingQueue ++ [(s.executors e).runningTask] }) :=
    cpus_leave he hpc rfl
  convert Entry.hold hpop using 1
  refine TaskLedger.ext ?_ (total_update_append CoExecutor.waitingQueue he rfl)
    (total_update_of_eq CoExecutor.awokenQueue rfl) rfl (ended_update_of_eq rfl rfl rfl rfl)
    rfl rfl rfl rfl
  exact pool_update_of_eq s.n s.disp rfl

/-- A body that leaves the CPU is over, or has called `Yield`, or is held; a held task was booked
as waiting by the push. -/
lemma entry_leave {pc' : ProcessPc} {task' : CoTask} {reclaimed yielded : List CoTaskPtr}
    (he : e < s.n) (hpc' : pc'.onCpu = false) (hex : CoExecutor.SamePending (s.executors e) ex')
    (hfin : reclaimed ++ ex'.finishedQueue = (s.executors e).finishedQueue ++
      CoExecutor.justFinished task'.co.status (s.executors e).runningTask)
    (hout : (task'.co.status = .finished ∨ task'.co.status = .except) ∧
        (s.pc e).isResumed = true ∧ yielded = [] ∨
      task'.co.status = .hold ∧ (s.pc e).isResumed = true ∧
        yielded = [(s.executors e).runningTask] ∨
      task'.co.status = .hold ∧ (s.pc e).isResumed = false ∧ yielded = [])
    (tasks : CoTaskPtr → CoTask) (thrown : List (ℕ × ExceptionPtr)) :
    Entry s.ledger (Sched.ledger { s with
      executors := Function.update s.executors e ex'
      pc := Function.update s.pc e pc'
      tasks := tasks
      reclaimed := s.reclaimed ++ reclaimed
      yielded := s.yielded ++ yielded
      thrown := thrown }) := by
  have hpool : pool s.n (Function.update s.executors e ex') s.disp =
      pool s.n s.executors s.disp := pool_update_of_eq s.n s.disp hex.runnableQueue
  have hw : waitings s.n (Function.update s.executors e ex') = waitings s.n s.executors :=
    total_update_of_eq CoExecutor.waitingQueue hex.waitingQueue
  have ha : awokens s.n (Function.update s.executors e ex') = awokens s.n s.executors :=
    total_update_of_eq CoExecutor.awokenQueue hex.awokenQueue
  have hpop : (s.pc e).isResumed = true → s.ledger.cpu = (s.executors e).runningTask ::ₘ
      cpus s.n (Function.update s.pc e pc') (Function.update s.executors e ex') := fun hres =>
    cpus_leave he hres (ProcessPc.isResumed_of_off hpc')
  rcases hout with ⟨hst, hres, rfl⟩ | ⟨hst, hres, rfl⟩ | ⟨hst, hres, rfl⟩
  · rw [CoExecutor.justFinished, if_pos hst] at hfin
    convert Entry.finish (hpop hres) using 1
    exact TaskLedger.ext hpool hw ha rfl (ended_update he rfl rfl rfl hfin) (by simp [ledger])
      rfl rfl rfl
  · rw [CoExecutor.justFinished, if_neg (by simp [hst])] at hfin
    convert Entry.yield (hpop hres) using 1
    exact TaskLedger.ext hpool hw ha rfl (ended_update_clean he rfl rfl rfl hfin)
      (Multiset.coe_add _ _).symm rfl rfl rfl
  · rw [CoExecutor.justFinished, if_neg (by simp [hst])] at hfin
    convert Entry.rest using 1
    exact TaskLedger.ext hpool hw ha (cpus_off hres (ProcessPc.isResumed_of_off hpc'))
      (ended_update_clean he rfl rfl rfl hfin) (by simp [ledger]) rfl rfl rfl

/-- **An effect out of an affine state is one entry of the ledger**, unless it is a wakeup that
drops the last reference to a finished task. -/
theorem Effect.entry (h : Effect s s') (hs : s.Affine) :
    Entry s.ledger s'.ledger ∨
      (∃ e tk, tk ∈ (s.executors e).waitingQueue ∧
        ((s.tasks tk).co.status = .finished ∨ (s.tasks tk).co.status = .except)) ∧
      ∃ b, Slip s.ledger b ∧ Slip b s'.ledger := by
  cases h with
  | quiet h => exact .inl (h.ledger_eq hs ▸ .rest)
  | @submit e tks he hnd hnew =>
    refine .inl ?_
    have hrun : runnables s.n (Function.update s.executors e { s.executors e with
        runnableQueue := (s.executors e).runnableQueue ++ tks }) =
        runnables s.n s.executors + (tks : Multiset CoTaskPtr) := runnables_append he rfl
    convert Entry.submit (b := s.ledger) (tks : Multiset CoTaskPtr) using 1
    refine TaskLedger.ext ?_ (total_update_of_eq CoExecutor.waitingQueue rfl)
      (total_update_of_eq CoExecutor.awokenQueue rfl) (cpus_congr (update_view _ rfl))
      (ended_update_of_eq rfl rfl rfl rfl) rfl (Multiset.coe_add _ _).symm rfl rfl
    simp only [ledger, pool, hrun]
    abel
  | pass h => exact .inl (ledger_pass hs h ▸ .rest)
  | start he hpc hpc' hq hex hfin hrun =>
    exact .inl (entry_start he hpc hpc' hq hex hfin hrun _)
  | @resume e tk ex' pc' he hpc hpc' hq hex hfin hrun hst =>
    refine .inl ?_
    have hpop : s.ledger.awoken = tk ::ₘ awokens s.n (Function.update s.executors e ex') :=
      total_update_remove CoExecutor.awokenQueue he (.of_eq hq)
    convert Entry.resume hpop using 1
    refine TaskLedger.ext ?_ (total_update_of_eq CoExecutor.waitingQueue hex.waitingQueue) rfl ?_
      (ended_update_of_eq rfl rfl rfl hfin) rfl rfl (resumed_append _ _ _) rfl
    · exact pool_update_of_eq s.n s.disp hex.runnableQueue
    · simp only [ledger, cpus_enter he (ProcessPc.isResumed_of_off hpc) hpc', hrun]
  | @inert e tk ex' pc' reclaimed thrown he hpc hpc' hq hex hfin hst =>
    refine .inl ?_
    have hpop : s.ledger.awoken = tk ::ₘ awokens s.n (Function.update s.executors e ex') :=
      total_update_remove CoExecutor.awokenQueue he (.of_eq hq)
    convert Entry.inert hpop using 1
    refine TaskLedger.ext ?_ (total_update_of_eq CoExecutor.waitingQueue hex.waitingQueue) rfl
      (cpus_off (ProcessPc.isResumed_of_off hpc) (ProcessPc.isResumed_of_off hpc'))
      (ended_update he rfl rfl rfl hfin) rfl rfl (resumed_append _ _ _) rfl
    exact pool_update_of_eq s.n s.disp hex.runnableQueue
  | hold he hpc hpc' =>
    obtain ⟨timeoutMs, last, rfl⟩ := hpc'
    exact .inl (entry_hold he hpc _)
  | leave he hpc hpc' hex hfin href hstarted hout =>
    exact .inl (entry_leave he hpc' hex hfin hout _ _)
  | @wake e tk he htk =>
    refine .inl ?_
    set ex' : CoExecutor := { s.executors e with
      waitingQueue := (s.executors e).waitingQueue.erase tk
      awokenQueue := (s.executors e).awokenQueue ++ [tk] } with hex'
    have hpop : s.ledger.waiting = tk ::ₘ waitings s.n (Function.update s.executors e ex') :=
      total_update_remove CoExecutor.waitingQueue he (List.perm_cons_erase htk)
    convert Entry.wake hpop using 1
    refine TaskLedger.ext ?_ rfl (total_update_append CoExecutor.awokenQueue he rfl)
      (cpus_congr (update_view _ rfl)) (ended_update_of_eq rfl rfl rfl rfl) rfl rfl rfl
      (Multiset.coe_add _ _).symm
    exact pool_update_of_eq s.n s.disp rfl
  | @wakeExpired e tk he htk hover =>
    refine .inr ⟨⟨e, tk, htk, hover⟩, ?_⟩
    set ex' : CoExecutor := { s.executors e with
      waitingQueue := (s.executors e).waitingQueue.erase tk
      awokenQueue := (s.executors e).awokenQueue ++ [nullptr] } with hex'
    have hpop : s.ledger.waiting = tk ::ₘ waitings s.n (Function.update s.executors e ex') :=
      total_update_remove CoExecutor.waitingQueue he (List.perm_cons_erase htk)
    refine ⟨_, .remove hpop, ?_⟩
    convert Slip.push nullptr using 1
    refine TaskLedger.ext ?_ rfl (total_update_append CoExecutor.awokenQueue he rfl)
      (cpus_congr (update_view _ rfl)) (ended_update_of_eq rfl rfl rfl rfl) rfl rfl rfl
      (Multiset.coe_add _ _).symm
    exact pool_update_of_eq s.n s.disp rfl

end Sched

end CoroutineCpp
