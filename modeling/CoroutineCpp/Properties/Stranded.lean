import CoroutineCpp.Properties.Yielding

/-!
# Tasks on stopped executors

The idle time-out of an executor raises `m_is_stopping`, and its thread leaves `Process` for good.
Nothing else looks at the flag: `AddTask` of the scheduler picks any executor, the dispatcher hands
out to any executor, and the time-out itself does not look at the waiting queue.

`stranded_iff` says exactly which runs keep the stopped executors free of tasks: those in which no
submission and no batch goes to a stopped executor (`DispatchState.receiver`) and no executor times
out while a task waits on it.
-/

namespace CoroutineCpp

open Framework TransitionSystem

/-! ## Where a pass hands out to -/

namespace DispatchState

/-- The executor to which the next queue operation of the pass pushes a batch, if it does. -/
def receiver (size : ℕ) (d : DispatchState) : Option ℕ :=
  match d.pc with
  | .handOut ((idx, load) :: _) =>
    if wrapSub d.avgLoad load ≠ 0 ∧ idx < size then some idx else none
  | .rest => if d.minLoadIdx < size then some d.minLoadIdx else none
  | _ => none

variable {size : ℕ} {blocking : Bool} {d d' : DispatchState} {t t' : Executors}

lemma access_of_receiver {idx : ℕ} (h : d.receiver size = some idx) :
    d.access = some idx ∧ idx < size := by
  unfold receiver at h
  split at h
  next hpc =>
    obtain ⟨⟨hsupply, hidx⟩, h⟩ := Option.ite_none_right_eq_some.mp h
    obtain rfl := Option.some.inj h
    exact ⟨by simp [access, hpc, hsupply], hidx⟩
  next hpc =>
    obtain ⟨hidx, h⟩ := Option.ite_none_right_eq_some.mp h
    obtain rfl := Option.some.inj h
    exact ⟨by simp [access, hpc], hidx⟩
  next => cases h

/-- A step with a receiver pushes a batch to it that is not empty. -/
lemma step_receiver {idx : ℕ} (hd : d.Wf) (h : d.step size blocking t = some (d', t'))
    (hr : d.receiver size = some idx) :
    idx < size ∧ d'.pc ≠ .outOfBounds ∧ ∃ batch, batch ≠ [] ∧ t' =
      Function.update t idx { t idx with runnableQueue := (t idx).runnableQueue ++ batch } := by
  obtain ⟨haccess, hidx⟩ := access_of_receiver hr
  have hok := hd.pcOk
  cases step_move h with
  | outOfBounds haccess' hsize =>
    obtain rfl := Option.some.inj (haccess'.symm.trans haccess)
    omega
  | @handOut idx' load items hpc hsupply =>
    simp only [PcOk, hpc] at hok
    obtain rfl : idx' = idx := by simpa [access, hpc, hsupply] using haccess
    obtain ⟨batch, hne, -, ht⟩ :=
      handTo_batch idx' t (lt_supplyEnd hok.2.1 hsupply) (d.supplyEnd_le load)
    exact ⟨hidx, by simp, batch, hne, ht⟩
  | @handOutLast idx' load items hpc hsupply =>
    simp only [PcOk, hpc] at hok
    obtain rfl : idx' = idx := by simpa [access, hpc, hsupply] using haccess
    obtain ⟨batch, hne, -, ht⟩ :=
      handTo_batch idx' t (lt_supplyEnd hok.2.1 hsupply) (d.supplyEnd_le load)
    refine ⟨hidx, ?_, batch, hne, ht⟩
    unfold afterHandOut
    split <;> simp
  | rest hpc =>
    simp only [PcOk, hpc] at hok
    obtain rfl : d.minLoadIdx = idx := by simpa [access, hpc] using haccess
    obtain ⟨batch, hne, -, ht⟩ := handTo_batch d.minLoadIdx t hok.2 le_rfl
    exact ⟨hidx, by simp, batch, hne, ht⟩
  | countRunnable hpc | countWaiting hpc | counted hpc | readMin hpc | readDonor hpc
  | readLow hpc | giveUp hpc | handOutEnd hpc => simp [receiver, hpc] at hr
  | handOutSkip hpc hsupply => simp [receiver, hpc, hsupply] at hr

/-- Otherwise the step reads, or takes tasks from the back of a runnable queue. -/
lemma step_of_no_receiver (h : d.step size blocking t = some (d', t'))
    (hr : d.receiver size = none) (e : ℕ) : (t' e).runnableQueue <+: (t e).runnableQueue := by
  cases step_move h with
  | @giveUp idx load hpc =>
    obtain ⟨kept, block, hq, heq⟩ := stealFrom_eq idx load blocking d t
    rw [heq]
    by_cases he : e = idx
    · subst he
      simp [hq]
    · simp [he]
  | handOut hpc hsupply hidx | handOutLast hpc hsupply hidx =>
    simp [receiver, hpc, hsupply, hidx] at hr
  | rest hpc hidx => simp [receiver, hpc, hidx] at hr
  | _ => exact List.prefix_refl _

end DispatchState

/-! ## Stopped executors -/

/-- Once the executor is stopped, nothing is pending on it. -/
def CoExecutor.Spare (ex : CoExecutor) : Prop :=
  ex.isStopping = true → ex.runnableQueue = [] ∧ ex.waitingQueue = [] ∧ ex.awokenQueue = []

/-- The thread is outside `Process` or at the head of its loop. -/
def ProcessPc.parked : ProcessPc → Bool
  | .outside => true
  | .loop .. => true
  | _ => false

/-- `CoScheduler::Stop`, or a dispatcher pass as a whole. -/
def Act.stopsOrDispatches : Act → Bool
  | .stop => true
  | .dispatch .. => true
  | _ => false

/-- A step of a run before `CoScheduler::Stop`; the dispatcher passes run in parts. -/
def BeforeStop (s : Sched) (a : Act) : Prop := WakesWhole s a ∧ a.stopsOrDispatches = false

instance (s : Sched) (a : Act) : Decidable (BeforeStop s a) := inferInstanceAs (Decidable (_ ∧ _))

/-- The steps that are no submission, no time-out and no step of a pass. -/
def Act.isPlain : Act → Bool
  | .addTask .. => false
  | .addTasks .. => false
  | .schedulerTask .. => false
  | .passStep .. => false
  | .timeout .. => false
  | _ => true

namespace Sched

variable {s s' : Sched} {e timeoutMs nowMs : ℕ} {last : Bool}

/-- No stopped executor has a pending task. -/
def NotStranded (s : Sched) : Prop := ∀ e < s.n, (s.executors e).Spare

/-- The thread of a stopped executor has left `Process` or is about to. -/
def StoppedParked (s : Sched) : Prop :=
  ∀ e, (s.executors e).isStopping = true → (s.pc e).parked = true

/-- The step gives no task to a stopped executor, and is no time-out of an executor on which a task
waits. -/
def SparesStopped (s : Sched) : Act → Prop
  | .addTask e _ => (s.executors e).isStopping = false
  | .addTasks e tks => tks ≠ [] → (s.executors e).isStopping = false
  | .schedulerTask rand _ => s.size ≠ 0 →
    (s.executors (s.schedulerTarget rand)).isStopping = false
  | .passStep _ => ∀ idx, s.disp.receiver s.size = some idx → (s.executors idx).isStopping = false
  | .timeout e _ _ _ => (s.executors e).waitingQueue = []
  | _ => True

/-! ### Steps that leave the stopped executors alone -/

/-- No flag is raised or taken back, and a stopped executor whose thread is parked gets nothing. -/
structure LeavesStopped (s s' : Sched) : Prop where
  n : s'.n = s.n
  flag : ∀ e, (s'.executors e).isStopping = (s.executors e).isStopping
  parked : ∀ e, (s.executors e).isStopping = true → (s.pc e).parked = true →
    (s'.pc e).parked = true
  spare : ∀ e, (s.executors e).isStopping = true → (s.pc e).parked = true →
    (s.executors e).Spare → (s'.executors e).Spare

lemma LeavesStopped.notStranded (h : LeavesStopped s s') (hp : s.StoppedParked)
    (hs : s.NotStranded) : s'.NotStranded := by
  intro e he hst
  have hst' := h.flag e ▸ hst
  exact h.spare e hst' (hp e hst') (hs e (h.n ▸ he)) hst

lemma LeavesStopped.stoppedParked (h : LeavesStopped s s') (hp : s.StoppedParked) :
    s'.StoppedParked := by
  intro e hst
  have hst' := h.flag e ▸ hst
  exact h.parked e hst' (hp e hst')

lemma LeavesStopped.trans {s₁ : Sched} (h : LeavesStopped s s₁) (h' : LeavesStopped s₁ s') :
    LeavesStopped s s' where
  n := h'.n.trans h.n
  flag e := (h'.flag e).trans (h.flag e)
  parked e hst hp := h'.parked e ((h.flag e).trans hst) (h.parked e hst hp)
  spare e hst hp hs :=
    h'.spare e ((h.flag e).trans hst) (h.parked e hst hp) (h.spare e hst hp hs)

/-- A step that changes no executor and no thread. -/
lemma LeavesStopped.congr (hn : s'.n = s.n) (hex : s'.executors = s.executors)
    (hpc : s'.pc = s.pc) : LeavesStopped s s' :=
  ⟨hn, fun e => by rw [hex], fun e _ h => by rwa [hpc], fun e _ _ h => by rwa [hex]⟩

/-- A step that changes one executor and its thread. -/
lemma LeavesStopped.update {ex' : CoExecutor} {pc' : ProcessPc} (hn : s'.n = s.n)
    (hex : s'.executors = Function.update s.executors e ex')
    (hpc : s'.pc = Function.update s.pc e pc')
    (hflag : ex'.isStopping = (s.executors e).isStopping)
    (h : (s.executors e).isStopping = true → (s.pc e).parked = true →
      pc'.parked = true ∧ ((s.executors e).Spare → ex'.Spare)) : LeavesStopped s s' := by
  refine ⟨hn, fun e' => ?_, fun e' hst hp => ?_, fun e' hst hp hs => ?_⟩
  · rw [hex]
    exact update_view CoExecutor.isStopping hflag e'
  · rw [hpc]
    by_cases heq : e' = e
    · subst heq
      simpa using (h hst hp).1
    · simpa [heq] using hp
  · rw [hex]
    by_cases heq : e' = e
    · subst heq
      simpa using (h hst hp).2 hs
    · simpa [heq] using hs

/-- A step of a thread that is not parked. -/
lemma LeavesStopped.of_running {ex' : CoExecutor} {pc' : ProcessPc} (hn : s'.n = s.n)
    (hex : s'.executors = Function.update s.executors e ex')
    (hpc : s'.pc = Function.update s.pc e pc')
    (hflag : ex'.isStopping = (s.executors e).isStopping)
    (h : (s.executors e).isStopping = false ∨ (s.pc e).parked = false) : LeavesStopped s s' := by
  refine .update hn hex hpc hflag fun hst hp => ?_
  rcases h with h | h
  · simp [hst] at h
  · simp [hp] at h

lemma LeavesStopped.switchOut {ctx : Coroutine → Option ThreadId} {f : Coroutine → Coroutine}
    {stackRef : Bool} (h : (s.pc e).parked = false) :
    LeavesStopped s (s.switchOut e timeoutMs last nowMs ctx f stackRef) := by
  simp only [Sched.switchOut]
  split
  · obtain ⟨ex', pc', reclaimed, thrown, heq, hex, -, -⟩ :=
      endIteration_eq (s.setTask (s.executors e).runningTask
        { s.tasks (s.executors e).runningTask with
          co := f (s.tasks (s.executors e).runningTask).co, stackRef := stackRef })
        e timeoutMs last nowMs
    rw [heq]
    exact .of_running rfl rfl rfl hex.isStopping (.inr h)
  · exact .congr rfl rfl rfl

lemma LeavesStopped.runTask {nowUs : ℕ} {ex : CoExecutor}
    (hflag : (s.executors e).isStopping = false) (hex : ex.isStopping = false) :
    LeavesStopped s (s.runTask e timeoutMs last nowUs nowMs ex) := by
  have hflag' : ex.isStopping = (s.executors e).isStopping := hex.trans hflag.symm
  simp only [Sched.runTask]
  split
  · exact .congr rfl rfl rfl
  · split
    · exact .congr rfl rfl rfl
    · -- `Resume` has returned at once
      obtain ⟨ex', pc', reclaimed, thrown, heq, hex', -, -⟩ :=
        endIteration_eq (setTask { s.setExecutor e (ex.beforeResume nowUs) with
          resumes := s.resumes ++ [(ex.runningTask, e)] } ex.runningTask
            { s.tasks ex.runningTask with proc := some e }) e timeoutMs last nowMs
      rw [heq]
      refine .of_running rfl (Function.update_idem ..) rfl ?_ (.inl hflag)
      have hex' := hex'.isStopping
      simp only [setTask, setExecutor, Function.update_self] at hex'
      exact hex'.trans hflag'
    · exact .of_running rfl rfl rfl hflag' (.inl hflag)

lemma LeavesStopped.pick {nowUs : ℕ} (hflag : (s.executors e).isStopping = false) :
    LeavesStopped s (s.pick e timeoutMs last nowUs nowMs) := by
  simp only [Sched.pick]
  cases hch : (s.executors e).chooseQueue last with
  | none => exact .of_running rfl rfl rfl rfl (.inl hflag)
  | some b =>
    rcases CoExecutor.assignRunnableTask_of_chooseQueue hch with
      ⟨-, tk, rest, -, hassign⟩ | ⟨-, tk, rest, -, hassign⟩ <;>
      · simp only [hassign]
        exact .runTask hflag hflag

/-- A wakeup finds nothing on a stopped executor. -/
lemma LeavesStopped.wakeupFromEntry (s : Sched) (e : ℕ) (entry : RecoveryEntry) :
    LeavesStopped s (s.wakeupFromEntry e entry).1 := by
  simp only [Sched.wakeupFromEntry]
  split
  next hmem =>
    refine .update (e := e) rfl (Function.update_idem ..) (Function.update_eq_self ..).symm ?_
      fun hst hp => ⟨hp, fun hs => ?_⟩
    · simp [setExecutor]
    · simp [(hs hst).2.1] at hmem
  next => exact .congr rfl rfl rfl

lemma LeavesStopped.hold (hs : s.Affine) (hpc : s.pc e = .resumed timeoutMs last) :
    LeavesStopped s (s.hold e timeoutMs last nowMs) := by
  have hpush : LeavesStopped s (s.holdPush e timeoutMs last) := by
    rw [holdPush_eq hs hpc]
    exact .of_running rfl rfl rfl rfl (.inr (by simp [hpc, ProcessPc.parked]))
  rw [hold_eq hs hpc, holdSwitch, if_pos rfl]
  exact hpush.trans (.switchOut (by simp [(holdPush_effect hs hpc).2, ProcessPc.parked]))

lemma act_leavesStopped {a : Act} (hs : s.Affine) (hplain : a.isPlain = true) (hG : BeforeStop s a)
    (h : s.act a = some s') : LeavesStopped s s' := by
  obtain ⟨⟨-, hw⟩, hstop⟩ := hG
  cases act_move h with
  | addTask | addTasks | schedulerTask | schedulerTaskStopped | passStep | passOutOfBounds
  | timeout => cases hplain
  | wakerStart | wakerStep => cases hw
  | stop | dispatch => cases hstop
  | process | exitLoop =>
    exact .update rfl (Function.update_eq_self ..).symm rfl rfl fun _ _ => ⟨rfl, fun hs => hs⟩
  | pick hpc hflag => exact .pick hflag
  | @wake e _ nowMs nowMs' nowMs'' _ hpc =>
    obtain ⟨-, -, -, -, hst, -⟩ := CoExecutor.idleClean_frame nowMs''
      (CoExecutor.leaveWait nowMs' (s.executors e))
    exact .of_running rfl rfl rfl hst (.inr (by simp [hpc, ProcessPc.parked]))
  | hold hpc => exact .hold hs hpc
  | holdPush hpc =>
    rw [holdPush_eq hs hpc]
    exact .of_running rfl rfl rfl rfl (.inr (by simp [hpc, ProcessPc.parked]))
  | holdSwitch hpc =>
    rw [holdSwitch, if_pos (hs.cpu.holding _ _ _ _ hpc)]
    exact .switchOut (by simp [hpc, ProcessPc.parked])
  | @yield e _ _ _ hpc =>
    unfold yieldCurrent
    simp only
    split
    · exact .congr rfl rfl rfl
    · have hnote : LeavesStopped s
          { s with yielded := s.yielded ++ [(s.executors e).runningTask] } := .congr rfl rfl rfl
      exact hnote.trans (.switchOut (by simp [hpc, ProcessPc.parked]))
  | finish hpc | throw hpc => exact .switchOut (by simp [hpc, ProcessPc.parked])
  | wakeupFromEntry | wakeup => exact .wakeupFromEntry s _ _
  | @wakeupAllTasks e =>
    refine .update (e := e) rfl rfl (Function.update_eq_self ..).symm ?_
      fun hst hp => ⟨hp, fun hs _ => ?_⟩
    · rw [CoExecutor.wakeupAllTasks_eq]
    · simp [CoExecutor.wakeupAllTasks_eq, hs hst]
  | clean =>
    exact .update rfl rfl (Function.update_eq_self ..).symm rfl fun _ hp => ⟨hp, fun hs => hs⟩
  | wakeupInvalid | wakeupUninitialised | passStart | keepRef | dropRef =>
    exact .congr rfl rfl rfl

/-! ### Steps that may strand a task -/

lemma StoppedParked.congr (h : s.StoppedParked) (hpc : s'.pc = s.pc)
    (hflag : ∀ e, (s'.executors e).isStopping = (s.executors e).isStopping) :
    s'.StoppedParked := by
  intro e hst
  rw [hpc]
  exact h e (hflag e ▸ hst)

/-- Only the executor that changes has to be looked at. -/
lemma notStranded_update {ex' : CoExecutor} (h : s.NotStranded) (he : e < s.n)
    (hex : s'.executors = Function.update s.executors e ex') (hn : s'.n = s.n) :
    s'.NotStranded ↔ ex'.Spare := by
  refine ⟨fun h' => by simpa [hex] using h' e (hn ▸ he), fun h' e' he' => ?_⟩
  rw [hex]
  by_cases heq : e' = e
  · subst heq
    simpa using h'
  · simpa [heq] using h e' (hn ▸ he')

lemma spare_append {ex : CoExecutor} {tks : List CoTaskPtr} (hne : tks ≠ []) :
    CoExecutor.Spare { ex with runnableQueue := ex.runnableQueue ++ tks } ↔
      ex.isStopping = false := by
  simp [CoExecutor.Spare, hne]

/-- A submission strands its tasks exactly if it goes to a stopped executor. -/
lemma submit_notStranded {tks : List CoTaskPtr} (h : s.NotStranded) (he : e < s.n)
    (hne : tks ≠ [])
    (hex : s'.executors = Function.update s.executors e
      { s.executors e with runnableQueue := (s.executors e).runnableQueue ++ tks })
    (hn : s'.n = s.n) : s'.NotStranded ↔ (s.executors e).isStopping = false :=
  (notStranded_update h he hex hn).trans (spare_append hne)

lemma addTasks_executors {tks : List CoTaskPtr} :
    (s.addTasks e tks).executors = Function.update s.executors e
      { s.executors e with runnableQueue := (s.executors e).runnableQueue ++ tks } := by
  simp [addTasks, setExecutor]

lemma addTask_executors {tk : CoTaskPtr} (hne : tk ≠ nullptr) :
    (s.addTask e tk).executors = Function.update s.executors e
      { s.executors e with runnableQueue := (s.executors e).runnableQueue ++ [tk] } := by
  simp [addTask, setExecutor, CoExecutor.addTask_fst, hne]

/-- A time-out strands the tasks that wait: `Predicate` has found the other queues empty. -/
lemma timeout_notStranded {nowMs' nowMs'' : ℕ} (h : s.NotStranded) (he : e < s.n)
    (hpred : (s.executors e).predicate nowMs = false) :
    (s.resumeLoop e timeoutMs last nowMs' nowMs''
      { s.executors e with isStopping := true }).NotStranded ↔
      (s.executors e).waitingQueue = [] := by
  obtain ⟨hr, hw, ha, -, hst, -⟩ := CoExecutor.idleClean_frame nowMs''
    (CoExecutor.leaveWait nowMs' { s.executors e with isStopping := true })
  have hempty : (s.executors e).runnableQueue = [] ∧ (s.executors e).awokenQueue = [] := by
    simp only [CoExecutor.predicate, Bool.or_eq_false_iff, Bool.not_eq_false',
      List.isEmpty_iff] at hpred
    exact ⟨hpred.1.1.1, hpred.2⟩
  have hex : (s.resumeLoop e timeoutMs last nowMs' nowMs''
      { s.executors e with isStopping := true }).executors = Function.update s.executors e _ := rfl
  rw [notStranded_update h he hex rfl, CoExecutor.Spare, hr, hw, ha, hst]
  simp [CoExecutor.leaveWait, hempty]

/-- So does a queue operation of the dispatcher. -/
lemma passStep_notStranded {blocking : Bool} {d' : DispatchState} {t' : Executors} (hs : s.Affine)
    (h : s.NotStranded) (hd : s.disp.step s.size blocking s.executors = some (d', t')) :
    NotStranded { s with disp := d', executors := t' } ↔
      ∀ idx, s.disp.receiver s.size = some idx → (s.executors idx).isStopping = false := by
  cases hr : s.disp.receiver s.size with
  | none =>
    refine iff_of_true (fun e he hst => ?_) (by simp)
    have hprefix := DispatchState.step_of_no_receiver hd hr e
    have hframe := (DispatchState.step_effect hs.dispWf hd).frame e
    dsimp only at hst ⊢
    rw [hframe] at hst ⊢
    obtain ⟨hrun, hrest⟩ := h e he hst
    rw [hrun] at hprefix
    exact ⟨List.prefix_nil.mp hprefix, hrest⟩
  | some idx =>
    obtain ⟨hidx, -, batch, hne, rfl⟩ := DispatchState.step_receiver hs.dispWf hd hr
    simp only [Option.some.injEq, forall_eq']
    exact submit_notStranded h (hidx.trans_le hs.size_le) hne rfl rfl

/-! ### Runs -/

lemma step_stoppedParked {a : Act} (hs : s.Affine) (hp : s.StoppedParked) (hG : BeforeStop s a)
    (h : s.act a = some s') : s'.StoppedParked := by
  cases hplain : a.isPlain with
  | true => exact (act_leavesStopped hs hplain hG h).stoppedParked hp
  | false =>
    cases act_move h with
    | addTask | schedulerTask =>
      refine hp.congr rfl (update_view CoExecutor.isStopping ?_)
      rw [CoExecutor.addTask_fst]
    | addTasks =>
      refine hp.congr rfl (update_view CoExecutor.isStopping ?_)
      rw [CoExecutor.addTasks_fst]
    | schedulerTaskStopped | passOutOfBounds => exact hp.congr rfl fun _ => rfl
    | passStep hd =>
      refine hp.congr rfl fun e => ?_
      have hframe := (DispatchState.step_effect hs.dispWf hd).frame e
      dsimp only
      rw [hframe]
    | @timeout e =>
      intro e' hst
      by_cases heq : e' = e
      · subst heq
        simp [resumeLoop, setPc, ProcessPc.parked]
      · simp only [resumeLoop, setPc, setExecutor, Function.update_of_ne heq] at hst ⊢
        exact hp e' hst
    | _ => cases hplain

lemma step_notStranded_iff {a : Act} (hs : s.Affine) (hp : s.StoppedParked) (hns : s.NotStranded)
    (hG : BeforeStop s a) (h : s.act a = some s') : s'.NotStranded ↔ s.SparesStopped a := by
  cases hplain : a.isPlain with
  | true =>
    refine iff_of_true ((act_leavesStopped hs hplain hG h).notStranded hp hns) ?_
    cases a <;> trivial
  | false =>
    obtain ⟨⟨hfresh, -⟩, -⟩ := hG
    cases act_move h with
    | @addTask e tk he =>
      have hne := (hfresh.2 tk (by simp [Act.submits])).1
      exact submit_notStranded hns he (List.cons_ne_nil tk []) (addTask_executors hne) rfl
    | @addTasks e tks he =>
      by_cases hnil : tks = []
      · subst hnil
        refine iff_of_true ?_ (by simp [SparesStopped])
        simpa [addTasks, setExecutor] using hns
      · rw [submit_notStranded hns he hnil addTasks_executors rfl]
        simp [SparesStopped, hnil]
    | @schedulerTask rand tk hsize =>
      have hne := (hfresh.2 tk (by simp [Act.submits])).1
      have he := (schedulerTarget_lt rand hsize).trans_le hs.size_le
      rw [submit_notStranded hns he (List.cons_ne_nil tk []) (addTask_executors hne) rfl]
      simp [SparesStopped, hsize]
    | schedulerTaskStopped hsize => exact iff_of_true hns (by simp [SparesStopped, hsize])
    | passStep hd => exact passStep_notStranded hs hns hd
    | passOutOfBounds hd hpc =>
      refine iff_of_true hns fun idx hr => ?_
      exact absurd hpc (DispatchState.step_receiver hs.dispWf hd hr).2.1
    | @timeout e _ _ _ _ _ hpc hms hpred =>
      exact timeout_notStranded hns (hs.cpu.lt e (by simp [hpc])) hpred
    | _ => cases hplain

lemma reachable_stoppedParked (h : schedSystem.ReachableUnder BeforeStop s) :
    s.Affine ∧ s.StoppedParked := by
  refine ReachableUnder.invariant (I := fun s => s.Affine ∧ s.StoppedParked) (fun s hs => ?_)
    (fun s a s' hreach hI hG hstep => ?_) h
  · refine ⟨init_affine hs, ?_⟩
    obtain ⟨n, id, rfl⟩ := hs
    simp [StoppedParked]
  · have hact := act_of_step hstep
    exact ⟨effects_affine (act_effects hI.1 hG.1.1 hG.1.2 hact) hI.1,
      step_stoppedParked hI.1 hI.2 hG hact⟩

/-- **When tasks are stranded.**  In a run before `CoScheduler::Stop` no stopped executor ever has a
pending task, exactly if every step spares the stopped executors. -/
theorem stranded_iff {tr : List (Sched × Act)} (h : schedSystem.Exec BeforeStop tr s) :
    AlwaysState NotStranded tr s ↔ AlwaysStep SparesStopped tr := by
  refine h.always_iff (fun s hs => ?_) fun s a s' hreach hns hG hstep => ?_
  · obtain ⟨n, id, rfl⟩ := hs
    simp [NotStranded, CoExecutor.Spare]
  · obtain ⟨hs, hp⟩ := reachable_stoppedParked hreach
    exact step_notStranded_iff hs hp hns hG (act_of_step hstep)

/-- A run of two executors in which the first is given a task, finishes it and times out, and then
the second is given one. -/
theorem stranded_iff_two_executors :
    ∃ tr s, schedSystem.Exec BeforeStop tr s ∧ (s.executors 0).isStopping = true ∧
      s.submitted = [1, 2] ∧ (AlwaysState NotStranded tr s ↔ AlwaysStep SparesStopped tr) := by
  obtain ⟨s, hs, hp⟩ := exists_reachable_of_runUnder (G := BeforeStop) (M := schedSystem)
    [.schedulerTask 0 1, .process 0 2000, .pick 0 0 0, .finish 0 0, .pick 0 0 0, .timeout 0 0 0 0,
      .exitLoop 0, .schedulerTask 1 2]
    (fun s => (s.executors 0).isStopping && s.submitted = [1, 2]) ⟨2, fun e => e, rfl⟩ (by decide)
  simp only [Bool.and_eq_true, decide_eq_true_eq] at hp
  obtain ⟨tr, htr⟩ := hs.exists_exec
  exact ⟨tr, s, htr, hp.1, hp.2, stranded_iff htr⟩

/-- Two executors.  The first finds nothing to do, times out and leaves `Process`; then `rand()`
sends a task to it. -/
theorem schedulerTask_strands :
    ∃ s, schedSystem.ReachableUnder BeforeStop s ∧ (s.executors 0).isStopping = true ∧
      s.pc 0 = .outside ∧ (s.executors 0).runnableQueue = [1] ∧ ¬ s.NotStranded := by
  obtain ⟨s, hs, hp⟩ := exists_reachable_of_runUnder (G := BeforeStop) (M := schedSystem)
    [.process 0 2000, .pick 0 0 0, .timeout 0 0 0 0, .exitLoop 0, .schedulerTask 0 1]
    (fun s => s.n = 2 && (s.executors 0).isStopping && s.pc 0 = .outside &&
      (s.executors 0).runnableQueue = [1])
    ⟨2, fun e => e, rfl⟩ (by decide)
  simp only [Bool.and_eq_true, decide_eq_true_eq] at hp
  obtain ⟨⟨⟨hn, hst⟩, hpc⟩, hr⟩ := hp
  refine ⟨s, hs, hst, hpc, hr, fun h => ?_⟩
  simpa [hr] using (h 0 (by omega) hst).1

end Sched

end CoroutineCpp
