import CoroutineCpp.Properties.ReadyRuns
import CoroutineCpp.Properties.Yielding

/-!
# A coroutine that throws

`std::rethrow_exception` leaves `Process` from the middle of an iteration, after the counters, the
finished queue and `m_running_task` have been brought up to date and before the size of the finished
queue is tested.  `throw_recovers` says in what state that leaves the executor and what can happen
to the task and to the others afterwards, whatever the run before and after it:

* the counters agree whenever no body runs (`Counted`), in every run;
* a task that has thrown is never resumed again (`Dead`), because no queue holds it;
* the other tasks are picked as they would have been, by the laws of the ready queues
  (`Properties/ReadyRuns.lean`), which do not ask how `Process` was left.

Only a body that throws makes `Process` throw (`act_thrown`).
-/

namespace CoroutineCpp

open Framework TransitionSystem Server Relation

/-- The step may switch a body in or out. -/
def Act.switches : Act → Bool
  | .pick .. => true
  | .hold .. => true
  | .holdSwitch .. => true
  | .yield .. => true
  | .finish .. => true
  | .throw .. => true
  | _ => false

namespace Sched

variable {s s' : Sched} {e timeoutMs nowMs : ℕ} {last : Bool}

/-! ## Steps that switch no body in or out -/

/-- No body is switched in or out, and no exception leaves `Process`. -/
structure Calm (s s' : Sched) : Prop where
  switchCnt : ∀ e, (s'.executors e).switchCnt = (s.executors e).switchCnt
  switchedCnt : ∀ e, (s'.executors e).switchedCnt = (s.executors e).switchedCnt
  onCpu : ∀ e, (s'.pc e).onCpu = (s.pc e).onCpu
  thrown : s'.thrown = s.thrown

/-- A change of one executor and its thread. -/
lemma Calm.of_update {ex' : CoExecutor} {pc' : ProcessPc}
    (hex : s'.executors = Function.update s.executors e ex')
    (hpc : s'.pc = Function.update s.pc e pc') (hthrown : s'.thrown = s.thrown)
    (hcnt : ex'.switchCnt = (s.executors e).switchCnt)
    (hcnt' : ex'.switchedCnt = (s.executors e).switchedCnt)
    (hcpu : pc'.onCpu = (s.pc e).onCpu) : Calm s s' where
  switchCnt := hex ▸ update_view CoExecutor.switchCnt hcnt
  switchedCnt := hex ▸ update_view CoExecutor.switchedCnt hcnt'
  onCpu e' := by
    rw [hpc]
    by_cases h : e' = e
    · subst h
      simpa using hcpu
    · rw [Function.update_of_ne h]
  thrown := hthrown

/-- A change of an executor alone. -/
lemma Calm.setExecutor {ex' : CoExecutor}
    (hex : s'.executors = Function.update s.executors e ex') (hpc : s'.pc = s.pc)
    (hthrown : s'.thrown = s.thrown) (hcnt : ex'.switchCnt = (s.executors e).switchCnt)
    (hcnt' : ex'.switchedCnt = (s.executors e).switchedCnt) : Calm s s' :=
  .of_update hex (hpc.trans (Function.update_eq_self e s.pc).symm) hthrown hcnt hcnt' rfl

/-- A change of a thread alone. -/
lemma Calm.setPc {pc' : ProcessPc} (hcpu : pc'.onCpu = (s.pc e).onCpu) : Calm s (s.setPc e pc') :=
  .of_update (Function.update_eq_self e s.executors).symm rfl rfl rfl rfl hcpu

/-- A step that touches neither executors nor threads. -/
lemma Calm.of_eq (hex : s'.executors = s.executors) (hpc : s'.pc = s.pc)
    (hthrown : s'.thrown = s.thrown) : Calm s s' where
  switchCnt e := by rw [hex]
  switchedCnt e := by rw [hex]
  onCpu e := by rw [hpc]
  thrown := hthrown

lemma Calm.trans {s₁ s₂ s₃ : Sched} (h : Calm s₁ s₂) (h' : Calm s₂ s₃) : Calm s₁ s₃ where
  switchCnt e := (h'.switchCnt e).trans (h.switchCnt e)
  switchedCnt e := (h'.switchedCnt e).trans (h.switchedCnt e)
  onCpu e := (h'.onCpu e).trans (h.onCpu e)
  thrown := h'.thrown.trans h.thrown

lemma Calm.fail (s : Sched) (f : Fault) : Calm s (s.fail f) := .of_eq rfl rfl rfl

lemma Calm.resumeLoop {nowMs' : ℕ} {stopping : Bool} (hpc : s.pc e = .waiting timeoutMs last) :
    Calm s (s.resumeLoop e timeoutMs last nowMs nowMs'
      { s.executors e with isStopping := stopping }) := by
  obtain ⟨hcnt, hcnt'⟩ := CoExecutor.idleClean_counts nowMs'
    (CoExecutor.leaveWait nowMs { s.executors e with isStopping := stopping })
  exact .of_update rfl rfl rfl hcnt hcnt' (by rw [hpc]; rfl)

lemma Calm.holdPush (hpc : s.pc e = .resumed timeoutMs last) :
    Calm s (s.holdPush e timeoutMs last) := by
  simp only [Sched.holdPush]
  split
  · exact .of_eq rfl rfl rfl
  next p _ =>
    split
    · exact .fail s _
    · split
      · exact .fail s _
      · have hpush : Calm s (s.setExecutor p { s.executors p with
            waitingQueue := (s.executors p).waitingQueue.pushBack (s.executors p).runningTask }) :=
          .setExecutor rfl rfl rfl rfl rfl
        refine hpush.trans (.of_update (Function.update_eq_self e _).symm rfl rfl rfl rfl ?_)
        show _ = (s.pc e).onCpu
        rw [hpc]
        rfl

lemma Calm.wakeupFromEntry (s : Sched) (e : ℕ) (entry : RecoveryEntry) :
    Calm s (s.wakeupFromEntry e entry).1 := by
  simp only [Sched.wakeupFromEntry]
  split
  · refine .setExecutor (e := e) (Function.update_idem _ _ _) rfl rfl ?_ ?_ <;>
    simp [Sched.setExecutor]
  · exact .of_eq rfl rfl rfl

lemma Calm.wakerStep {w : ℕ} (h : s.wakerStep w = some s') : Calm s s' := by
  unfold Sched.wakerStep at h
  split at h
  · cases h
  · split at h <;>
    · obtain rfl := Option.some.inj h
      exact .of_eq rfl rfl rfl
  · split at h <;>
    · obtain rfl := Option.some.inj h
      exact .of_eq rfl rfl rfl
  next e _ _ =>
    obtain rfl := Option.some.inj h
    exact .setExecutor (e := e) rfl rfl rfl rfl rfl
  next e _ =>
    split at h
    · obtain rfl := Option.some.inj h
      exact .of_eq rfl rfl rfl
    · obtain rfl := Option.some.inj h
      exact .setExecutor (e := e) rfl rfl rfl rfl rfl

/-- New runnable queues, as the dispatcher leaves them. -/
lemma Calm.runnableQueues {t' : Executors} {d' : DispatchState}
    (h : ∀ e, t' e = { s.executors e with runnableQueue := (t' e).runnableQueue }) :
    Calm s { s with disp := d', executors := t' } where
  switchCnt e := by
    show (t' e).switchCnt = _
    rw [h e]
  switchedCnt e := by
    show (t' e).switchedCnt = _
    rw [h e]
  onCpu _ := rfl
  thrown := rfl

/-- **Every other step is calm.** -/
lemma act_calm {a : Act} (hsw : a.switches = false) (h : s.act a = some s') : Calm s s' := by
  cases act_move h with
  | @addTask e tk | @schedulerTask _ tk =>
    refine .setExecutor rfl rfl rfl ?_ ?_ <;> rw [CoExecutor.addTask_fst]
  | @addTasks e tks =>
    refine .setExecutor (e := e) rfl rfl rfl ?_ ?_ <;> rw [CoExecutor.addTasks_fst]
  | schedulerTaskStopped | wakeupUninitialised | passOutOfBounds => exact .fail s _
  | process _ hpc | exitLoop hpc => exact .setPc (by rw [hpc]; rfl)
  | wake hpc | timeout hpc => exact .resumeLoop hpc
  | holdPush hpc => exact .holdPush hpc
  | wakeupFromEntry | wakeup => exact .wakeupFromEntry s _ _
  | wakeupInvalid | wakerStart | passStart | keepRef | dropRef => exact .of_eq rfl rfl rfl
  | @wakeupAllTasks e =>
    refine .setExecutor (e := e) rfl rfl rfl ?_ ?_ <;> rw [CoExecutor.wakeupAllTasks_eq]
  | wakerStep hstep => exact .wakerStep hstep
  | @dispatch nowUs =>
    have hrun := dispatchTasksEqually_run s.size
      (fun e => (s.executors e).isBlocking (nowUs e)) s.executors
    exact .runnableQueues (PassStep.frame hrun)
  | passStep hstep => exact .runnableQueues (DispatchState.step_frame hstep)
  | @clean e => exact .setExecutor (e := e) rfl rfl rfl rfl rfl
  | stop =>
    refine ⟨fun e => ?_, fun e => ?_, fun _ => rfl, rfl⟩ <;>
    · simp only [Sched.stop]
      split <;> rfl
  | pick | hold | holdSwitch | yield | finish | throw => cases hsw

/-! ## The counters -/

/-- `m_switch_cnt` is ahead of `m_switched_cnt` by the body that runs, if one does. -/
def CountedAt (e : ℕ) (s : Sched) : Prop :=
  (s.executors e).switchCnt = (s.executors e).switchedCnt + if (s.pc e).onCpu then 1 else 0

/-- The counters of all executors. -/
def Counted (s : Sched) : Prop := ∀ e, s.CountedAt e

lemma Calm.counted (h : Calm s s') (hs : s.Counted) : s'.Counted := by
  intro e
  rw [CountedAt, h.switchCnt, h.switchedCnt, h.onCpu]
  exact hs e

/-- The end of an iteration evens the counters out. -/
lemma Counted.endIteration (hs : ∀ e', e' ≠ e → s.CountedAt e')
    (he : (s.executors e).switchCnt = (s.executors e).switchedCnt + 1) :
    (s.endIteration e timeoutMs last nowMs).Counted := by
  obtain ⟨ex', pc', hex, hpc, -, -, hcnt, hcnt', hback⟩ :=
    endIteration_update s e timeoutMs last nowMs
  have hcpu : pc'.onCpu = false := by
    obtain rfl | rfl := hback <;> rfl
  intro e'
  by_cases heq : e' = e
  · subst heq
    simp [CountedAt, hex, hpc, hcnt, hcnt', hcpu, he]
  · simpa [CountedAt, hex, hpc, heq] using hs e' heq

lemma Counted.switchOut {ctx : Coroutine → Option ThreadId} {f : Coroutine → Coroutine}
    {stackRef : Bool} (hs : s.Counted) (hpc : (s.pc e).onCpu = true) :
    (s.switchOut e timeoutMs last nowMs ctx f stackRef).Counted := by
  simp only [Sched.switchOut]
  split
  · have he := hs e
    rw [CountedAt, if_pos hpc] at he
    exact Counted.endIteration (fun e' _ => hs e') he
  · exact (Calm.fail s _).counted hs

lemma Counted.holdSwitch {p : ℕ} (hs : s.Counted) (hpc : (s.pc e).onCpu = true) :
    (s.holdSwitch e timeoutMs last p nowMs).Counted := by
  simp only [Sched.holdSwitch]
  split
  · exact hs.switchOut hpc
  · exact (Calm.fail s _).counted hs

lemma Counted.pick {nowUs : ℕ} (hs : s.Counted) (hpc : s.pc e = .loop timeoutMs last) :
    (s.pick e timeoutMs last nowUs nowMs).Counted := by
  simp only [Sched.pick]
  split
  · have hcalm : Calm s ((s.setExecutor e (s.executors e).enterWait).setPc e
        (.waiting timeoutMs last)) := .of_update rfl rfl rfl rfl rfl (by rw [hpc]; rfl)
    exact hcalm.counted hs
  next b hchoose =>
    have hassign : ∃ ex₂ last₂, (s.executors e).assignRunnableTask b = some (ex₂, last₂) ∧
        ex₂.switchCnt = (s.executors e).switchCnt ∧
        ex₂.switchedCnt = (s.executors e).switchedCnt := by
      rcases CoExecutor.assignRunnableTask_of_chooseQueue hchoose with
        ⟨-, tk, rest, -, hassign⟩ | ⟨-, tk, rest, -, hassign⟩ <;>
      exact ⟨_, _, hassign, rfl, rfl⟩
    obtain ⟨ex₂, last₂, hassign, hcnt, hcnt'⟩ := hassign
    have hone : (ex₂.beforeResume nowUs).switchCnt = (ex₂.beforeResume nowUs).switchedCnt + 1 := by
      have he := hs e
      simp only [CountedAt, hpc, ProcessPc.onCpu, Bool.false_eq_true, if_false] at he
      simp only [CoExecutor.beforeResume]
      omega
    have hother : ∀ e', e' ≠ e → (s.setExecutor e (ex₂.beforeResume nowUs)).CountedAt e' := by
      intro e' heq
      simp only [CountedAt, setExecutor, Function.update_of_ne heq]
      exact hs e'
    simp only [hassign, runTask]
    split
    · exact (Calm.fail s _).counted hs
    · split
      · exact (Calm.fail s _).counted hs
      · refine Counted.endIteration hother ?_
        simpa [setExecutor, setTask] using hone
      · intro e'
        by_cases heq : e' = e
        · subst heq
          simpa [CountedAt, setExecutor, setTask, setPc, ProcessPc.onCpu] using hone
        · simp only [CountedAt, setPc, Function.update_of_ne heq]
          exact hother e' heq

/-- The counters agree in every run. -/
lemma reachable_counted {G : Sched → Act → Prop} (h : schedSystem.ReachableUnder G s) :
    s.Counted := by
  refine ReachableUnder.invariant ?_ (fun s a s' _ hs _ hstep => ?_) h
  · rintro s ⟨n, id, rfl⟩ e
    rfl
  have hact := act_of_step hstep
  cases hsw : a.switches with
  | false => exact (act_calm hsw hact).counted hs
  | true =>
    cases act_move hact with
    | pick hpc => exact hs.pick hpc
    | @hold e timeoutMs nowMs last hpc =>
      have hpush := (Calm.holdPush hpc).counted hs
      simp only [Sched.hold]
      split
      next hpc' => exact hpush.holdSwitch (by rw [hpc']; rfl)
      next => exact hpush
    | holdSwitch hpc => exact hs.holdSwitch (by rw [hpc]; rfl)
    | yield hpc =>
      simp only [Sched.yieldCurrent]
      split
      · exact (Calm.fail _ _).counted hs
      · have hlog : ∀ yielded, Counted { s with yielded := yielded } := fun _ => hs
        exact (hlog _).switchOut (by rw [hpc]; rfl)
    | finish hpc | throw hpc => exact hs.switchOut (by rw [hpc]; rfl)
    | _ => cases hsw

/-! ## Which steps make `Process` throw -/

/-- An iteration that ends with another status than `EXCEPT` throws nothing. -/
lemma endIteration_thrown (h : (s.tasks (s.executors e).runningTask).co.status ≠ .except) :
    (s.endIteration e timeoutMs last nowMs).thrown = s.thrown := by
  have hnone : ((s.executors e).afterResume (s.tasks (s.executors e).runningTask).co.status
      (s.tasks (s.executors e).runningTask).co.exPtr nowMs).rethrown = none := by
    rw [CoExecutor.afterResume_rethrown, if_neg h]
  simp only [endIteration, hnone]
  rfl

lemma switchOut_thrown {ctx : Coroutine → Option ThreadId} {f : Coroutine → Coroutine}
    {stackRef : Bool} (hf : ∀ co : Coroutine, (f co).status ≠ .except) :
    (s.switchOut e timeoutMs last nowMs ctx f stackRef).thrown = s.thrown := by
  simp only [switchOut]
  split
  · refine endIteration_thrown ?_
    simpa [setTask] using hf _
  · rfl

lemma holdSwitch_thrown {p : ℕ} :
    (s.holdSwitch e timeoutMs last p nowMs).thrown = s.thrown := by
  simp only [holdSwitch]
  split
  · exact switchOut_thrown fun co h => by cases h
  · rfl

/-- A pick never meets a task that is over, so it throws nothing. -/
lemma pick_thrown {nowUs : ℕ} (hs : s.Affine) (hp : s.Placed)
    (hpc : s.pc e = .loop timeoutMs last) :
    (s.pick e timeoutMs last nowUs nowMs).thrown = s.thrown := by
  have he := hs.cpu.lt e (by simp [hpc])
  simp only [pick]
  split
  · rfl
  next b hchoose =>
    have hassign : ∃ ex₂ last₂, (s.executors e).assignRunnableTask b = some (ex₂, last₂) ∧
        (s.tasks ex₂.runningTask).co.resume e ≠ .inert := by
      rcases CoExecutor.assignRunnableTask_of_chooseQueue hchoose with
        ⟨-, tk, rest, hq, hassign⟩ | ⟨-, tk, rest, hq, hassign⟩
      · have hheld : s.Held e tk := .inr (by simp [hq])
        exact ⟨_, _, hassign, fun h => hp.not_over hheld (Coroutine.resume_eq_inert h)⟩
      · have hmem : tk ∈ pool s.n s.executors s.disp :=
          Affine.mem_pool_of_runnable he (by simp [hq])
        refine ⟨_, _, hassign, fun h => ?_⟩
        have hover := Coroutine.resume_eq_inert h
        rw [show (s.tasks tk).co = {} from hs.pool_new tk hmem] at hover
        rcases hover with hover | hover <;> cases hover
    obtain ⟨ex₂, last₂, hassign, hinert⟩ := hassign
    simp only [hassign, runTask]
    split
    · rfl
    · split
      · rfl
      next h => exact absurd h hinert
      · rfl

/-- The whole of a step at which a body throws. -/
lemma throw_eq (hs : s.Affine) (hpc : s.pc e = .resumed timeoutMs last) (ex : ExceptionPtr) :
    s.switchOut e timeoutMs last nowMs Coroutine.ucLink (Coroutine.runThrew ex) false =
      { s with
        executors := Function.update s.executors e
          { s.executors e with
            switchedCnt := (s.executors e).switchedCnt + 1
            finishedQueue := (s.executors e).finishedQueue ++ [(s.executors e).runningTask]
            runningTask := nullptr }
        pc := Function.update s.pc e .outside
        tasks := Function.update s.tasks (s.executors e).runningTask
          { s.tasks (s.executors e).runningTask with
            co := (s.tasks (s.executors e).runningTask).co.runThrew ex, stackRef := false }
        reclaimed := s.reclaimed ++ []
        thrown := s.thrown ++ [(e, ex)] } := by
  have hctx := (hs.cpu.started e (by rw [hpc]; rfl)).ucLink
  simp only [switchOut, hctx, if_true, endIteration, setTask, Function.update_self,
    Coroutine.runThrew, CoExecutor.afterResume, ThreadSafeDeque.pushBack]
  rfl

/-- **Only a body that throws makes `Process` throw**, and then its own exception. -/
lemma act_thrown {a : Act} (hs : s.Affine) (hp : s.Placed) (h : s.act a = some s') :
    s'.thrown = s.thrown ∨
      ∃ e ex nowMs, a = .throw e ex nowMs ∧ s'.thrown = s.thrown ++ [(e, ex)] := by
  cases hsw : a.switches with
  | false => exact .inl (act_calm hsw h).thrown
  | true =>
    cases act_move h with
    | pick hpc => exact .inl (pick_thrown hs hp hpc)
    | hold hpc =>
      refine .inl ?_
      have hpush := (Calm.holdPush hpc).thrown
      simp only [hold]
      split
      next => exact holdSwitch_thrown.trans hpush
      next => exact hpush
    | holdSwitch hpc => exact .inl holdSwitch_thrown
    | yield hpc =>
      refine .inl ?_
      simp only [yieldCurrent]
      split
      · rfl
      · exact switchOut_thrown fun co h => by cases h
    | finish hpc => exact .inl (switchOut_thrown fun co h => by cases h)
    | @throw e _ nowMs _ ex hpc =>
      exact .inr ⟨e, ex, nowMs, rfl, by rw [throw_eq hs hpc]⟩
    | _ => cases hsw

/-! ## A task that has thrown -/

/-- The task has thrown and was not resumed after the resumptions `before`. -/
structure Dead (tk : CoTaskPtr) (before : List (CoTaskPtr × ℕ)) (s : Sched) : Prop where
  status : (s.tasks tk).co.status = .except
  resumes : ∃ later, s.resumes = before ++ later ∧ ∀ p ∈ later, p.1 ≠ tk

variable {tk : CoTaskPtr} {before : List (CoTaskPtr × ℕ)}

/-- A resumption of another task. -/
lemma Dead.resume (hd : Dead tk before s) {tk' : CoTaskPtr} (hne : tk' ≠ tk)
    (hst : (s'.tasks tk).co.status = (s.tasks tk).co.status)
    (hres : s'.resumes = s.resumes ++ [(tk', e)]) : Dead tk before s' := by
  obtain ⟨hstatus, later, heq, hlater⟩ := hd
  refine ⟨hst.trans hstatus, later ++ [(tk', e)], by rw [hres, heq, List.append_assoc], ?_⟩
  intro p hp
  rcases List.mem_append.mp hp with hp | hp
  · exact hlater p hp
  · rw [List.mem_singleton.mp hp]
    exact hne

/-- Only a task that is new, held or running is touched by an effect. -/
lemma Effect.dead (h : Effect s s') (hs : s.Affine) (hp : s.Placed) (hd : Dead tk before s) :
    Dead tk before s' := by
  have hst := hd.status
  cases h with
  | quiet h => exact ⟨by rw [h.tasks]; exact hst, by rw [h.resumes]; exact hd.resumes⟩
  | @start e tk' ex' pc' he hpc hpc' hq hex hfin hrun hco =>
    have hne : tk' ≠ tk := by
      rintro rfl
      simp [hco] at hst
    exact hd.resume hne (by simp [hne.symm]) rfl
  | @resume e tk' ex' pc' he hpc hpc' hq hex hfin hrun hhold =>
    have hne : tk' ≠ tk := by
      rintro rfl
      simp [hhold] at hst
    exact hd.resume hne (by simp [hne.symm]) rfl
  | @inert e tk' ex' pc' reclaimed thrown he hpc hpc' hq hex hfin hover =>
    exact absurd hover (hp.not_over (e := e) (.inr (by simp [hq])))
  | @leave e ex' pc' task' reclaimed yielded thrown he hpc =>
    have hne : tk ≠ (s.executors e).runningTask := by
      rintro rfl
      simp [hs.cpu.running e hpc] at hst
    exact ⟨by simpa [hne] using hst, hd.resumes⟩
  | submit | pass | hold | wake | wakeExpired => exact ⟨hst, hd.resumes⟩

/-- **A task that has thrown is never resumed again.** -/
lemma reachable_dead {s₀ : Sched} (hs₀ : schedSystem.ReachableUnder WakesWhole s₀)
    (hd : Dead tk before s₀) (h : (schedSystem.startAt s₀).ReachableUnder WakesWhole s) :
    Dead tk before s := by
  refine h.invariant_startAt hd fun s a s' h ih hG hstep => ?_
  have hinv := reachable_placed (fun _ _ hG => hG) (hs₀.of_startAt h)
  have heffs := act_effects hinv.1 hG.1 hG.2 (act_of_step hstep)
  suffices hall : s'.Affine ∧ s'.Placed ∧ Dead tk before s' from hall.2.2
  clear hstep
  induction heffs with
  | refl => exact ⟨hinv.1, hinv.2, ih⟩
  | tail _ heff ih =>
    obtain ⟨hs, hp, hd⟩ := ih
    exact ⟨heff.affine hs, heff.placed hs hp, heff.dead hs hp hd⟩

/-! ## The state an exception leaves, and what comes after it -/

/-- Executor `e` in the state `s'` after the exception `ex` of its running task has left
`Process`. -/
structure Rethrown (e : ℕ) (ex : ExceptionPtr) (s s' : Sched) : Prop where
  thrown : s'.thrown = s.thrown ++ [(e, ex)]
  pc : s'.pc e = .outside
  runnableQueue : ∀ e, (s'.executors e).runnableQueue = (s.executors e).runnableQueue
  waitingQueue : ∀ e, (s'.executors e).waitingQueue = (s.executors e).waitingQueue
  awokenQueue : ∀ e, (s'.executors e).awokenQueue = (s.executors e).awokenQueue
  finishedQueue : (s'.executors e).finishedQueue.count (s.executors e).runningTask = 1
  status : (s'.tasks (s.executors e).runningTask).co.status = .except
  runningTask : (s'.executors e).runningTask = nullptr
  counters : (s'.executors e).switchCnt = (s'.executors e).switchedCnt

/-- After a run with the steps `tr` from `s` to `t`, the task `tk` has not been resumed again, and
what executor `e` has picked from each of its ready queues, and after it what is in that queue,
begins with the tasks that were there in `s`, in their order; of the runnable ones those at the
end may be missing if the dispatcher has been at work. -/
def GoesOn (e : ℕ) (tk : CoTaskPtr) (s : Sched) (tr : List (Sched × Act)) (t : Sched) : Prop :=
  (∃ later, t.resumes = s.resumes ++ later ∧ ∀ p ∈ later, p.1 ≠ tk) ∧
  ∃ picks, t.resumesOf e = s.resumesOf e ++ picks.map Prod.snd ∧
    (s.executors e).awokenQueue <+: takenFrom true picks ++ (t.executors e).awokenQueue ∧
    ∃ kept stolen, (s.executors e).runnableQueue = kept ++ stolen ∧
      kept <+: takenFrom false picks ++ (t.executors e).runnableQueue ∧
      (AlwaysStep (fun _ a => a.isDispatch = false) tr → stolen = [])

/-- The queues of an executor go on in order, whatever the state it is in. -/
lemma goesOn_queues {H : Sched → Act → Prop} {K : ReadyState → ReadyAct → Prop} {t : Sched}
    (hG : ∀ s a, H s a → ∀ r b, ReadyAct.PartOf e a b → K r b)
    (h : (schedSystem.startAt s).ReachableUnder H t) :
    ∃ r, (readySystem (s.executors e) ((s.pc e).lastRetrieve.getD false)).ReachableUnder K r ∧
      t.resumesOf e = s.resumesOf e ++ r.picks.map Prod.snd ∧
      (s.executors e).awokenQueue <+: takenFrom true r.picks ++ (t.executors e).awokenQueue ∧
      ∃ kept stolen, (s.executors e).runnableQueue = kept ++ stolen ∧
        kept <+: takenFrom false r.picks ++ (t.executors e).runnableQueue ∧
        stolen ⊆ r.stolen := by
  obtain ⟨r, hr, hf⟩ := reachable_followed hG h
  have hawoken : takenFrom true r.picks ++ r.ex.awokenQueue =
      (s.executors e).awokenQueue ++ r.arrived true :=
    (ReadyState.server_inOrder hr true).eq_of_removed rfl
  obtain ⟨kept, stolen, hq, hkept, hstolen⟩ := (ReadyState.server_inOrder hr false).kept
  refine ⟨r, hr, hf.resumes, ?_, kept, stolen, hq, ?_, hstolen⟩
  · rw [← hf.ex, hawoken]
    exact List.prefix_append _ _
  · rw [← hf.ex]
    exact hkept

lemma goesOn_of_exec {tr : List (Sched × Act)} {t : Sched}
    (hs : schedSystem.ReachableUnder WakesWhole s) (hst : (s.tasks tk).co.status = .except)
    (h : (schedSystem.startAt s).Exec WakesWhole tr t) : GoesOn e tk s tr t := by
  have hdead : Dead tk s.resumes t :=
    reachable_dead hs ⟨hst, [], by simp⟩ h.reachableUnder
  refine ⟨hdead.resumes, ?_⟩
  by_cases hquiet : AlwaysStep (fun (_ : Sched) (a : Act) => a.isDispatch = false) tr
  · -- without the dispatcher nothing is stolen
    obtain ⟨r, hr, hres, hawoken, kept, stolen, hq, hkept, hstolen⟩ :=
      goesOn_queues (K := fun _ b => b.isGiveUp = false) (e := e) (fun s a hH r b hpart => by
        cases b with
        | giveUpTasks => exact absurd (hH.2.symm.trans hpart) Bool.false_ne_true
        | _ => rfl) (h.reachableUnder_and hquiet)
    rw [ReadyState.stolen_eq_nil (fun _ _ h => h) hr] at hstolen
    exact ⟨r.picks, hres, hawoken, kept, stolen, hq, hkept,
      fun _ => List.subset_nil.mp hstolen⟩
  · obtain ⟨r, -, hres, hawoken, kept, stolen, hq, hkept, -⟩ :=
      goesOn_queues (K := fun _ _ => True) (e := e) (fun _ _ _ _ _ _ => trivial) h.reachableUnder
    exact ⟨r.picks, hres, hawoken, kept, stolen, hq, hkept, fun h => absurd h hquiet⟩

lemma wakesWhole_throw (s : Sched) (e : ℕ) (ex : ExceptionPtr) (nowMs : ℕ) :
    WakesWhole s (.throw e ex nowMs) :=
  ⟨⟨List.nodup_nil, fun _ htk => absurd htk List.not_mem_nil⟩, rfl⟩

lemma rethrown_of_step {ex : ExceptionPtr} (h : schedSystem.ReachableUnder WakesWhole s)
    (hstep : schedSystem.step s (.throw e ex nowMs) = some s') : Rethrown e ex s s' := by
  obtain ⟨hs, hp⟩ := reachable_placed (fun _ _ hG => hG) h
  have hcounted : s'.CountedAt e :=
    reachable_counted (.step h (wakesWhole_throw s e ex nowMs) hstep) e
  cases act_move (act_of_step hstep) with
  | @throw _ timeoutMs _ last _ hpc =>
    have hcpu : (s.pc e).onCpu = true := by rw [hpc]; rfl
    have he : e < s.n := hs.cpu.lt_of_onCpu hcpu
    -- the task still runs, so it is not yet among the finished ones
    have hnew : (s.executors e).runningTask ∉ (s.executors e).finishedQueue := by
      intro hmem
      have hended : (s.executors e).runningTask ∈ s.ended :=
        Multiset.mem_add.mpr (.inl (mem_total.mpr ⟨e, he, hmem⟩))
      have hrun := hs.cpu.running e hcpu
      rcases hp.ended_status _ hended with hst | hst <;> simp [hrun] at hst
    rw [throw_eq hs hpc ex] at hcounted ⊢
    refine ⟨rfl, Function.update_self .., ?_, ?_, ?_, ?_, ?_, ?_, ?_⟩
    · exact update_view CoExecutor.runnableQueue rfl
    · exact update_view CoExecutor.waitingQueue rfl
    · exact update_view CoExecutor.awokenQueue rfl
    · simp [List.count_eq_zero.mpr hnew]
    · simp [Coroutine.runThrew]
    · simp
    · simpa [CountedAt, ProcessPc.onCpu] using hcounted

/-- **A coroutine that throws leaves its executor usable.** In every run that submits new tasks
only and takes each `WakeupAllTasks` as one step, a body that throws makes `Process` throw this
exception and leaves the queues as they are, the task once in the finished queue, `m_running_task`
null and the counters even.  Whatever comes after it, the task is never resumed again, and the
executor takes the other tasks of each queue in their order.  No other step makes `Process`
throw. -/
theorem throw_recovers (h : schedSystem.ReachableUnder WakesWhole s) :
    (∀ e ex nowMs s', schedSystem.step s (.throw e ex nowMs) = some s' →
      Rethrown e ex s s' ∧
      ∀ tr t, (schedSystem.startAt s').Exec WakesWhole tr t →
        GoesOn e (s.executors e).runningTask s' tr t) ∧
    (∀ a s', schedSystem.step s a = some s' →
      s'.thrown = s.thrown ∨
        ∃ e ex nowMs, a = .throw e ex nowMs ∧ s'.thrown = s.thrown ++ [(e, ex)]) := by
  obtain ⟨hs, hp⟩ := reachable_placed (fun _ _ hG => hG) h
  refine ⟨fun e ex nowMs s' hstep => ?_, fun a s' hstep => act_thrown hs hp (act_of_step hstep)⟩
  have hthrow := rethrown_of_step h hstep
  exact ⟨hthrow, fun tr t htr =>
    goesOn_of_exec (.step h (wakesWhole_throw s e ex nowMs) hstep) hthrow.status htr⟩

/-- Task 1 has been held and woken when it throws, task 2 is awoken by then and task 3 still
runnable; `Process` is called again and resumes both. -/
theorem throw_recovers_held :
    ∃ s s' tr t, schedSystem.ReachableUnder WakesWhole s ∧
      schedSystem.step s (.throw 0 7 0) = some s' ∧ Rethrown 0 7 s s' ∧
      (s'.executors 0).awokenQueue = [2] ∧ (s'.executors 0).runnableQueue = [3] ∧
      (schedSystem.startAt s').Exec WakesWhole tr t ∧ t.resumesOf 0 = [1, 2, 1, 2, 3] ∧
      GoesOn 0 1 s' tr t := by
  obtain ⟨s, hs, hp⟩ := exists_reachable_of_runUnder (G := WakesWhole) (M := schedSystem)
    [.addTasks 0 [1, 2, 3], .process 0 0, .pick 0 0 0, .hold 0 0, .pick 0 0 0, .hold 0 0,
      .wakeupAllTasks 0, .pick 0 0 0]
    (fun s => (s.executors 0).runningTask = 1 &&
      ((schedSystem.step s (.throw 0 7 0)).bind fun s' =>
        if (s'.executors 0).awokenQueue = [2] ∧ (s'.executors 0).runnableQueue = [3] then
          ((schedSystem.startAt s').runUnder WakesWhole s'
            [.process 0 0, .pick 0 0 0, .finish 0 0, .pick 0 0 0]).map fun t => t.resumesOf 0
        else none) = some [1, 2, 1, 2, 3])
    ⟨1, fun _ => 1, rfl⟩ (by decide)
  simp only [Bool.and_eq_true, decide_eq_true_eq] at hp
  obtain ⟨htk, hp⟩ := hp
  obtain ⟨s', hstep, hp⟩ := Option.bind_eq_some_iff.mp hp
  obtain ⟨⟨hawoken, hrunnable⟩, hp⟩ := Option.ite_none_right_eq_some.mp hp
  obtain ⟨t, hrun, hres⟩ := Option.map_eq_some_iff.mp hp
  obtain ⟨tr, htr⟩ := (ReachableUnder.runUnder (.init rfl) hrun).exists_exec
  obtain ⟨hthrow, hgoes⟩ := (throw_recovers hs).1 0 7 0 s' hstep
  exact ⟨s, s', tr, t, hs, hstep, hthrow, hawoken, hrunnable, htr, hres, htk ▸ hgoes tr t htr⟩

end Sched

end CoroutineCpp
