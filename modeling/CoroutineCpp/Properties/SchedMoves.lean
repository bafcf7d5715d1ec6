import CoroutineCpp.Model.Sched

/-!
# The cases of a step

`Move s a` lists the cases of `Sched.act`: for each label the guards that were met and the operation
of the model that was run.  `act_move` is the one place where `act` is unfolded.  What a step does
to the tasks (`Properties/SchedSteps.lean`), to the threads and to the flags is proved by cases on
the move.
-/

namespace CoroutineCpp

namespace Sched

/-- The executor `CoScheduler::AddTask` picks for the value of `rand()`. -/
def schedulerTarget (s : Sched) (rand : ℕ) : ℕ := if s.size = 1 then 0 else rand % s.size

variable {s s' : Sched}

lemma schedulerTarget_lt (rand : ℕ) (hsize : s.size ≠ 0) : s.schedulerTarget rand < s.size := by
  unfold schedulerTarget
  split
  · omega
  · exact Nat.mod_lt _ (by omega)

/-- The ways to carry out a step with the given label. -/
inductive Move (s : Sched) : Act → Sched → Prop
  | addTask {e : ℕ} {tk : CoTaskPtr} (he : e < s.n) : Move s (.addTask e tk) (s.addTask e tk)
  | addTasks {e : ℕ} {tks : List CoTaskPtr} (he : e < s.n) :
      Move s (.addTasks e tks) (s.addTasks e tks)
  | schedulerTask {rand : ℕ} {tk : CoTaskPtr} (hsize : s.size ≠ 0) :
      Move s (.schedulerTask rand tk) (s.addTask (s.schedulerTarget rand) tk)
  | schedulerTaskStopped {rand : ℕ} {tk : CoTaskPtr} (hsize : s.size = 0) :
      Move s (.schedulerTask rand tk) (s.fail .divisionByZero)
  | process {e timeoutMs : ℕ} (he : e < s.n) (hpc : s.pc e = .outside) :
      Move s (.process e timeoutMs) (s.setPc e (.loop timeoutMs false))
  | exitLoop {e timeoutMs : ℕ} {last : Bool} (hpc : s.pc e = .loop timeoutMs last)
      (hst : (s.executors e).isStopping = true) : Move s (.exitLoop e) (s.setPc e .outside)
  | pick {e timeoutMs nowUs nowMs : ℕ} {last : Bool} (hpc : s.pc e = .loop timeoutMs last)
      (hst : (s.executors e).isStopping = false) :
      Move s (.pick e nowUs nowMs) (s.pick e timeoutMs last nowUs nowMs)
  | wake {e timeoutMs nowMs nowMs' nowMs'' : ℕ} {last : Bool}
      (hpc : s.pc e = .waiting timeoutMs last)
      (hpred : (s.executors e).predicate nowMs = true) :
      Move s (.wake e nowMs nowMs' nowMs'')
        (s.resumeLoop e timeoutMs last nowMs' nowMs'' (s.executors e))
  | timeout {e timeoutMs nowMs nowMs' nowMs'' : ℕ} {last : Bool}
      (hpc : s.pc e = .waiting timeoutMs last) (hms : timeoutMs ≠ 0)
      (hpred : (s.executors e).predicate nowMs = false) :
      Move s (.timeout e nowMs nowMs' nowMs'')
        (s.resumeLoop e timeoutMs last nowMs' nowMs'' { s.executors e with isStopping := true })
  | hold {e timeoutMs nowMs : ℕ} {last : Bool} (hpc : s.pc e = .resumed timeoutMs last) :
      Move s (.hold e nowMs) (s.hold e timeoutMs last nowMs)
  | holdPush {e timeoutMs : ℕ} {last : Bool} (hpc : s.pc e = .resumed timeoutMs last) :
      Move s (.holdPush e) (s.holdPush e timeoutMs last)
  | holdSwitch {e timeoutMs p nowMs : ℕ} {last : Bool}
      (hpc : s.pc e = .holding timeoutMs last p) :
      Move s (.holdSwitch e nowMs) (s.holdSwitch e timeoutMs last p nowMs)
  | yield {e timeoutMs nowMs : ℕ} {last : Bool} (hpc : s.pc e = .resumed timeoutMs last) :
      Move s (.yield e nowMs) (s.yieldCurrent e timeoutMs last nowMs)
  | finish {e timeoutMs nowMs : ℕ} {last : Bool} (hpc : s.pc e = .resumed timeoutMs last) :
      Move s (.finish e nowMs)
        (s.switchOut e timeoutMs last nowMs Coroutine.ucLink Coroutine.runReturned false)
  | throw {e timeoutMs nowMs : ℕ} {last : Bool} {ex : ExceptionPtr}
      (hpc : s.pc e = .resumed timeoutMs last) :
      Move s (.throw e ex nowMs)
        (s.switchOut e timeoutMs last nowMs Coroutine.ucLink (Coroutine.runThrew ex) false)
  | wakeupFromEntry {e : ℕ} {entry : RecoveryEntry} (he : e < s.n) :
      Move s (.wakeupFromEntry e entry) (s.wakeupFromEntry e entry).1
  | wakeup {entry : RecoveryEntry} {p : ℕ} (hvalid : s.entryValid entry = true)
      (hproc : (s.tasks (s.lock entry.tk)).proc = some p) :
      Move s (.wakeup entry) (s.wakeupFromEntry p entry).1
  | wakeupInvalid {entry : RecoveryEntry} (hvalid : s.entryValid entry = false) :
      Move s (.wakeup entry) s
  | wakeupUninitialised {entry : RecoveryEntry} (hvalid : s.entryValid entry = true)
      (hproc : (s.tasks (s.lock entry.tk)).proc = none) :
      Move s (.wakeup entry) (s.fail .uninitialisedProc)
  | wakeupAllTasks {e : ℕ} (he : e < s.n) :
      Move s (.wakeupAllTasks e) { s.setExecutor e (s.executors e).wakeupAllTasks with
        wakes := s.wakes ++ (s.executors e).waitingQueue }
  | wakerStart {w e : ℕ} (he : e < s.n) (hw : s.wakers w = .idle) :
      Move s (.wakerStart w e) { s with wakers := Function.update s.wakers w (.test e) }
  | wakerStep {w : ℕ} {s' : Sched} (h : s.wakerStep w = some s') : Move s (.wakerStep w) s'
  | dispatch {nowUs : ℕ → ℕ} (hpc : s.disp.pc = .idle) :
      Move s (.dispatch nowUs) { s with
        executors := (dispatchTasksEqually s.size
          (fun e => (s.executors e).isBlocking (nowUs e)) s.executors).2 }
  | passStart (hpc : s.disp.pc = .idle) : Move s .passStart { s with disp := .start s.size }
  | passStep {nowUs : ℕ} {blocking : Bool} {d' : DispatchState} {t' : Executors}
      (h : s.disp.step s.size blocking s.executors = some (d', t'))
      (hpc : d'.pc ≠ .outOfBounds) :
      Move s (.passStep nowUs) { s with disp := d', executors := t' }
  | passOutOfBounds {nowUs : ℕ} {blocking : Bool} {d' : DispatchState} {t' : Executors}
      (h : s.disp.step s.size blocking s.executors = some (d', t'))
      (hpc : d'.pc = .outOfBounds) : Move s (.passStep nowUs) (s.fail .outOfBounds)
  | clean {e nowMs : ℕ} (he : e < s.n) :
      Move s (.clean e nowMs) { s.setExecutor e ((s.executors e).clean nowMs).1 with
        reclaimed := s.reclaimed ++ ((s.executors e).clean nowMs).2 }
  | keepRef {tk : CoTaskPtr} (halive : s.alive tk = true) :
      Move s (.keepRef tk) { s with userRefs := tk :: s.userRefs }
  | dropRef {tk : CoTaskPtr} : Move s (.dropRef tk) { s with userRefs := s.userRefs.erase tk }
  | stop : Move s .stop s.stop

/-- **Every step is a move.** -/
theorem act_move {a : Act} (h : s.act a = some s') : Move s a s' := by
  cases a with
  | addTask e tk =>
    obtain ⟨he, h⟩ := Option.ite_none_right_eq_some.mp h
    exact Option.some.inj h ▸ .addTask he
  | addTasks e tks =>
    obtain ⟨he, h⟩ := Option.ite_none_right_eq_some.mp h
    exact Option.some.inj h ▸ .addTasks he
  | schedulerTask rand tk =>
    obtain rfl := Option.some.inj h
    by_cases hsize : s.size = 0
    · rw [Sched.schedulerTask, if_pos hsize]
      exact .schedulerTaskStopped hsize
    · have heq : s.schedulerTask rand tk = s.addTask (s.schedulerTarget rand) tk := by
        unfold Sched.schedulerTask schedulerTarget
        rw [if_neg hsize]
        split <;> rfl
      exact heq ▸ .schedulerTask hsize
  | process e timeoutMs =>
    obtain ⟨⟨he, hpc⟩, h⟩ := Option.ite_none_right_eq_some.mp h
    exact Option.some.inj h ▸ .process he hpc
  | exitLoop e =>
    simp only [act] at h
    split at h <;> try cases h
    next hpc =>
      obtain ⟨hst, h⟩ := Option.ite_none_right_eq_some.mp h
      exact Option.some.inj h ▸ .exitLoop hpc hst
  | pick e nowUs nowMs =>
    simp only [act] at h
    split at h <;> try cases h
    next hpc =>
      obtain ⟨hst, h⟩ := Option.ite_none_left_eq_some.mp h
      exact Option.some.inj h ▸ .pick hpc (by simpa using hst)
  | wake e nowMs nowMs' nowMs'' =>
    simp only [act] at h
    split at h <;> try cases h
    next hpc =>
      obtain ⟨hpred, h⟩ := Option.ite_none_right_eq_some.mp h
      exact Option.some.inj h ▸ .wake hpc hpred
  | timeout e nowMs nowMs' nowMs'' =>
    simp only [act] at h
    split at h <;> try cases h
    next hpc =>
      obtain ⟨⟨hms, hpred⟩, h⟩ := Option.ite_none_right_eq_some.mp h
      exact Option.some.inj h ▸ .timeout hpc hms hpred
  | hold e nowMs =>
    simp only [act] at h
    split at h <;> try cases h
    next hpc => exact .hold hpc
  | holdPush e =>
    simp only [act] at h
    split at h <;> try cases h
    next hpc => exact .holdPush hpc
  | holdSwitch e nowMs =>
    simp only [act] at h
    split at h <;> try cases h
    next hpc => exact .holdSwitch hpc
  | yield e nowMs =>
    simp only [act] at h
    split at h <;> try cases h
    next hpc => exact .yield hpc
  | finish e nowMs =>
    simp only [act] at h
    split at h <;> try cases h
    next hpc => exact .finish hpc
  | throw e ex nowMs =>
    simp only [act] at h
    split at h <;> try cases h
    next hpc => exact .throw hpc
  | wakeupFromEntry e entry =>
    obtain ⟨he, h⟩ := Option.ite_none_right_eq_some.mp h
    exact Option.some.inj h ▸ .wakeupFromEntry he
  | wakeup entry =>
    simp only [act, Sched.wakeup] at h
    by_cases hvalid : s.entryValid entry = true
    · rw [if_pos hvalid] at h
      cases hproc : (s.tasks (s.lock entry.tk)).proc with
      | none =>
        simp only [hproc, Option.map_none, Option.some.injEq] at h
        exact h ▸ .wakeupUninitialised hvalid hproc
      | some p =>
        simp only [hproc, Option.map_some, Option.some.injEq] at h
        exact h ▸ .wakeup hvalid hproc
    · simp only [if_neg hvalid, Option.some.injEq] at h
      exact h ▸ .wakeupInvalid (by simpa using hvalid)
  | wakeupAllTasks e =>
    obtain ⟨he, h⟩ := Option.ite_none_right_eq_some.mp h
    exact Option.some.inj h ▸ .wakeupAllTasks he
  | wakerStart w e =>
    obtain ⟨⟨he, hw⟩, h⟩ := Option.ite_none_right_eq_some.mp h
    exact Option.some.inj h ▸ .wakerStart he hw
  | wakerStep w => exact .wakerStep h
  | dispatch nowUs =>
    obtain ⟨hpc, h⟩ := Option.ite_none_right_eq_some.mp h
    exact Option.some.inj h ▸ .dispatch hpc
  | passStart =>
    obtain ⟨hpc, h⟩ := Option.ite_none_right_eq_some.mp h
    exact Option.some.inj h ▸ .passStart hpc
  | passStep nowUs =>
    obtain ⟨⟨d', t'⟩, hstep, rfl⟩ := Option.map_eq_some_iff.mp h
    simp only
    split
    next hpc => exact .passOutOfBounds hstep hpc
    next hpc => exact .passStep hstep hpc
  | clean e nowMs =>
    obtain ⟨he, h⟩ := Option.ite_none_right_eq_some.mp h
    exact Option.some.inj h ▸ .clean he
  | keepRef tk =>
    obtain ⟨halive, h⟩ := Option.ite_none_right_eq_some.mp h
    exact Option.some.inj h ▸ .keepRef halive
  | dropRef tk => exact Option.some.inj h ▸ .dropRef
  | stop => exact Option.some.inj h ▸ .stop

end Sched

end CoroutineCpp
