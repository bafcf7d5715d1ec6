import CoroutineCpp.Properties.DispatchPass
import CoroutineCpp.Properties.DispatchRefinement
import CoroutineCpp.Properties.Teardown

/-!
# Where the pointers to a task come from

A step copies pointers to tasks from one owner to another, and the only new ones are those it
submits (`Supplied`).  So what is in a runnable queue was there or in the hands of the dispatcher
before, or is submitted by the step, and a task object without owner stays without.
-/

namespace CoroutineCpp

open Framework Relation

/-- A pointer of the executor to the task, outside its runnable queue. -/
def CoExecutor.Keeps (ex : CoExecutor) (tk : CoTaskPtr) : Prop :=
  tk ∈ ex.waitingQueue ∨ tk ∈ ex.awokenQueue ∨ tk ∈ ex.finishedQueue ∨ ex.runningTask = tk

/-- The pointers a step pushes onto a runnable queue from outside. -/
def Act.enqueues : Act → List CoTaskPtr
  | .addTask _ tk => if tk = nullptr then [] else [tk]
  | .addTasks _ tks => tks
  | .schedulerTask _ tk => if tk = nullptr then [] else [tk]
  | _ => []

/-! ## The dispatcher -/

namespace DispatchState

/-- The task is in the runnable queue of one of `n` executors, or in the hands of the pass. -/
def Queued (n : ℕ) (d : DispatchState) (t : Executors) (tk : CoTaskPtr) : Prop :=
  (∃ e < n, tk ∈ (t e).runnableQueue) ∨ d.pc ≠ .idle ∧ tk ∈ d.stolen

variable {n size : ℕ} {blocking : Bool} {d d' : DispatchState} {t t' : Executors} {tk : CoTaskPtr}

@[simp] lemma nextLoad_stolen (idx : ℕ) (d : DispatchState) :
    (d.nextLoad idx).stolen = d.stolen := by
  unfold nextLoad
  split_ifs <;> rfl

@[simp] lemma afterHandOut_stolen (d : DispatchState) : d.afterHandOut.stolen = d.stolen := by
  unfold afterHandOut
  split_ifs <;> rfl

@[simp] lemma afterCount_stolen (d : DispatchState) : d.afterCount.stolen = d.stolen := by
  simp only [afterCount]
  split_ifs <;> rfl

@[simp] lemma noteMin_stolen (idx load : ℕ) (d : DispatchState) :
    (d.noteMin idx load).stolen = d.stolen := by
  unfold noteMin
  split_ifs <;> rfl

/-- A queue operation that moves no task. -/
lemma Queued.of_read (h : Queued n d' t tk) (hpc : d.pc ≠ .idle) (hstolen : d'.stolen = d.stolen) :
    Queued n d t tk :=
  h.imp_right fun h => ⟨hpc, hstolen ▸ h.2⟩

/-- What is stolen was in a runnable queue. -/
lemma Queued.of_stealFrom {idx load : ℕ} (hidx : idx < n) (hpc : d.pc ≠ .idle)
    (hstolen : d'.stolen = (d.stealFrom idx load blocking t).1.stolen)
    (h : Queued n d' (d.stealFrom idx load blocking t).2 tk) : Queued n d t tk := by
  obtain ⟨kept, block, hq, heq⟩ := d.stealFrom_eq idx load blocking t
  rw [heq] at h hstolen
  rcases h with ⟨e, he, htk⟩ | ⟨-, htk⟩
  · dsimp only at htk
    refine .inl ⟨e, he, ?_⟩
    by_cases hne : e = idx
    · subst hne
      rw [Function.update_self] at htk
      rw [hq]
      exact List.mem_append_left _ htk
    · rwa [Function.update_of_ne hne] at htk
  · rw [hstolen] at htk
    rcases List.mem_append.mp htk with htk | htk
    · exact .inr ⟨hpc, htk⟩
    · refine .inl ⟨idx, hidx, ?_⟩
      rw [hq]
      exact List.mem_append_right _ htk

/-- What is handed out was stolen. -/
lemma Queued.of_handTo {idx upto : ℕ} (hpc : d.pc ≠ .idle) (hstolen : d'.stolen = d.stolen)
    (h : Queued n d' (d.handTo idx upto t).2 tk) : Queued n d t tk := by
  rcases h with ⟨e, he, htk⟩ | ⟨-, htk⟩
  · simp only [handTo, CoExecutor.addTasks_fst] at htk
    by_cases hne : e = idx
    · subst hne
      rw [Function.update_self] at htk
      rcases List.mem_append.mp htk with htk | htk
      · exact .inl ⟨e, he, htk⟩
      · exact .inr ⟨hpc, List.mem_of_mem_drop (List.mem_of_mem_take htk)⟩
    · rw [Function.update_of_ne hne] at htk
      exact .inl ⟨e, he, htk⟩
  · exact .inr ⟨hpc, hstolen ▸ htk⟩

/-- A queue operation moves tasks between the runnable queues and the hands of the pass. -/
lemma step_queued (hsize : size ≤ n) (h : d.step size blocking t = some (d', t'))
    (htk : Queued n d' t' tk) : Queued n d t tk := by
  have hpc : d.pc ≠ .idle := by
    intro hpc
    simp [step, hpc] at h
  cases step_move h with
  | giveUp _ hidx => exact htk.of_stealFrom (hidx.trans_le hsize) hpc (by simp)
  | handOut | rest | handOutLast => exact htk.of_handTo hpc (by simp [handTo])
  | readDonor _ _ _ hd₁ | readLow _ _ _ hd₁ =>
    exact htk.of_read hpc (by simp [hd₁, noteLowLoad])
  | _ => exact htk.of_read hpc (by simp)

/-- A whole pass. -/
lemma passSteps_queued {blocking : ℕ → Bool} {p q : DispatchState × Executors} (hsize : size ≤ n)
    (h : ReflTransGen (PassStep size blocking) p q) (htk : Queued n q.1 q.2 tk) :
    Queued n p.1 p.2 tk := by
  induction h with
  | refl => exact htk
  | tail _ hstep ih => exact ih (step_queued hsize hstep htk)

end DispatchState

/-! ## An executor -/

namespace CoExecutor

variable {ex : CoExecutor} {tk : CoTaskPtr}

/-- What the end of an iteration leaves with the executor was there before. -/
lemma Keeps.of_afterResume {status : Status} {exPtr : Option ExceptionPtr} {nowMs : ℕ}
    (hne : tk ≠ nullptr) (h : (ex.afterResume status exPtr nowMs).ex.Keeps tk) : ex.Keeps tk := by
  unfold afterResume at h
  cases status <;> cases exPtr <;> simp only at h <;> (try split at h) <;>
    simp only [Keeps, clean, ThreadSafeDeque.pushBack, List.mem_append, List.mem_singleton,
      List.not_mem_nil, hne.symm] at h ⊢ <;> tauto

/-- So is what the idle branch leaves with it. -/
lemma Keeps.of_idleClean {nowMs : ℕ} (h : (ex.idleClean nowMs).1.Keeps tk) : ex.Keeps tk := by
  unfold idleClean at h
  split at h
  · simp only [Keeps, clean, List.not_mem_nil] at h ⊢
    tauto
  · exact h

end CoExecutor

/-! ## A step of the system -/

namespace Sched

/-- The task is in a runnable queue or in the hands of the dispatcher. -/
def Unpicked (s : Sched) (tk : CoTaskPtr) : Prop := s.disp.Queued s.n s.executors tk

variable {s s' : Sched} {e timeoutMs nowMs : ℕ} {last : Bool} {tk : CoTaskPtr}

/-- The owners of a task. -/
lemma alive_iff : s.alive tk = true ↔
    s.Unpicked tk ∨ (∃ e < s.n, (s.executors e).Keeps tk) ∨ tk ∈ s.userRefs ∨
      (s.tasks tk).stackRef = true := by
  simp only [alive, Unpicked, DispatchState.Queued, CoExecutor.Keeps, Bool.or_eq_true,
    Bool.and_eq_true, List.any_eq_true, List.mem_range, List.contains_iff_mem, decide_eq_true_eq]
  constructor
  · rintro (((⟨e, he, (((h | h) | h) | h) | h⟩ | h) | h) | h)
    · exact .inl (.inl ⟨e, he, h⟩)
    · exact .inr (.inl ⟨e, he, .inl h⟩)
    · exact .inr (.inl ⟨e, he, .inr (.inl h)⟩)
    · exact .inr (.inl ⟨e, he, .inr (.inr (.inl h))⟩)
    · exact .inr (.inl ⟨e, he, .inr (.inr (.inr h))⟩)
    · exact .inl (.inr h)
    · exact .inr (.inr (.inl h))
    · exact .inr (.inr (.inr h))
  · rintro ((⟨e, he, h⟩ | h) | ⟨e, he, h | h | h | h⟩ | h | h)
    · exact .inl (.inl (.inl ⟨e, he, .inl (.inl (.inl (.inl h)))⟩))
    · exact .inl (.inl (.inr h))
    · exact .inl (.inl (.inl ⟨e, he, .inl (.inl (.inl (.inr h)))⟩))
    · exact .inl (.inl (.inl ⟨e, he, .inl (.inl (.inr h))⟩))
    · exact .inl (.inl (.inl ⟨e, he, .inl (.inr h)⟩))
    · exact .inl (.inl (.inl ⟨e, he, .inr h⟩))
    · exact .inl (.inr h)
    · exact .inr h

lemma alive_of_queued (h : s.Unpicked tk) : s.alive tk = true := alive_iff.mpr (.inl h)

lemma alive_of_keeps (he : e < s.n) (h : (s.executors e).Keeps tk) : s.alive tk = true :=
  alive_iff.mpr (.inr (.inl ⟨e, he, h⟩))

/-- What is queued after the step was queued before it, or is among `new`. -/
structure Enqueued (new : List CoTaskPtr) (s s' : Sched) : Prop where
  n : s'.n = s.n
  size : s'.size ≤ s.size
  queued : ∀ tk, s'.Unpicked tk → s.Unpicked tk ∨ tk ∈ new

lemma alive_lock (h : s.lock tk ≠ nullptr) : s.alive (s.lock tk) = true := by
  unfold lock at h ⊢
  split_ifs at h ⊢ with halive
  · exact halive
  · exact absurd rfl h

/-- Every pointer to a task after the step was copied from one before it, or is among `new`. -/
structure Supplied (new : List CoTaskPtr) (s s' : Sched) : Prop extends Enqueued new s s' where
  alive : ∀ tk, tk ≠ nullptr → s'.alive tk = true → s.alive tk = true ∨ tk ∈ new

variable {new : List CoTaskPtr}

/-- A change of one executor that only takes from its runnable queue, or adds what is new. -/
lemma Enqueued.of_update {ex' : CoExecutor} (hn : s'.n = s.n) (hsize : s'.size = s.size)
    (hdisp : s'.disp = s.disp) (hex : s'.executors = Function.update s.executors e ex')
    (hq : ∀ tk ∈ ex'.runnableQueue, tk ∈ (s.executors e).runnableQueue ∨ tk ∈ new) :
    Enqueued new s s' where
  n := hn
  size := hsize.le
  queued tk h := by
    rw [Unpicked, hn, hdisp, hex] at h
    rcases h with ⟨e', he', htk⟩ | h
    · by_cases heq : e' = e
      · subst heq
        rw [Function.update_self] at htk
        exact (hq tk htk).imp_left fun h => .inl ⟨e', he', h⟩
      · rw [Function.update_of_ne heq] at htk
        exact .inl (.inl ⟨e', he', htk⟩)
    · exact .inl (.inr h)

namespace Supplied

lemma refl (s : Sched) : Supplied new s s where
  n := rfl
  size := le_rfl
  queued _ := .inl
  alive _ _ := .inl

lemma trans {s₁ : Sched} (h : Supplied [] s s₁) (h' : Supplied new s₁ s') : Supplied new s s' where
  n := h'.n.trans h.n
  size := h'.size.trans h.size
  queued tk htk := (h'.queued tk htk).imp_left fun h₁ =>
    (h.queued tk h₁).resolve_right List.not_mem_nil
  alive tk hne htk := (h'.alive tk hne htk).imp_left fun h₁ =>
    (h.alive tk hne h₁).resolve_right List.not_mem_nil

/-- Where the pointers outside the runnable queues come from. -/
lemma of_enqueued (h : Enqueued new s s')
    (hk : ∀ e < s.n, ∀ tk, tk ≠ nullptr → (s'.executors e).Keeps tk → s.alive tk = true)
    (hu : ∀ tk ∈ s'.userRefs, s.alive tk = true)
    (hr : ∀ tk, (s'.tasks tk).stackRef = true → s.alive tk = true) : Supplied new s s' where
  toEnqueued := h
  alive tk hne htk := by
    rcases alive_iff.mp htk with hq | ⟨e, he, hkeeps⟩ | htk | htk
    · exact (h.queued tk hq).imp_left alive_of_queued
    · exact .inl (hk e (h.n ▸ he) tk hne hkeeps)
    · exact .inl (hu tk htk)
    · exact .inl (hr tk htk)

/-- A change of one executor and of the tasks. -/
lemma of_update {ex' : CoExecutor} (hn : s'.n = s.n) (hsize : s'.size = s.size)
    (hdisp : s'.disp = s.disp) (hex : s'.executors = Function.update s.executors e ex')
    (hu : s'.userRefs = s.userRefs)
    (hr : ∀ tk, (s'.tasks tk).stackRef = true → s.alive tk = true)
    (hq : ∀ tk ∈ ex'.runnableQueue, tk ∈ (s.executors e).runnableQueue ∨ tk ∈ new)
    (hk : e < s.n → ∀ tk, tk ≠ nullptr → ex'.Keeps tk → s.alive tk = true) :
    Supplied new s s' := by
  refine .of_enqueued (.of_update hn hsize hdisp hex hq) (fun e' he' tk hne hkeeps => ?_) ?_ hr
  · rw [hex] at hkeeps
    by_cases heq : e' = e
    · subst heq
      rw [Function.update_self] at hkeeps
      exact hk he' tk hne hkeeps
    · rw [Function.update_of_ne heq] at hkeeps
      exact alive_of_keeps he' hkeeps
  · rw [hu]
    exact fun tk htk => alive_iff.mpr (.inr (.inr (.inl htk)))

/-- A change of one executor. -/
lemma of_executor {ex' : CoExecutor} (hn : s'.n = s.n) (hsize : s'.size = s.size)
    (hdisp : s'.disp = s.disp) (hex : s'.executors = Function.update s.executors e ex')
    (hu : s'.userRefs = s.userRefs) (htasks : s'.tasks = s.tasks)
    (hq : ∀ tk ∈ ex'.runnableQueue, tk ∈ (s.executors e).runnableQueue ∨ tk ∈ new)
    (hk : e < s.n → ∀ tk, tk ≠ nullptr → ex'.Keeps tk → s.alive tk = true) :
    Supplied new s s' :=
  .of_update hn hsize hdisp hex hu
    (fun _ h => alive_iff.mpr (.inr (.inr (.inr (htasks ▸ h))))) hq hk

/-- A step that touches no queue, no pointer and no task. -/
lemma of_eq (hn : s'.n = s.n) (hsize : s'.size = s.size) (hdisp : s'.disp = s.disp)
    (hex : s'.executors = s.executors) (hu : s'.userRefs = s.userRefs)
    (htasks : s'.tasks = s.tasks) : Supplied new s s' :=
  .of_executor (e := 0) hn hsize hdisp (hex.trans (Function.update_eq_self _ _).symm) hu htasks
    (fun _ => .inl) fun he _ _ => alive_of_keeps he

lemma fail (s : Sched) (f : Fault) : Supplied new s (s.fail f) := .of_eq rfl rfl rfl rfl rfl rfl

/-! ### The thread of an executor -/

lemma endIteration (s : Sched) (e timeoutMs : ℕ) (last : Bool) (nowMs : ℕ) :
    Supplied [] s (s.endIteration e timeoutMs last nowMs) := by
  have hframe := (s.executors e).afterResume_frame (s.tasks (s.executors e).runningTask).co.status
    (s.tasks (s.executors e).runningTask).co.exPtr nowMs
  simp only [Sched.endIteration]
  split <;>
  · refine .of_executor rfl rfl rfl rfl rfl rfl (fun tk htk => .inl ?_) fun he tk hne hk => ?_
    · rwa [hframe.1] at htk
    · exact alive_of_keeps he (hk.of_afterResume hne)

/-- The running task gives up the CPU; it may keep itself on its stack. -/
lemma switchOut {ctx : Coroutine → Option ThreadId} {f : Coroutine → Coroutine} {stackRef : Bool}
    (he : e < s.n) : Supplied [] s (s.switchOut e timeoutMs last nowMs ctx f stackRef) := by
  simp only [Sched.switchOut]
  split
  · refine .trans ?_ (.endIteration _ _ _ _ _)
    refine .of_update (e := e) rfl rfl rfl (Function.update_eq_self _ _).symm rfl
      (fun tk htk => ?_) (fun _ => .inl) fun he _ _ => alive_of_keeps he
    by_cases heq : tk = (s.executors e).runningTask
    · exact alive_of_runningTask he heq.symm
    · simp only [setTask, Function.update_of_ne heq] at htk
      exact alive_of_stackRef htk
  · exact .fail s _

lemma yieldCurrent (he : e < s.n) : Supplied [] s (s.yieldCurrent e timeoutMs last nowMs) := by
  simp only [Sched.yieldCurrent]
  split
  · exact .fail s _
  · have hlog : Supplied [] s { s with yielded := s.yielded ++ [(s.executors e).runningTask] } :=
      .of_eq rfl rfl rfl rfl rfl rfl
    exact hlog.trans (.switchOut he)

lemma holdPush : Supplied [] s (s.holdPush e timeoutMs last) := by
  simp only [Sched.holdPush]
  split
  · exact .refl s
  next p _ =>
    split
    · exact .fail s _
    · split
      · exact .fail s _
      · refine .of_executor (e := p) rfl rfl rfl rfl rfl rfl (fun _ => .inl) fun hp tk _ hk => ?_
        simp only [CoExecutor.Keeps, ThreadSafeDeque.pushBack, List.mem_append,
          List.mem_singleton] at hk
        refine alive_of_keeps hp ?_
        simp only [CoExecutor.Keeps]
        tauto

lemma holdSwitch {p : ℕ} (he : e < s.n) :
    Supplied [] s (s.holdSwitch e timeoutMs last p nowMs) := by
  simp only [Sched.holdSwitch]
  split
  · exact .switchOut he
  · exact .fail s _

lemma hold (he : e < s.n) : Supplied [] s (s.hold e timeoutMs last nowMs) := by
  have hpush : Supplied [] s (s.holdPush e timeoutMs last) := .holdPush
  simp only [Sched.hold]
  split
  · exact hpush.trans (.holdSwitch (hpush.n ▸ he))
  · exact hpush

/-- The executor with the task it has picked. -/
lemma runTask {nowUs : ℕ} {ex : CoExecutor}
    (hq : ∀ tk ∈ ex.runnableQueue, tk ∈ (s.executors e).runnableQueue)
    (hk : e < s.n → ∀ tk, tk ≠ nullptr → ex.Keeps tk → s.alive tk = true) :
    Supplied [] s (s.runTask e timeoutMs last nowUs nowMs ex) := by
  have hstart : ∀ (s' : Sched), s'.n = s.n → s'.size = s.size → s'.disp = s.disp →
      s'.executors = Function.update s.executors e (ex.beforeResume nowUs) →
      s'.userRefs = s.userRefs →
      (∀ tk, (s'.tasks tk).stackRef = true → (s.tasks tk).stackRef = true) →
      Supplied [] s s' := fun s' hn hsize hdisp hex hu hr =>
    .of_update hn hsize hdisp hex hu (fun tk h => alive_of_stackRef (hr tk h))
      (fun tk htk => .inl (hq tk htk)) hk
  simp only [Sched.runTask]
  split
  · exact .fail s _
  · split
    · exact .fail s _
    · refine .trans ?_ (.endIteration _ _ _ _ _)
      refine hstart _ rfl rfl rfl rfl rfl fun tk htk => ?_
      by_cases heq : tk = ex.runningTask
      · subst heq
        simpa [setTask] using htk
      · simpa [setTask, setExecutor, Function.update_of_ne heq] using htk
    · refine hstart _ rfl rfl rfl rfl rfl fun tk htk => ?_
      by_cases heq : tk = ex.runningTask
      · subst heq
        simp [setTask, setPc] at htk
      · simpa [setTask, setPc, setExecutor, Function.update_of_ne heq] using htk

lemma pick {nowUs : ℕ} : Supplied [] s (s.pick e timeoutMs last nowUs nowMs) := by
  simp only [Sched.pick]
  cases hc : (s.executors e).chooseQueue last with
  | none =>
    exact .of_executor (e := e) rfl rfl rfl rfl rfl rfl (fun _ => .inl) fun he _ _ =>
      alive_of_keeps he
  | some b =>
    obtain ⟨-, tk, rest, hq, hassign⟩ | ⟨-, tk, rest, hq, hassign⟩ :=
      CoExecutor.assignRunnableTask_of_chooseQueue hc
    · simp only [hassign]
      refine .runTask (fun _ => id) fun he tk' _ hk => alive_of_keeps he ?_
      simp only [CoExecutor.Keeps, hq, List.mem_cons] at hk ⊢
      tauto
    · simp only [hassign]
      refine .runTask (fun tk' h => ?_) fun he tk' _ hk => ?_
      · rw [hq]
        exact List.mem_cons_of_mem _ h
      · simp only [CoExecutor.Keeps] at hk
        by_cases heq : tk = tk'
        · refine alive_of_queued (.inl ⟨e, he, ?_⟩)
          rw [hq, heq]
          exact List.mem_cons_self
        · refine alive_of_keeps he ?_
          simp only [CoExecutor.Keeps]
          tauto

lemma resumeLoop {nowMs' : ℕ} {stopping : Bool} :
    Supplied [] s (s.resumeLoop e timeoutMs last nowMs nowMs'
      { s.executors e with isStopping := stopping }) := by
  have hframe := CoExecutor.idleClean_frame nowMs'
    (CoExecutor.leaveWait nowMs { s.executors e with isStopping := stopping })
  refine .of_executor (e := e) rfl rfl rfl rfl rfl rfl (fun tk htk => .inl ?_) fun he tk _ hk => ?_
  · rwa [hframe.1] at htk
  · have hkept := CoExecutor.Keeps.of_idleClean hk
    exact alive_of_keeps he hkept

/-! ### Wakeups -/

lemma wakeupFromEntry (s : Sched) (e : ℕ) (entry : RecoveryEntry) :
    Supplied [] s (s.wakeupFromEntry e entry).1 := by
  simp only [Sched.wakeupFromEntry]
  split
  · have herase : Supplied [] s (s.setExecutor e { s.executors e with
        waitingQueue := (s.executors e).waitingQueue.erase (s.lock entry.tk) }) := by
      refine .of_executor rfl rfl rfl rfl rfl rfl (fun _ => .inl) fun he tk _ hk => ?_
      refine alive_of_keeps he ?_
      exact hk.imp_left List.mem_of_mem_erase
    refine herase.trans (.of_executor rfl rfl rfl rfl rfl rfl (fun _ => .inl) ?_)
    intro he tk hne hk
    simp only [CoExecutor.Keeps, ThreadSafeDeque.pushBack, List.mem_append,
      List.mem_singleton] at hk
    rcases hk with hk | (hk | rfl) | hk
    · exact alive_of_keeps he (.inl hk)
    · exact alive_of_keeps he (.inr (.inl hk))
    · exact alive_lock hne
    · exact alive_of_keeps he (.inr (.inr hk))
  · exact .refl s

lemma wakeupAllTasks : Supplied [] s { s.setExecutor e (s.executors e).wakeupAllTasks with
    wakes := s.wakes ++ (s.executors e).waitingQueue } := by
  rw [CoExecutor.wakeupAllTasks_eq]
  refine .of_executor rfl rfl rfl rfl rfl rfl (fun _ => .inl) fun he tk _ hk => ?_
  simp only [CoExecutor.Keeps, List.not_mem_nil, List.mem_append] at hk
  refine alive_of_keeps he ?_
  simp only [CoExecutor.Keeps]
  tauto

/-! ### The dispatcher and the end -/

/-- The dispatcher moves tasks between the runnable queues and its hands. -/
lemma pass {d' : DispatchState} {t' : Executors}
    (hframe : ∀ e, t' e = { s.executors e with runnableQueue := (t' e).runnableQueue })
    (hq : ∀ tk, d'.Queued s.n t' tk → s.Unpicked tk) :
    Supplied [] s { s with disp := d', executors := t' } := by
  refine .of_enqueued ⟨rfl, le_rfl, fun tk h => .inl (hq tk h)⟩ (fun e he tk _ hk => ?_)
    (fun tk h => alive_iff.mpr (.inr (.inr (.inl h)))) fun _ => alive_of_stackRef (s := s)
  dsimp only at hk
  rw [hframe e] at hk
  exact alive_of_keeps he hk

lemma passStart : Supplied [] s { s with disp := .start s.size } := by
  refine .pass (fun _ => rfl) fun tk h => h.imp_right fun ⟨_, htk⟩ => ?_
  unfold DispatchState.start at htk
  split_ifs at htk <;> cases htk

lemma dispatch (hsize : s.size ≤ s.n) (blocking : ℕ → Bool) :
    Supplied [] s { s with executors := (dispatchTasksEqually s.size blocking s.executors).2 } := by
  have hrun := dispatchTasksEqually_run s.size blocking s.executors
  refine .pass (PassStep.frame hrun) fun tk h => ?_
  rcases h with h | h
  · rcases DispatchState.passSteps_queued hsize hrun (.inl h) with h | ⟨-, htk⟩
    · exact .inl h
    · unfold DispatchState.start at htk
      split_ifs at htk <;> cases htk
  · exact .inr h

lemma stop (s : Sched) : Supplied [] s s.stop := by
  have hq : ∀ e, (s.stop.executors e).runnableQueue = (s.executors e).runnableQueue := by
    intro e
    simp only [Sched.stop]
    split <;> rfl
  refine .of_enqueued ⟨rfl, Nat.zero_le _, fun tk h => .inl (h.imp_left ?_)⟩
    (fun e he tk _ hk => alive_of_keeps he ?_) (fun tk h => alive_iff.mpr (.inr (.inr (.inl h))))
    fun _ => alive_of_stackRef (s := s)
  · rintro ⟨e, he, htk⟩
    exact ⟨e, he, hq e ▸ htk⟩
  · simp only [Sched.stop] at hk
    split at hk <;> exact hk

end Supplied

/-- **Every step but those of a waker in parts copies its pointers.** -/
theorem act_supplied {a : Act} (hsize : s.size ≤ s.n) (hlt : ∀ e, s.pc e ≠ .outside → e < s.n)
    (hw : a.isWakerStep = false) (h : s.act a = some s') : Supplied a.enqueues s s' := by
  have hmono : Supplied [] s s' → Supplied a.enqueues s s' := fun h =>
    { n := h.n, size := h.size
      queued := fun tk htk => .inl ((h.queued tk htk).resolve_right List.not_mem_nil)
      alive := fun tk hne htk => .inl ((h.alive tk hne htk).resolve_right List.not_mem_nil) }
  cases act_move h with
  | @addTask e tk | @schedulerTask _ tk =>
    refine .of_executor rfl rfl rfl rfl rfl rfl (fun tk' htk => ?_) fun he _ _ hk => ?_
    · rw [CoExecutor.addTask_fst] at htk
      exact List.mem_append.mp htk
    · rw [CoExecutor.addTask_fst] at hk
      exact alive_of_keeps he hk
  | @addTasks e tks =>
    refine .of_executor rfl rfl rfl rfl rfl rfl (fun tk' htk => ?_) fun he _ _ hk => ?_
    · rw [CoExecutor.addTasks_fst] at htk
      exact List.mem_append.mp htk
    · rw [CoExecutor.addTasks_fst] at hk
      exact alive_of_keeps he hk
  | schedulerTaskStopped | wakeupUninitialised | passOutOfBounds => exact .fail s _
  | process | exitLoop => exact .of_eq rfl rfl rfl rfl rfl rfl
  | pick => exact .pick
  | wake | timeout => exact .resumeLoop
  | @hold e _ _ _ hpc => exact .hold (hlt e (by simp [hpc]))
  | holdPush => exact .holdPush
  | @holdSwitch e _ _ _ _ hpc => exact .holdSwitch (hlt e (by simp [hpc]))
  | @yield e _ _ _ hpc => exact .yieldCurrent (hlt e (by simp [hpc]))
  | @finish e _ _ _ hpc | @throw e _ _ _ _ hpc => exact .switchOut (hlt e (by simp [hpc]))
  | wakeupFromEntry | wakeup => exact .wakeupFromEntry s _ _
  | wakeupInvalid => exact .refl s
  | wakeupAllTasks => exact .wakeupAllTasks
  | wakerStart | wakerStep => cases hw
  | dispatch => exact .dispatch hsize _
  | passStart => exact .passStart
  | passStep hstep =>
    exact .pass (DispatchState.step_frame hstep) fun tk => DispatchState.step_queued hsize hstep
  | @clean e =>
    refine .of_executor rfl rfl rfl rfl rfl rfl (fun _ => .inl) fun he tk _ hk => ?_
    simp only [CoExecutor.Keeps, CoExecutor.clean, List.not_mem_nil] at hk
    refine alive_of_keeps he ?_
    simp only [CoExecutor.Keeps]
    tauto
  | keepRef halive =>
    refine .of_enqueued ⟨rfl, le_rfl, fun _ => .inl⟩ (fun e he _ _ => alive_of_keeps he)
      (fun tk h => ?_) fun _ => alive_of_stackRef (s := s)
    rcases List.mem_cons.mp h with rfl | h
    · exact halive
    · exact alive_iff.mpr (.inr (.inr (.inl h)))
  | dropRef =>
    exact .of_enqueued ⟨rfl, le_rfl, fun _ => .inl⟩ (fun e he _ _ => alive_of_keeps he)
      (fun tk h => alive_iff.mpr (.inr (.inr (.inl (List.mem_of_mem_erase h)))))
      fun _ => alive_of_stackRef (s := s)
  | stop => exact .stop s

/-- A call of `WakeupAllTasks` in parts touches no runnable queue. -/
lemma wakerStep_enqueued {w : ℕ} (h : s.wakerStep w = some s') : Enqueued new s s' := by
  simp only [Sched.wakerStep] at h
  split at h
  · cases h
  · split_ifs at h <;> obtain rfl := Option.some.inj h <;> exact ⟨rfl, le_rfl, fun _ => .inl⟩
  · split at h <;> obtain rfl := Option.some.inj h <;> exact ⟨rfl, le_rfl, fun _ => .inl⟩
  · obtain rfl := Option.some.inj h
    exact .of_update rfl rfl rfl rfl fun _ => .inl
  · split at h <;> obtain rfl := Option.some.inj h
    · exact ⟨rfl, le_rfl, fun _ => .inl⟩
    · exact .of_update rfl rfl rfl rfl fun _ => .inl

/-- **What a step puts into the runnable queues from outside is what it submits.** -/
theorem act_enqueued {a : Act} (hsize : s.size ≤ s.n) (hlt : ∀ e, s.pc e ≠ .outside → e < s.n)
    (h : s.act a = some s') : Enqueued a.enqueues s s' := by
  cases hw : a.isWakerStep with
  | false => exact (act_supplied hsize hlt hw h).toEnqueued
  | true =>
    cases act_move h with
    | wakerStart => exact ⟨rfl, le_rfl, fun _ => .inl⟩
    | wakerStep hstep => exact wakerStep_enqueued hstep
    | _ => cases hw

/-! ## Runs -/

/-- `m_executors` never refers to an executor that does not exist, and only the threads of
executors are in `Process`. -/
lemma reachable_bounds (h : schedSystem.Reachable s) :
    s.size ≤ s.n ∧ ∀ e, s.pc e ≠ .outside → e < s.n := by
  induction h with
  | init h =>
    obtain ⟨n, id, rfl⟩ := h
    exact ⟨le_rfl, fun e he => absurd rfl he⟩
  | @step s s' a h _ hstep ih =>
    have henq := act_enqueued ih.1 ih.2 (act_of_step hstep)
    exact ⟨henq.n ▸ henq.size.trans ih.1,
      (reachable_owned (.step h trivial hstep)).lt⟩

end Sched

end CoroutineCpp
