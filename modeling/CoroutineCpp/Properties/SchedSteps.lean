import CoroutineCpp.Properties.AffinityInvariant
import CoroutineCpp.Properties.SchedMoves

/-!
# A step is a sequence of effects

For each operation of `Model/Sched.lean` one lemma says which effects it comes to in an affine
state.  `act_effects` collects them for the labels that do not run `WakeupAllTasks` in parts, and
`act_wakerStep` for those that do.
-/

namespace CoroutineCpp

open Framework Relation

namespace Sched

variable {s s' : Sched} {e timeoutMs nowMs : ℕ} {last : Bool}

/-! ## Steps that move no task -/

lemma Quiet.refl (s : Sched) : Quiet s s where
  n := rfl
  size := le_rfl
  runnableQueue _ := rfl
  waitingQueue _ := rfl
  awokenQueue _ := rfl
  runningTask _ := rfl
  id _ := rfl
  pc _ := .inl rfl
  tasks := rfl
  dispWf h := h
  dispCount _ h := h
  outstanding _ := rfl
  wakers _ _ _ h := .inl h
  wakerTarget _ _ h := .inl h
  submitted := rfl
  resumes := rfl
  wakes := rfl
  yielded := rfl
  entries := rfl
  ended := rfl
  fault _ h := .inl h

/-- What the finished queue of one executor gains and what `Clean` drops balance. -/
lemma over_eq {reclaimed l : List CoTaskPtr} (hn : s'.n = s.n) (he : e < s.n)
    (hex : ∀ e', e' ≠ e → s'.executors e' = s.executors e')
    (hfin : reclaimed ++ (s'.executors e).finishedQueue = (s.executors e).finishedQueue ++ l)
    (hrec : s'.reclaimed = s.reclaimed ++ reclaimed) :
    s'.ended = s.ended + (l : Multiset CoTaskPtr) := by
  have hsum := sum_agree_off (Finset.mem_range.mpr he)
    (f := fun e => ((s.executors e).finishedQueue : Multiset CoTaskPtr))
    (g := fun e => ((s'.executors e).finishedQueue : Multiset CoTaskPtr))
    fun e' he' => by simp only [hex e' he']
  have hfin' : (reclaimed : Multiset CoTaskPtr) + ((s'.executors e).finishedQueue : Multiset _) =
      ((s.executors e).finishedQueue : Multiset _) + (l : Multiset _) := by
    simp only [Multiset.coe_add, hfin]
  rw [ended, ended, hn, hrec, ← Multiset.coe_add]
  refine add_right_cancel (b := ((s.executors e).finishedQueue : Multiset CoTaskPtr) +
    ((s'.executors e).finishedQueue : Multiset CoTaskPtr)) ?_
  simp only [total]
  calc _ = (∑ i ∈ Finset.range s.n, ((s'.executors i).finishedQueue : Multiset CoTaskPtr)) +
        ((s.executors e).finishedQueue : Multiset CoTaskPtr) + s.reclaimed +
        (reclaimed + ((s'.executors e).finishedQueue : Multiset CoTaskPtr)) := by abel
    _ = _ := by rw [hsum, hfin']; abel

/-- A change of one executor and its thread that concerns no pending task. -/
lemma Quiet.executor {ex' : CoExecutor} {pc' : ProcessPc} {reclaimed : List CoTaskPtr}
    (he : e < s.n)
    (hex : CoExecutor.SamePending { s.executors e with isStopping := ex'.isStopping } ex')
    (hrun : ex'.runningTask = (s.executors e).runningTask)
    (hfin : reclaimed ++ ex'.finishedQueue = (s.executors e).finishedQueue)
    (hpc : (s.pc e).onCpu = false ∧ pc'.onCpu = false ∨ pc' = s.pc e) :
    Quiet s { s with
      executors := Function.update s.executors e ex'
      pc := Function.update s.pc e pc'
      reclaimed := s.reclaimed ++ reclaimed } :=
  { Quiet.refl s with
    runnableQueue := update_view CoExecutor.runnableQueue hex.runnableQueue
    waitingQueue := update_view CoExecutor.waitingQueue hex.waitingQueue
    awokenQueue := update_view CoExecutor.awokenQueue hex.awokenQueue
    runningTask := update_view CoExecutor.runningTask hrun
    id := update_view CoExecutor.id hex.id
    pc := by
      intro e'
      by_cases heq : e' = e
      · subst heq
        rcases hpc with hpc | hpc
        · exact .inr ⟨he, hpc.1, by simpa using hpc.2⟩
        · exact .inl (by simpa using hpc)
      · exact .inl (by simp [heq])
    ended := by
      have h : Sched.ended { s with
          executors := Function.update s.executors e ex'
          pc := Function.update s.pc e pc'
          reclaimed := s.reclaimed ++ reclaimed } =
          s.ended + (([] : List CoTaskPtr) : Multiset _) :=
        over_eq rfl he (fun e' he' => by simp [he']) (by simpa using hfin) rfl
      simpa using h }

lemma Quiet.fail {f : Fault} (hf : f.ofTask = false) : Quiet s (s.fail f) :=
  { Quiet.refl s with
    fault := by
      rintro f' ⟨⟩
      exact .inr hf }

/-! ## The end of an iteration -/

lemma samePending_afterResume (status : Status) (exPtr : Option ExceptionPtr) (nowMs : ℕ)
    (ex : CoExecutor) : ex.SamePending (ex.afterResume status exPtr nowMs).ex := by
  obtain ⟨hr, hw, ha, hid, hst⟩ := ex.afterResume_frame status exPtr nowMs
  exact ⟨hr, hw, ha, hst, hid⟩

lemma endIteration_eq (s : Sched) (e timeoutMs : ℕ) (last : Bool) (nowMs : ℕ) :
    ∃ ex' pc' reclaimed thrown,
      s.endIteration e timeoutMs last nowMs =
        { s with
          executors := Function.update s.executors e ex'
          pc := Function.update s.pc e pc'
          reclaimed := s.reclaimed ++ reclaimed
          thrown := thrown } ∧
      (s.executors e).SamePending ex' ∧ pc'.onCpu = false ∧
      reclaimed ++ ex'.finishedQueue = (s.executors e).finishedQueue ++
        CoExecutor.justFinished (s.tasks (s.executors e).runningTask).co.status
          (s.executors e).runningTask := by
  have hsame := samePending_afterResume (s.tasks (s.executors e).runningTask).co.status
    (s.tasks (s.executors e).runningTask).co.exPtr nowMs (s.executors e)
  have hfin := (s.executors e).afterResume_finishedQueue
    (s.tasks (s.executors e).runningTask).co.status
    (s.tasks (s.executors e).runningTask).co.exPtr nowMs
  simp only [endIteration]
  split
  · exact ⟨_, .loop timeoutMs last, _, s.thrown, rfl, hsame, rfl, hfin⟩
  · exact ⟨_, .outside, _, _, rfl, hsame, rfl, hfin⟩

/-- The running task of an affine state can leave the CPU in any of the three ways. -/
lemma switchOut_effect {ctx : Coroutine → Option ThreadId} {f : Coroutine → Coroutine}
    {stackRef : Bool} {yielded : List CoTaskPtr} (hs : s.Affine) (hpc : (s.pc e).onCpu = true)
    (hctx : ∀ co : Coroutine, co.masterCo = some e → co.ucLink = some e → ctx co = some e)
    (hf : ∀ co : Coroutine, (f co).masterCo = co.masterCo ∧ (f co).ucLink = co.ucLink ∧
      (f co).stack = co.stack)
    (href : ∀ co : Coroutine, (f co).status = .hold → stackRef = true)
    (hout : ∀ co : Coroutine, ((f co).status = .finished ∨ (f co).status = .except) ∧
        (s.pc e).isResumed = true ∧ yielded = [] ∨
      (f co).status = .hold ∧ (s.pc e).isResumed = true ∧
        yielded = [(s.executors e).runningTask] ∨
      (f co).status = .hold ∧ (s.pc e).isResumed = false ∧ yielded = []) :
    Effect s ({ s with yielded := s.yielded ++ yielded }.switchOut e timeoutMs last nowMs
      ctx f stackRef) := by
  have htk := hs.cpu.started e hpc
  simp only [switchOut]
  rw [if_pos (hctx _ htk.masterCo htk.ucLink)]
  obtain ⟨ex', pc', reclaimed, thrown, heq, hex, hpc', hfin⟩ :=
    endIteration_eq (setTask { s with yielded := s.yielded ++ yielded }
      (s.executors e).runningTask
      { s.tasks (s.executors e).runningTask with
        co := f (s.tasks (s.executors e).runningTask).co, stackRef := stackRef })
      e timeoutMs last nowMs
  rw [heq]
  refine .leave (hs.cpu.lt e fun hout => by simp [hout, ProcessPc.onCpu] at hpc) hpc hpc' hex
    (by simpa [setTask] using hfin) (href _) (fun e' h => ?_) (hout _)
  obtain ⟨hm, hu, hst⟩ := hf (s.tasks (s.executors e).runningTask).co
  exact ⟨h.proc, hm.trans h.masterCo, hu.trans h.ucLink, hst.trans h.stack⟩

lemma yieldCurrent_effect (hs : s.Affine) (hpc : s.pc e = .resumed timeoutMs last) :
    Effect s (s.yieldCurrent e timeoutMs last nowMs) := by
  have hcpu : (s.pc e).onCpu = true := by simp [hpc, ProcessPc.onCpu]
  simp only [yieldCurrent]
  rw [if_neg (hs.ne_null_of_co (hs.cpu.started e hcpu).co_ne)]
  exact switchOut_effect hs hcpu (fun co hm _ => hm) (fun co => ⟨rfl, rfl, rfl⟩)
    (fun co _ => rfl) fun co => .inr (.inl ⟨rfl, by simp [hpc, ProcessPc.isResumed], rfl⟩)

/-- The body returns or throws. -/
lemma over_effect {f : Coroutine → Coroutine} (hs : s.Affine)
    (hpc : s.pc e = .resumed timeoutMs last)
    (hf : ∀ co : Coroutine, (f co).masterCo = co.masterCo ∧ (f co).ucLink = co.ucLink ∧
      (f co).stack = co.stack)
    (hover : ∀ co, (f co).status = .finished ∨ (f co).status = .except) :
    Effect s (s.switchOut e timeoutMs last nowMs Coroutine.ucLink f false) := by
  have hcpu : (s.pc e).onCpu = true := by simp [hpc, ProcessPc.onCpu]
  have h : Effect s ({ s with yielded := s.yielded ++ [] }.switchOut e timeoutMs last nowMs
      Coroutine.ucLink f false) :=
    switchOut_effect hs hcpu (fun co _ hu => hu) hf
      (fun co hst => by rcases hover co with h | h <;> rw [h] at hst <;> cases hst)
      fun co => .inl ⟨hover co, by simp [hpc, ProcessPc.isResumed], rfl⟩
  simpa using h

/-- In an affine state `Hold` works on the executor that runs the body. -/
lemma holdPush_eq (hs : s.Affine) (hpc : s.pc e = .resumed timeoutMs last) :
    s.holdPush e timeoutMs last =
      { s with
        executors := Function.update s.executors e
          { s.executors e with
            waitingQueue := (s.executors e).waitingQueue ++ [(s.executors e).runningTask] }
        pc := Function.update s.pc e (.holding timeoutMs last e)
        entries := s.entries ++
          [{ tk := (s.executors e).runningTask, id := (s.executors e).id }] } := by
  have hcpu : (s.pc e).onCpu = true := by simp [hpc, ProcessPc.onCpu]
  have htk := hs.cpu.started e hcpu
  simp only [holdPush, htk.proc]
  rw [if_neg (hs.ne_null_of_co htk.co_ne), if_neg (by simp [hs.cpu.running e hcpu])]
  rfl

lemma holdPush_effect (hs : s.Affine) (hpc : s.pc e = .resumed timeoutMs last) :
    Effect s (s.holdPush e timeoutMs last) ∧
      (s.holdPush e timeoutMs last).pc e = .holding timeoutMs last e := by
  rw [holdPush_eq hs hpc]
  exact ⟨.hold (hs.cpu.lt e (by simp [hpc])) (by simp [hpc, ProcessPc.isResumed]) ⟨_, _, rfl⟩,
    Function.update_self ..⟩

lemma hold_eq (hs : s.Affine) (hpc : s.pc e = .resumed timeoutMs last) :
    s.hold e timeoutMs last nowMs =
      (s.holdPush e timeoutMs last).holdSwitch e timeoutMs last e nowMs := by
  simp only [hold, (holdPush_effect hs hpc).2]

lemma holdSwitch_effect {p : ℕ} (hs : s.Affine) (hpc : s.pc e = .holding timeoutMs last p) :
    Effect s (s.holdSwitch e timeoutMs last p nowMs) := by
  have hcpu : (s.pc e).onCpu = true := by simp [hpc, ProcessPc.onCpu]
  have h : Effect s ({ s with yielded := s.yielded ++ [] }.switchOut e timeoutMs last nowMs
      Coroutine.masterCo Coroutine.giveUp true) :=
    switchOut_effect hs hcpu (fun co hm _ => hm) (fun co => ⟨rfl, rfl, rfl⟩)
      (fun co _ => rfl) fun co => .inr (.inr ⟨rfl, by simp [hpc, ProcessPc.isResumed], rfl⟩)
  rw [holdSwitch, if_pos (hs.cpu.holding e timeoutMs last p hpc)]
  simpa using h

/-! ## The pick -/

/-- A pick from the runnable queue starts the task. -/
lemma runTask_start {tk : CoTaskPtr} {rest : List CoTaskPtr} (hs : s.Affine) (nowUs : ℕ)
    (hpc : s.pc e = .loop timeoutMs last) {last' : Bool}
    (hq : (s.executors e).runnableQueue = tk :: rest) :
    Effect s (s.runTask e timeoutMs last' nowUs nowMs
      { s.executors e with runningTask := tk, runnableQueue := rest }) := by
  have he := hs.cpu.lt e (by simp [hpc])
  have hmem : tk ∈ pool s.n s.executors s.disp :=
    Affine.mem_pool_of_runnable he (by simp [hq])
  have hne : tk ≠ nullptr := by
    rintro rfl
    exact hs.null_notMem (Multiset.mem_coe.mp (Multiset.mem_of_le hs.pool_le hmem))
  have hco := hs.pool_new tk hmem
  have hres : (s.tasks tk).co.resume e =
      .switched { Coroutine.prepare e {} with status := .running } := by rw [hco]; rfl
  simp only [runTask]
  rw [if_neg hne, hres]
  exact .start he (by simp [hpc, ProcessPc.onCpu]) rfl hq ⟨rfl, rfl, rfl, rfl, rfl⟩ rfl rfl hco

/-- A pick from the awoken queue resumes a held task or, when the task is over, does nothing; the
null pointer that an expired wakeup left there is dereferenced. -/
lemma runTask_awoken {tk : CoTaskPtr} {rest : List CoTaskPtr} (hs : s.Affine) (nowUs : ℕ)
    (hpc : s.pc e = .loop timeoutMs last) {last' : Bool}
    (hq : (s.executors e).awokenQueue = tk :: rest) :
    Effect s (s.runTask e timeoutMs last' nowUs nowMs
      { s.executors e with runningTask := tk, awokenQueue := rest }) := by
  by_cases hnull : tk = nullptr
  · simp only [runTask, if_pos hnull]
    exact .quiet (.fail rfl)
  have he := hs.cpu.lt e (by simp [hpc])
  have hoff : (s.pc e).onCpu = false := by simp [hpc, ProcessPc.onCpu]
  have htk := hs.awoken_started e tk (by simp [hq]) hnull
  have hproc : { s.tasks tk with proc := some e } = s.tasks tk := by rw [← htk.proc]
  simp only [runTask]
  rw [if_neg hnull]
  cases hres : (s.tasks tk).co.resume e with
  | inert =>
    have hst := Coroutine.resume_eq_inert hres
    simp only [hproc, setTask, setExecutor, Function.update_eq_self]
    obtain ⟨ex', pc', reclaimed, thrown, heq, hex, hpc', hfin⟩ := endIteration_eq
      { s with
        executors := Function.update s.executors e
          (CoExecutor.beforeResume nowUs
            { s.executors e with runningTask := tk, awokenQueue := rest })
        resumes := s.resumes ++ [(tk, e)] } e timeoutMs last' nowMs
    simp only [Function.update_self, CoExecutor.justFinished, CoExecutor.beforeResume, if_pos hst]
      at hex hfin
    rw [heq, Function.update_idem]
    exact .inert he hoff hpc' (by rw [hex.awokenQueue]; exact hq)
      ⟨hex.runnableQueue, hex.waitingQueue, rfl, hex.isStopping, hex.id⟩ hfin hst
  | aborted =>
    -- a running task is on the CPU of the executor that started it
    obtain ⟨e', hcpu, hrun⟩ := hs.cpu.onCpu tk (Coroutine.resume_eq_aborted_iff.mp hres)
    have hee' : e' = e := (hrun ▸ hs.cpu.started e' hcpu).unique htk
    rw [hee', hoff] at hcpu
    cases hcpu
  | switched co =>
    obtain ⟨hst, rfl⟩ := Coroutine.resume_eq_switched hres
    have hhold : (s.tasks tk).co.status = .hold := by
      rcases hst with hst | hst
      · exact absurd (hs.co_of_idle tk hst) htk.co_ne
      · exact hst
    rw [Coroutine.prepare_of_stack htk.stack]
    exact @Effect.resume s e tk
      (CoExecutor.beforeResume nowUs { s.executors e with runningTask := tk, awokenQueue := rest })
      _ he hoff rfl hq ⟨rfl, rfl, rfl, rfl, rfl⟩ rfl rfl hhold

lemma pick_effect (hs : s.Affine) (nowUs : ℕ) (hpc : s.pc e = .loop timeoutMs last) :
    Effect s (s.pick e timeoutMs last nowUs nowMs) := by
  simp only [pick]
  cases hch : (s.executors e).chooseQueue last with
  | none =>
    have he := hs.cpu.lt e (by simp [hpc])
    have h : Quiet s { s with
        executors := Function.update s.executors e (s.executors e).enterWait
        pc := Function.update s.pc e (.waiting timeoutMs last)
        reclaimed := s.reclaimed ++ [] } :=
      .executor he ⟨rfl, rfl, rfl, rfl, rfl⟩ rfl rfl
        (.inl ⟨by simp [hpc, ProcessPc.onCpu], rfl⟩)
    exact .quiet (by simpa [setExecutor, setPc] using h)
  | some b =>
    rcases CoExecutor.assignRunnableTask_of_chooseQueue hch with
      ⟨-, tk, rest, hq, hassign⟩ | ⟨-, tk, rest, hq, hassign⟩
    · simp only [hassign]
      exact runTask_awoken hs nowUs hpc hq
    · simp only [hassign]
      exact runTask_start hs nowUs hpc hq

/-! ## Wakeups -/

lemma alive_of_runningTask {tk : CoTaskPtr} (he : e < s.n)
    (h : (s.executors e).runningTask = tk) : s.alive tk = true := by
  simp only [alive, Bool.or_eq_true, List.any_eq_true, List.mem_range, decide_eq_true_eq]
  exact .inl (.inl (.inl ⟨e, he, .inr h⟩))

lemma alive_of_stackRef {tk : CoTaskPtr} (h : (s.tasks tk).stackRef = true) :
    s.alive tk = true := by
  simp only [alive, Bool.or_eq_true]
  exact .inr h

/-- A started task to which no reference is left is over. -/
lemma Affine.over_of_not_alive {tk : CoTaskPtr} (hs : s.Affine) (hst : (s.tasks tk).co ≠ {})
    (href : (s.tasks tk).stackRef = false)
    (hrun : ∀ e < s.n, (s.executors e).runningTask ≠ tk) :
    (s.tasks tk).co.status = .finished ∨ (s.tasks tk).co.status = .except := by
  cases hstat : (s.tasks tk).co.status with
  | idle => exact absurd (hs.co_of_idle tk hstat) hst
  | running =>
    obtain ⟨e, hcpu, heq⟩ := hs.cpu.onCpu tk hstat
    refine absurd heq (hrun e (hs.cpu.lt e ?_))
    intro hout
    simp [hout, ProcessPc.onCpu] at hcpu
  | hold => simp [hs.ref_of_hold tk hstat] at href
  | finished => exact .inl rfl
  | except => exact .inr rfl

/-- An entry found in a waiting queue is one of a task that is left. -/
lemma lock_of_mem_waiting {tk : CoTaskPtr} (hs : s.Affine)
    (hmem : s.lock tk ∈ (s.executors e).waitingQueue) : s.lock tk = tk := by
  by_contra hne
  have hnull : s.lock tk = nullptr := by
    unfold lock at hne ⊢
    split at hne
    · exact absurd rfl hne
    next hdead => exact if_neg hdead
  rw [hnull] at hmem
  exact hs.ne_null_of_co (hs.waiting_started e _ hmem).co_ne rfl

/-- A task to which no reference is left once it is out of the waiting queue is over. -/
lemma Affine.over_of_removed {tk : CoTaskPtr} (hs : s.Affine)
    (hmem : tk ∈ (s.executors e).waitingQueue)
    (hdead : ¬ (s.setExecutor e { s.executors e with
      waitingQueue := (s.executors e).waitingQueue.erase tk }).alive tk = true) :
    (s.tasks tk).co.status = .finished ∨ (s.tasks tk).co.status = .except := by
  refine hs.over_of_not_alive (hs.waiting_started e tk hmem).co_ne ?_ fun e' he' heq => ?_
  · rw [← Bool.not_eq_true]
    exact fun href => hdead (alive_of_stackRef href)
  · refine hdead (alive_of_runningTask he' (Eq.trans ?_ heq))
    exact update_view (t := s.executors) CoExecutor.runningTask (by rfl) e'

/-- The two ways a successful `WakeupFromEntry` can go. -/
lemma wakeupFromEntry_cases {entry : RecoveryEntry} (hs : s.Affine)
    (hmem : s.lock entry.tk ∈ (s.executors e).waitingQueue) :
    ∃ tk, (tk = s.lock entry.tk ∨ tk = nullptr ∧
        ((s.tasks (s.lock entry.tk)).co.status = .finished ∨
          (s.tasks (s.lock entry.tk)).co.status = .except)) ∧
      (s.wakeupFromEntry e entry).1 = { s with
        executors := Function.update s.executors e
          { s.executors e with
            waitingQueue := (s.executors e).waitingQueue.erase (s.lock entry.tk)
            awokenQueue := (s.executors e).awokenQueue ++ [tk] }
        wakes := s.wakes ++ [tk] } := by
  have hlock := lock_of_mem_waiting hs hmem
  simp only [wakeupFromEntry, if_pos hmem]
  rw [hlock] at hmem ⊢
  set s₁ := s.setExecutor e { s.executors e with
    waitingQueue := (s.executors e).waitingQueue.erase entry.tk } with hs₁
  refine ⟨s₁.lock entry.tk, ?_, by simp [hs₁, setExecutor, ThreadSafeDeque.pushBack]⟩
  by_cases halive : s₁.alive entry.tk = true
  · exact .inl (if_pos halive)
  · exact .inr ⟨if_neg halive, hs.over_of_removed hmem halive⟩

lemma wakeupFromEntry_effect (hs : s.Affine) (he : e < s.n) (entry : RecoveryEntry) :
    Effect s (s.wakeupFromEntry e entry).1 := by
  by_cases hmem : s.lock entry.tk ∈ (s.executors e).waitingQueue
  · obtain ⟨tk, rfl | ⟨rfl, hover⟩, heq⟩ := wakeupFromEntry_cases hs hmem
    · exact heq ▸ .wake he hmem
    · exact heq ▸ .wakeExpired he hmem hover
  · rw [wakeupFromEntry, if_neg hmem]
    exact .quiet (.refl s)

/-- `WakeupAllTasks` wakes the waiting tasks one after the other. -/
lemma wakeupAllTasks_effects (w : List CoTaskPtr) (s : Sched) (he : e < s.n)
    (hw : (s.executors e).waitingQueue = w) :
    ReflTransGen Effect s { s with
      executors := Function.update s.executors e
        { s.executors e with
          waitingQueue := [], awokenQueue := (s.executors e).awokenQueue ++ w }
      wakes := s.wakes ++ w } := by
  induction w generalizing s with
  | nil =>
    have hsame : { s.executors e with
        waitingQueue := [], awokenQueue := (s.executors e).awokenQueue ++ [] } =
        s.executors e := by rw [List.append_nil, ← hw]
    rw [hsame, Function.update_eq_self, List.append_nil]
  | cons tk w ih =>
    have hwake := Effect.wake he (by rw [hw]; exact List.mem_cons_self)
    refine .head hwake ?_
    have hrest := ih { s with
      executors := Function.update s.executors e
        { s.executors e with
          waitingQueue := (s.executors e).waitingQueue.erase tk
          awokenQueue := (s.executors e).awokenQueue ++ [tk] }
      wakes := s.wakes ++ [tk] } he (by simp [hw])
    simpa using hrest

/-! ## The dispatcher -/

/-- Quiet changes of the dispatcher: a pass that has nothing in hand is replaced by another. -/
lemma Quiet.setDisp {d' : DispatchState} (hwf : d'.Wf)
    (hcount : s.size ≤ s.n → d'.executorCount ≤ s.n)
    (hout : s.disp.Wf → d'.outstanding = s.disp.outstanding) : Quiet s { s with disp := d' } :=
  { Quiet.refl s with
    dispWf := fun _ => hwf
    dispCount := fun h _ => hcount h
    outstanding := hout }

lemma outstanding_start (size : ℕ) : (DispatchState.start size).outstanding = [] := by
  simp [DispatchState.start, DispatchState.outstanding]

/-- Queue operations that are not interfered with are effects. -/
lemma passSteps_effects {blocking : ℕ → Bool} {p q : DispatchState × Executors}
    (h : ReflTransGen (PassStep s.size blocking) p q) (hwf : p.1.Wf)
    (hin : DispatchState.InBounds s.size p.1) (hsize : s.size ≤ s.n) :
    ReflTransGen Effect { s with disp := p.1, executors := p.2 }
      { s with disp := q.1, executors := q.2 } := by
  induction h with
  | refl => exact .refl
  | @tail q r hpq hqr ih =>
    obtain ⟨hwfq, hinq⟩ := PassStep.wf hpq hwf hin
    obtain ⟨hwfr, hinr⟩ := PassStep.wf (.single hqr) hwfq hinq
    refine ih.tail ?_
    exact @Effect.pass { s with disp := q.1, executors := q.2 } r.1 r.2
      (DispatchState.step_effect hwfq hqr) hwfr (hinr.2.trans_le hsize)

lemma dispatch_effects (hs : s.Affine) (hpc : s.disp.pc = .idle) (blocking : ℕ → Bool) :
    ReflTransGen Effect s
      { s with executors := (dispatchTasksEqually s.size blocking s.executors).2 } := by
  have hrun := dispatchTasksEqually_run s.size blocking s.executors
  have hwf := DispatchState.start_wf s.size
  have hin : DispatchState.InBounds s.size (.start s.size) := by
    refine ⟨?_, rfl⟩
    unfold DispatchState.start
    split_ifs <;> simp
  obtain ⟨hwf', hin'⟩ := PassStep.wf hrun hwf hin
  have hchain := passSteps_effects hrun hwf hin hs.size_le
  have hnil := hs.dispWf.outstanding_eq_nil hpc
  have hnil' := hwf'.outstanding_eq_nil rfl
  refine .trans (.single (.quiet ?_)) (hchain.tail (.quiet ?_))
  · exact .setDisp hwf (fun h => h) fun _ => (outstanding_start s.size).trans hnil.symm
  · exact .setDisp (s := { s with disp := _, executors := _ }) hs.dispWf (fun _ => hs.dispCount)
      fun _ => hnil.trans hnil'.symm

lemma passStep_effect {blocking : Bool} {d' : DispatchState} {t' : Executors} (hs : s.Affine)
    (h : s.disp.step s.size blocking s.executors = some (d', t')) :
    Effect s { s with disp := d', executors := t' } :=
  .pass (DispatchState.step_effect hs.dispWf h) (DispatchState.step_wf hs.dispWf h)
    ((DispatchState.step_executorCount h).trans_le hs.dispCount)

/-! ## `WakeupAllTasks` in parts -/

lemma Quiet.setWaker {w : ℕ} {pc : WakerPc}
    (hpush : ∀ e tk, pc = .push e tk → tk ∈ (s.executors e).waitingQueue)
    (htarget : ∀ e, pc.target = some e → e < s.n) :
    Quiet s { s with wakers := Function.update s.wakers w pc } :=
  { Quiet.refl s with
    wakers := by
      intro w' e tk h
      by_cases heq : w' = w
      · subst heq
        exact .inr (hpush e tk (by simpa using h))
      · exact .inl (by simpa [heq] using h)
    wakerTarget := by
      intro w' e h
      by_cases heq : w' = w
      · subst heq
        exact .inr (htarget e (by simpa using h))
      · exact .inl (by simpa [heq] using h) }

lemma wakerStep_effect {w : ℕ} (hs : s.Affine) (h : s.wakerStep w = some s') :
    Effect s s' ∨ WakerEffect s s' := by
  have hlt := hs.waker_lt w
  unfold wakerStep at h
  cases hw : s.wakers w with
  | idle => simp [hw] at h
  | test e =>
    rw [hw] at hlt
    simp only [hw] at h
    split at h
    · obtain rfl := Option.some.inj h
      exact .inl (.quiet (.setWaker (by simp) (by simp [WakerPc.target])))
    · obtain rfl := Option.some.inj h
      refine .inl (.quiet (.setWaker (by simp) ?_))
      simpa [WakerPc.target] using hlt
  | front e =>
    rw [hw] at hlt
    simp only [hw] at h
    cases hq : (s.executors e).waitingQueue with
    | nil =>
      simp only [hq, ThreadSafeDeque.front, Option.some.injEq] at h
      exact .inl (h ▸ .quiet (.fail rfl))
    | cons tk rest =>
      simp only [hq, ThreadSafeDeque.front, Option.some.injEq] at h
      refine .inl (h ▸ .quiet (.setWaker ?_ ?_))
      · rintro e' tk' ⟨⟩
        simp [hq]
      · simpa [WakerPc.target] using hlt
  | push e tk =>
    simp only [hw, Option.some.injEq] at h
    refine .inr (h ▸ ?_)
    exact .push (hlt e (by rw [hw]; rfl)) hw
  | pop e =>
    simp only [hw] at h
    cases hq : (s.executors e).waitingQueue with
    | nil =>
      simp only [hq, ThreadSafeDeque.popFront, Option.some.injEq] at h
      exact .inl (h ▸ .quiet (.fail rfl))
    | cons tk rest =>
      simp only [hq, ThreadSafeDeque.popFront, Option.some.injEq] at h
      refine .inr (h ▸ ?_)
      exact .pop (hlt e (by rw [hw]; rfl)) hq

/-! ## Every step -/

lemma addTask_effect {tk : CoTaskPtr} (he : e < s.n) (hne : tk ≠ nullptr)
    (hnew : tk ∉ s.submitted) : Effect s (s.addTask e tk) := by
  have h := @Effect.submit s e [tk] he (by simp) (by simpa using ⟨hne, hnew⟩)
  simpa [addTask, setExecutor, CoExecutor.addTask_fst, hne] using h

lemma Quiet.setPc {pc' : ProcessPc} (he : e < s.n) (hpc : (s.pc e).onCpu = false)
    (hpc' : pc'.onCpu = false) : Quiet s (s.setPc e pc') :=
  { Quiet.refl s with
    pc := by
      intro e'
      by_cases heq : e' = e
      · subst heq
        exact .inr ⟨he, hpc, by simpa [Sched.setPc] using hpc'⟩
      · exact .inl (by simp [Sched.setPc, heq]) }

lemma Quiet.resumeLoop {nowMs' : ℕ} {stopping : Bool} (he : e < s.n)
    (hpc : (s.pc e).onCpu = false) :
    Quiet s (s.resumeLoop e timeoutMs last nowMs nowMs'
      { s.executors e with isStopping := stopping }) := by
  obtain ⟨hr, hw, ha, hid, hst, hrun⟩ := CoExecutor.idleClean_frame nowMs'
    (CoExecutor.leaveWait nowMs { s.executors e with isStopping := stopping })
  have hfin := CoExecutor.idleClean_finishedQueue nowMs'
    (CoExecutor.leaveWait nowMs { s.executors e with isStopping := stopping })
  exact .executor he ⟨hr, hw, ha, rfl, hid⟩ hrun hfin (.inl ⟨hpc, rfl⟩)

lemma Quiet.stop (s : Sched) : Quiet s s.stop := by
  have hview : ∀ {β : Type} (F : CoExecutor → β)
      (hF : ∀ ex, F { ex with isStopping := true } = F ex)
      (e : ℕ), F (s.stop.executors e) = F (s.executors e) := by
    intro β F hF e
    simp only [Sched.stop]
    split
    · exact hF _
    · rfl
  exact
    { Quiet.refl s with
      size := Nat.zero_le _
      runnableQueue := hview CoExecutor.runnableQueue fun _ => rfl
      waitingQueue := hview CoExecutor.waitingQueue fun _ => rfl
      awokenQueue := hview CoExecutor.awokenQueue fun _ => rfl
      runningTask := hview CoExecutor.runningTask fun _ => rfl
      id := hview CoExecutor.id fun _ => rfl
      ended := by
        have hfin := total_congr (n := s.n) (hview CoExecutor.finishedQueue fun _ => rfl)
        exact congrArg (· + (s.reclaimed : Multiset CoTaskPtr)) hfin }

/-- **A step that is no whole operation is one effect**, unless it belongs to a `WakeupAllTasks`
that runs in parts. -/
theorem act_effect {a : Act} (hs : s.Affine) (hfresh : Fresh s a) (hwhole : a.isWhole = false)
    (hw : a.isWakerStep = false) (h : s.act a = some s') : Effect s s' := by
  cases act_move h with
  | @addTask e tk he =>
    obtain ⟨hne, hnew⟩ := hfresh.2 tk (by simp [Act.submits])
    exact addTask_effect he hne hnew
  | @addTasks e tks he =>
    simpa [addTasks, setExecutor] using @Effect.submit s e tks he hfresh.1 hfresh.2
  | @schedulerTask rand tk hsize =>
    obtain ⟨hne, hnew⟩ := hfresh.2 tk (by simp [Act.submits])
    exact addTask_effect ((schedulerTarget_lt _ hsize).trans_le hs.size_le) hne hnew
  | schedulerTaskStopped | wakeupUninitialised | passOutOfBounds => exact .quiet (.fail rfl)
  | process he hpc => exact .quiet (.setPc he (by simp [hpc, ProcessPc.onCpu]) rfl)
  | exitLoop hpc =>
    exact .quiet (.setPc (hs.cpu.lt _ (by simp [hpc])) (by simp [hpc, ProcessPc.onCpu]) rfl)
  | pick hpc => exact pick_effect hs _ hpc
  | wake hpc | timeout hpc =>
    exact .quiet (.resumeLoop (hs.cpu.lt _ (by simp [hpc])) (by simp [hpc, ProcessPc.onCpu]))
  | hold | wakeupAllTasks | dispatch => cases hwhole
  | holdPush hpc => exact (holdPush_effect hs hpc).1
  | holdSwitch hpc => exact holdSwitch_effect hs hpc
  | yield hpc => exact yieldCurrent_effect hs hpc
  | finish hpc => exact over_effect hs hpc (fun co => ⟨rfl, rfl, rfl⟩) fun co => .inl rfl
  | throw hpc => exact over_effect hs hpc (fun co => ⟨rfl, rfl, rfl⟩) fun co => .inr rfl
  | wakeupFromEntry he => exact wakeupFromEntry_effect hs he _
  | wakeup hvalid hproc => exact wakeupFromEntry_effect hs (hs.proc_lt _ _ hproc) _
  | wakeupInvalid => exact .quiet (.refl s)
  | wakerStart | wakerStep => cases hw
  | passStart hpc =>
    have hnil := hs.dispWf.outstanding_eq_nil hpc
    exact .quiet (.setDisp (DispatchState.start_wf _) (fun h => h)
      fun _ => (outstanding_start _).trans hnil.symm)
  | passStep hstep => exact passStep_effect hs hstep
  | @clean e nowMs he =>
    have hq : Quiet s { s with
        executors := Function.update s.executors e ((s.executors e).clean nowMs).1
        pc := Function.update s.pc e (s.pc e)
        reclaimed := s.reclaimed ++ ((s.executors e).clean nowMs).2 } :=
      .executor he ⟨rfl, rfl, rfl, rfl, rfl⟩ rfl (List.append_nil _) (.inr rfl)
    exact .quiet (by simpa [setExecutor] using hq)
  | keepRef | dropRef => exact .quiet { Quiet.refl s with }
  | stop => exact .quiet (.stop s)

/-- **A step that does not run `WakeupAllTasks` in parts is a sequence of effects.** -/
theorem act_effects {a : Act} (hs : s.Affine) (hfresh : Fresh s a) (hw : a.isWakerStep = false)
    (h : s.act a = some s') : ReflTransGen Effect s s' := by
  cases hwhole : a.isWhole with
  | false => exact .single (act_effect hs hfresh hwhole hw h)
  | true =>
    cases act_move h with
    | hold hpc =>
      obtain ⟨heff, hpc'⟩ := holdPush_effect hs hpc
      rw [hold_eq hs hpc]
      exact .head heff (.single (holdSwitch_effect (heff.affine hs) hpc'))
    | wakeupAllTasks he =>
      rw [CoExecutor.wakeupAllTasks_eq]
      exact wakeupAllTasks_effects _ s he rfl
    | dispatch hpc => exact dispatch_effects hs hpc _
    | _ => cases hwhole

/-- A step of a `WakeupAllTasks` that runs in parts. -/
theorem act_wakerStep {a : Act} (hs : s.Affine) (hw : a.isWakerStep = true)
    (h : s.act a = some s') : Effect s s' ∨ WakerEffect s s' := by
  cases act_move h with
  | wakerStart he => exact .inl (.quiet (.setWaker (by simp) (by simpa [WakerPc.target] using he)))
  | wakerStep hstep => exact wakerStep_effect hs hstep
  | _ => cases hw

/-! ## Runs

A property of the states of every run is proved of effects: the two rules below do the induction
over the run and over the effects of a step, with the affinity invariant at hand throughout. -/

open TransitionSystem

lemma init_affine (h : schedSystem.init s) : s.Affine := by
  obtain ⟨n, id, rfl⟩ := h
  have hpool : pool n (fun e => { id := id e }) {} = 0 := by
    simp [pool, runnables, total, DispatchState.outstanding]
  constructor <;>
    simp [hpool, WakerPc.target]
  · exact DispatchState.start_wf 0
  · constructor <;> simp [ProcessPc.onCpu]

lemma effects_affine (h : ReflTransGen Effect s s') (hs : s.Affine) : s'.Affine := by
  induction h with
  | refl => exact hs
  | tail _ heff ih => exact heff.affine ih

lemma act_of_step {a : Act} (h : schedSystem.step s a = some s') : s.act a = some s' :=
  (Option.ite_none_left_eq_some.mp h).2

/-- What holds initially and is preserved by every effect, holds in every run that submits new
tasks only and does not run `WakeupAllTasks` in parts. -/
theorem effect_invariant {G : Sched → Act → Prop} {I : Sched → Prop}
    (hG : ∀ s a, G s a → Fresh s a ∧ a.isWakerStep = false) (hinit : ∀ s, schedSystem.init s → I s)
    (heff : ∀ s s', s.Affine → I s → Effect s s' → I s') (h : schedSystem.ReachableUnder G s) :
    s.Affine ∧ I s := by
  refine ReachableUnder.invariant (I := fun s => s.Affine ∧ I s)
    (fun s hs => ⟨init_affine hs, hinit s hs⟩) ?_ h
  rintro s a s' - ⟨hs, hI⟩ hGa hstep
  obtain ⟨hfresh, hw⟩ := hG s a hGa
  have heffs := act_effects hs hfresh hw (act_of_step hstep)
  refine ⟨effects_affine heffs hs, ?_⟩
  clear hstep
  induction heffs with
  | refl => exact hI
  | tail hpre hlast ih => exact heff _ _ (effects_affine hpre hs) ih hlast

/-- The same for runs that may also run `WakeupAllTasks` in parts. -/
theorem effect_invariant_of_waker {G : Sched → Act → Prop} {I : Sched → Prop}
    (hG : ∀ s a, G s a → Fresh s a) (hinit : ∀ s, schedSystem.init s → I s)
    (heff : ∀ s s', s.Affine → I s → Effect s s' → I s')
    (hwaker : ∀ s s', s.Affine → I s → WakerEffect s s' → I s')
    (h : schedSystem.ReachableUnder G s) : s.Affine ∧ I s := by
  refine ReachableUnder.invariant (I := fun s => s.Affine ∧ I s)
    (fun s hs => ⟨init_affine hs, hinit s hs⟩) ?_ h
  rintro s a s' - ⟨hs, hI⟩ hGa hstep
  cases hw : a.isWakerStep with
  | false =>
    have heffs := act_effects hs (hG s a hGa) hw (act_of_step hstep)
    refine ⟨effects_affine heffs hs, ?_⟩
    clear hstep
    induction heffs with
    | refl => exact hI
    | tail hpre hlast ih => exact heff _ _ (effects_affine hpre hs) ih hlast
  | true =>
    rcases act_wakerStep hs hw (act_of_step hstep) with h | h
    · exact ⟨h.affine hs, heff s s' hs hI h⟩
    · exact ⟨h.affine hs, hwaker s s' hs hI h⟩

end Sched

end CoroutineCpp
