import CoroutineCpp.Properties.DispatchPass
import CoroutineCpp.Properties.DispatchRefinement
import CoroutineCpp.Properties.FairPicks
import CoroutineCpp.Properties.SchedMoves

/-!
# The ready queues in the whole system

Whatever a step of the system is, to executor `e` it is a sequence of steps of `readySystem`
(`act_followed`): a resumption by `e` is a pick, a queue operation of the dispatcher on `e` is
a `GiveUpTasks` or an `AddTask`, and only a call of `Process` sets `last_retrieve_from_awoken` anew.
This holds in every state and for every step, so the laws of the picks hold in every run of the
system; `awoken_resumed_within` is the bound of `Properties/FairPicks.lean` there.
-/

namespace CoroutineCpp

open Framework TransitionSystem Server Relation

/-- The local `last_retrieve_from_awoken`, of a thread in `Process`. -/
def ProcessPc.lastRetrieve : ProcessPc → Option Bool
  | .outside => none
  | .loop _ last => some last
  | .waiting _ last => some last
  | .resumed _ last => some last
  | .holding _ last _ => some last

/-- A step of the dispatcher. -/
def Act.isDispatch : Act → Bool
  | .dispatch .. => true
  | .passStart => true
  | .passStep .. => true
  | _ => false

/-- What a step of the system with label `a` can be to executor `e`. -/
def ReadyAct.PartOf (e : ℕ) (a : Act) : ReadyAct → Prop
  | .giveUpTasks _ => a.isDispatch = true
  | .process => ∃ timeoutMs, a = .process e timeoutMs
  | _ => True

namespace Sched

/-- The tasks executor `e` has resumed, in order. -/
def resumesOf (s : Sched) (e : ℕ) : List CoTaskPtr :=
  (s.resumes.filter fun p => p.2 = e).map Prod.fst

/-- Executor `e` of the system is that of `r`, and what it has resumed after `before` is what `r`
has picked. -/
structure Follows (before : List CoTaskPtr) (e : ℕ) (s : Sched) (r : ReadyState) : Prop where
  ex : r.ex = s.executors e
  last : ∀ last, (s.pc e).lastRetrieve = some last → r.last = last
  resumes : s.resumesOf e = before ++ r.picks.map Prod.snd

/-- Executor `e` has got where it is by a run of `readySystem`. -/
def Followed (G : ReadyState → ReadyAct → Prop) (ex : CoExecutor) (last : Bool)
    (before : List CoTaskPtr) (e : ℕ) (s : Sched) : Prop :=
  ∃ r, (readySystem ex last).ReachableUnder G r ∧ s.Follows before e r

variable {s s' : Sched} {e e' : ℕ} {G : ReadyState → ReadyAct → Prop} {ex : CoExecutor}
  {last : Bool} {before : List CoTaskPtr}

/-! ## One step of the executor -/

/-- Nothing happens to the two queues. -/
lemma Followed.rest (h : s.Followed G ex last before e) (hG : ∀ r ex', G r (.rest ex'))
    (hq : ∀ b, (s'.executors e).readyQueue b = (s.executors e).readyQueue b)
    (hpc : ∀ last, (s'.pc e).lastRetrieve = some last → (s.pc e).lastRetrieve = some last)
    (hres : s'.resumesOf e = s.resumesOf e) : s'.Followed G ex last before e := by
  obtain ⟨r, hr, hf⟩ := h
  refine ⟨{ r with ex := s'.executors e }, .step hr (hG r (s'.executors e)) (if_pos ?_), rfl,
    fun last hlast => hf.last last (hpc last hlast), hres.trans hf.resumes⟩
  intro b
  rw [hf.ex]
  exact hq b

/-- Tasks go to the back of one of the two queues. -/
lemma Followed.append (h : s.Followed G ex last before e)
    (hG : ∀ r a, a.isProcess = false → a.isGiveUp = false → G r a) (b : Bool) (tks : List CoTaskPtr)
    (hq : (s'.executors e).readyQueue b = (s.executors e).readyQueue b ++ tks)
    (hnot : (s'.executors e).readyQueue (!b) = (s.executors e).readyQueue (!b))
    (hpc : s'.pc e = s.pc e) (hres : s'.resumes = s.resumes) :
    s'.Followed G ex last before e := by
  obtain ⟨r, hr, hf⟩ := h
  have hlast : ∀ last, (s'.pc e).lastRetrieve = some last → r.last = last :=
    fun last hlast => hf.last last (hpc ▸ hlast)
  have hresumes : s'.resumesOf e = before ++ r.picks.map Prod.snd := by
    rw [resumesOf, hres]
    exact hf.resumes
  cases b with
  | true =>
    have hawaken := ReachableUnder.step hr (hG r (.awaken tks) rfl rfl) rfl
    refine ⟨_, .step hawaken (hG _ (.rest (s'.executors e)) rfl rfl) (if_pos ?_), rfl, hlast,
      hresumes⟩
    intro b
    cases b with
    | true => simpa [CoExecutor.foldl_pushBack, hf.ex] using hq
    | false => simpa [hf.ex] using hnot
  | false =>
    have hadd := ReachableUnder.step hr (hG r (.addTasks tks) rfl rfl) rfl
    refine ⟨_, .step hadd (hG _ (.rest (s'.executors e)) rfl rfl) (if_pos ?_), rfl, hlast,
      hresumes⟩
    intro b
    cases b with
    | true => simpa [hf.ex] using hnot
    | false => simpa [hf.ex] using hq

/-- `GiveUpTasks` of the executor. -/
lemma Followed.giveUp (h : s.Followed G ex last before e) {n : ℕ}
    (hG : ∀ r, G r (.giveUpTasks n)) {giveups : List CoTaskPtr}
    (hex : s'.executors e = ((s.executors e).giveUpTasks giveups n).1)
    (hpc : s'.pc e = s.pc e) (hres : s'.resumes = s.resumes) :
    s'.Followed G ex last before e := by
  obtain ⟨r, hr, hf⟩ := h
  refine ⟨_, .step hr (hG r) rfl, ?_, fun last hlast => hf.last last (hpc ▸ hlast), ?_⟩
  · rw [hex, ← hf.ex]
    rfl
  · rw [resumesOf, hres]
    exact hf.resumes

/-- The next task is picked and resumed. -/
lemma Followed.pick (h : s.Followed G ex last before e) (hpick : ∀ r, G r .pick)
    (hrest : ∀ r ex', G r (.rest ex')) {timeoutMs : ℕ} {b last₁ last₂ : Bool} {ex₂ : CoExecutor}
    (hpc : s.pc e = .loop timeoutMs last₁) (hst : (s.executors e).isStopping = false)
    (hchoose : (s.executors e).chooseQueue last₁ = some b)
    (hassign : (s.executors e).assignRunnableTask b = some (ex₂, last₂))
    (hq : ∀ b, (s'.executors e).readyQueue b = ex₂.readyQueue b)
    (hpc' : ∀ last, (s'.pc e).lastRetrieve = some last → last₂ = last)
    (hres : s'.resumesOf e = s.resumesOf e ++ [ex₂.runningTask]) :
    s'.Followed G ex last before e := by
  obtain ⟨r, hr, hf⟩ := h
  have hlast : r.last = last₁ := hf.last last₁ (by rw [hpc]; rfl)
  have hstep : r.step .pick =
      some { r with ex := ex₂, last := last₂, picks := r.picks ++ [(b, ex₂.runningTask)] } := by
    simp only [ReadyState.step, hf.ex, hlast, hst, hchoose, hassign]
    rfl
  have hpicked := ReachableUnder.step hr (hpick r) hstep
  refine ⟨_, .step hpicked (hrest _ (s'.executors e)) (if_pos hq), rfl, hpc', ?_⟩
  rw [hres, hf.resumes]
  simp

/-! ## Steps that leave the ready queues alone -/

/-- Nothing happens to the ready queues, and nothing is resumed. -/
structure KeepsReady (s s' : Sched) : Prop where
  readyQueue : ∀ e b, (s'.executors e).readyQueue b = (s.executors e).readyQueue b
  lastRetrieve : ∀ e last, (s'.pc e).lastRetrieve = some last → (s.pc e).lastRetrieve = some last
  resumes : s'.resumes = s.resumes

lemma KeepsReady.trans {s₁ s₂ s₃ : Sched} (h : KeepsReady s₁ s₂) (h' : KeepsReady s₂ s₃) :
    KeepsReady s₁ s₃ where
  readyQueue e b := (h'.readyQueue e b).trans (h.readyQueue e b)
  lastRetrieve e last hlast := h.lastRetrieve e last (h'.lastRetrieve e last hlast)
  resumes := h'.resumes.trans h.resumes

lemma Followed.keeps (h : s.Followed G ex last before e) (hG : ∀ r ex', G r (.rest ex'))
    (hk : KeepsReady s s') : s'.Followed G ex last before e :=
  h.rest hG (hk.readyQueue e) (hk.lastRetrieve e) (by rw [resumesOf, hk.resumes]; rfl)

/-- A change of one executor and its thread. -/
lemma KeepsReady.of_update {ex' : CoExecutor} {pc' : ProcessPc}
    (hex : s'.executors = Function.update s.executors e ex')
    (hpc : s'.pc = Function.update s.pc e pc') (hres : s'.resumes = s.resumes)
    (hq : ∀ b, ex'.readyQueue b = (s.executors e).readyQueue b)
    (hlast : ∀ last, pc'.lastRetrieve = some last → (s.pc e).lastRetrieve = some last) :
    KeepsReady s s' where
  readyQueue e' b := by
    rw [hex]
    by_cases h : e' = e
    · subst h
      simpa using hq b
    · rw [Function.update_of_ne h]
  lastRetrieve e' last := by
    rw [hpc]
    by_cases h : e' = e
    · subst h
      simpa using hlast last
    · rw [Function.update_of_ne h]
      exact id
  resumes := hres

/-- A change of an executor alone. -/
lemma KeepsReady.setExecutor {ex' : CoExecutor}
    (hex : s'.executors = Function.update s.executors e ex') (hpc : s'.pc = s.pc)
    (hres : s'.resumes = s.resumes)
    (hq : ∀ b, ex'.readyQueue b = (s.executors e).readyQueue b) : KeepsReady s s' :=
  .of_update hex (hpc.trans (Function.update_eq_self e s.pc).symm) hres hq fun _ => id

/-- A step that touches neither executors nor threads. -/
lemma KeepsReady.of_eq (hex : s'.executors = s.executors) (hpc : s'.pc = s.pc)
    (hres : s'.resumes = s.resumes) : KeepsReady s s' where
  readyQueue e b := by rw [hex]
  lastRetrieve e last := by rw [hpc]; exact id
  resumes := hres

/-- What the end of an iteration leaves: the ready queues as they were, one `Resume` more
counted, and the thread at the loop or out of `Process`. -/
lemma endIteration_update (s : Sched) (e timeoutMs : ℕ) (last : Bool) (nowMs : ℕ) :
    ∃ ex' pc', (s.endIteration e timeoutMs last nowMs).executors =
        Function.update s.executors e ex' ∧
      (s.endIteration e timeoutMs last nowMs).pc = Function.update s.pc e pc' ∧
      (s.endIteration e timeoutMs last nowMs).resumes = s.resumes ∧
      (∀ b, ex'.readyQueue b = (s.executors e).readyQueue b) ∧
      ex'.switchCnt = (s.executors e).switchCnt ∧
      ex'.switchedCnt = (s.executors e).switchedCnt + 1 ∧
      (pc' = .loop timeoutMs last ∨ pc' = .outside) := by
  obtain ⟨hr, -, ha, -⟩ := (s.executors e).afterResume_frame
    (s.tasks (s.executors e).runningTask).co.status
    (s.tasks (s.executors e).runningTask).co.exPtr nowMs
  obtain ⟨hcnt, hcnt'⟩ := (s.executors e).afterResume_counts
    (s.tasks (s.executors e).runningTask).co.status
    (s.tasks (s.executors e).runningTask).co.exPtr nowMs
  have hq : ∀ b, CoExecutor.readyQueue ((s.executors e).afterResume
      (s.tasks (s.executors e).runningTask).co.status
      (s.tasks (s.executors e).runningTask).co.exPtr nowMs).ex b =
        (s.executors e).readyQueue b := by
    intro b
    cases b with
    | true => exact ha
    | false => exact hr
  simp only [endIteration]
  split
  · exact ⟨_, _, rfl, rfl, rfl, hq, hcnt, hcnt', .inl rfl⟩
  · exact ⟨_, _, rfl, rfl, rfl, hq, hcnt, hcnt', .inr rfl⟩

/-- A thread at the end of an iteration remembers the `last_retrieve` of the iteration, if any. -/
lemma lastRetrieve_of_back {timeoutMs : ℕ} {last : Bool} {pc : ProcessPc}
    (hpc : pc = .loop timeoutMs last ∨ pc = .outside) (last' : Bool)
    (h : pc.lastRetrieve = some last') : last = last' := by
  obtain rfl | rfl := hpc
  · exact Option.some.inj h
  · cases h

lemma KeepsReady.endIteration {timeoutMs nowMs : ℕ} {last : Bool}
    (hpc : (s.pc e).lastRetrieve = some last) :
    KeepsReady s (s.endIteration e timeoutMs last nowMs) := by
  obtain ⟨ex', pc', hex, hpc', hres, hq, -, -, hback⟩ :=
    endIteration_update s e timeoutMs last nowMs
  refine .of_update hex hpc' hres hq fun last' h => ?_
  rw [← lastRetrieve_of_back hback last' h]
  exact hpc

lemma KeepsReady.fail (s : Sched) (f : Fault) : KeepsReady s (s.fail f) := .of_eq rfl rfl rfl

lemma KeepsReady.switchOut {timeoutMs nowMs : ℕ} {last stackRef : Bool}
    {ctx : Coroutine → Option ThreadId} {f : Coroutine → Coroutine}
    (hpc : (s.pc e).lastRetrieve = some last) :
    KeepsReady s (s.switchOut e timeoutMs last nowMs ctx f stackRef) := by
  simp only [Sched.switchOut]
  split
  · have hset : KeepsReady s (s.setTask (s.executors e).runningTask
        { s.tasks (s.executors e).runningTask with
          co := f (s.tasks (s.executors e).runningTask).co, stackRef := stackRef }) :=
      .of_eq rfl rfl rfl
    exact hset.trans (.endIteration hpc)
  · exact .fail s _

lemma KeepsReady.yieldCurrent {timeoutMs nowMs : ℕ} {last : Bool}
    (hpc : (s.pc e).lastRetrieve = some last) :
    KeepsReady s (s.yieldCurrent e timeoutMs last nowMs) := by
  simp only [Sched.yieldCurrent]
  split
  · exact .fail s _
  · have hlog : KeepsReady s { s with yielded := s.yielded ++ [(s.executors e).runningTask] } :=
      .of_eq rfl rfl rfl
    exact hlog.trans (.switchOut hpc)

lemma KeepsReady.holdPush {timeoutMs : ℕ} {last : Bool}
    (hpc : (s.pc e).lastRetrieve = some last) :
    KeepsReady s (s.holdPush e timeoutMs last) := by
  simp only [Sched.holdPush]
  split
  · exact .of_eq rfl rfl rfl
  next p _ =>
    split
    · exact .fail s _
    · split
      · exact .fail s _
      · have hpush : KeepsReady s (s.setExecutor p { s.executors p with
            waitingQueue :=
              (s.executors p).waitingQueue.pushBack (s.executors p).runningTask }) := by
          refine .setExecutor rfl rfl rfl fun b => ?_
          cases b <;> rfl
        refine hpush.trans (.of_update (Function.update_eq_self e _).symm rfl rfl (fun _ => rfl) ?_)
        intro last' h
        rw [← Option.some.inj h]
        exact hpc

lemma KeepsReady.holdSwitch {timeoutMs p nowMs : ℕ} {last : Bool}
    (hpc : (s.pc e).lastRetrieve = some last) :
    KeepsReady s (s.holdSwitch e timeoutMs last p nowMs) := by
  simp only [Sched.holdSwitch]
  split
  · exact .switchOut hpc
  · exact .fail s _

lemma KeepsReady.hold {timeoutMs nowMs : ℕ} {last : Bool} (hpc : s.pc e = .resumed timeoutMs last) :
    KeepsReady s (s.hold e timeoutMs last nowMs) := by
  have hpush : KeepsReady s (s.holdPush e timeoutMs last) := .holdPush (by rw [hpc]; rfl)
  simp only [Sched.hold]
  split
  next hpc' => exact hpush.trans (.holdSwitch (by rw [hpc']; rfl))
  next => exact hpush

lemma KeepsReady.resumeLoop {timeoutMs nowMs nowMs' : ℕ} {last stopping : Bool}
    (hpc : s.pc e = .waiting timeoutMs last) :
    KeepsReady s (s.resumeLoop e timeoutMs last nowMs nowMs'
      { s.executors e with isStopping := stopping }) := by
  obtain ⟨hr, -, ha, -⟩ := CoExecutor.idleClean_frame nowMs'
    (CoExecutor.leaveWait nowMs { s.executors e with isStopping := stopping })
  refine .of_update rfl rfl rfl ?_ ?_
  · intro b
    cases b with
    | true => exact ha
    | false => exact hr
  · intro last' h
    rw [← Option.some.inj h, hpc]
    rfl

lemma KeepsReady.stop (s : Sched) : KeepsReady s s.stop where
  readyQueue e b := by
    simp only [Sched.stop]
    split
    · cases b <;> rfl
    · rfl
  lastRetrieve _ _ := id
  resumes := rfl

/-! ## Steps that move tasks into or out of the ready queues -/

section Moves

variable {a : Act} (hG : ∀ r b, ReadyAct.PartOf e a b → G r b)
include hG

lemma Followed.append_of (h : s.Followed G ex last before e) (b : Bool) {e' : ℕ}
    {ex' : CoExecutor} (tks : List CoTaskPtr)
    (hex : s'.executors = Function.update s.executors e' ex')
    (hq : ex'.readyQueue b = (s.executors e').readyQueue b ++ tks)
    (hnot : ex'.readyQueue (!b) = (s.executors e').readyQueue (!b)) (hpc : s'.pc = s.pc)
    (hres : s'.resumes = s.resumes) : s'.Followed G ex last before e := by
  by_cases heq : e = e'
  · subst heq
    refine h.append (fun r a hp hg => hG r a ?_) b tks ?_ ?_ (by rw [hpc]) hres
    · cases a with
      | giveUpTasks => cases hg
      | process => cases hp
      | _ => exact trivial
    · rw [hex, Function.update_self]
      exact hq
    · rw [hex, Function.update_self]
      exact hnot
  · refine h.rest (fun r ex' => hG r _ trivial) (fun b => ?_) (fun _ => by rw [hpc]; exact id)
      (by rw [resumesOf, hres]; rfl)
    rw [hex, Function.update_of_ne heq]

lemma Followed.keeps_of (h : s.Followed G ex last before e) (hk : KeepsReady s s') :
    s'.Followed G ex last before e :=
  h.keeps (fun r ex' => hG r (.rest ex') trivial) hk

/-- A task picked and resumed by `e'`: to `e` this is a pick if `e'` is `e`, and nothing
otherwise. -/
lemma Followed.pickOf (h : s.Followed G ex last before e) {e' timeoutMs : ℕ}
    {last' last₂ b : Bool} {ex₂ ex' : CoExecutor} {pc' : ProcessPc}
    (hpc : s.pc e' = .loop timeoutMs last') (hst : (s.executors e').isStopping = false)
    (hchoose : (s.executors e').chooseQueue last' = some b)
    (hassign : (s.executors e').assignRunnableTask b = some (ex₂, last₂))
    (hex : s'.executors = Function.update s.executors e' ex')
    (hpc' : s'.pc = Function.update s.pc e' pc')
    (hres : s'.resumes = s.resumes ++ [(ex₂.runningTask, e')])
    (hq : ∀ b, ex'.readyQueue b = ex₂.readyQueue b)
    (hlast : ∀ last, pc'.lastRetrieve = some last → last₂ = last) :
    s'.Followed G ex last before e := by
  by_cases heq : e = e'
  · subst heq
    refine h.pick (fun r => hG r _ trivial) (fun r ex' => hG r _ trivial) hpc hst hchoose
      hassign ?_ ?_ ?_
    · rw [hex, Function.update_self]
      exact hq
    · rw [hpc', Function.update_self]
      exact hlast
    · simp [resumesOf, hres]
  · have hne : e' ≠ e := fun h => heq h.symm
    refine h.rest (fun r ex' => hG r _ trivial) (fun b => ?_) (fun last => ?_) ?_
    · rw [hex, Function.update_of_ne heq]
    · rw [hpc', Function.update_of_ne heq]
      exact id
    · simp [resumesOf, hres, hne]

/-- A pick of some executor. -/
lemma Followed.pickStep (h : s.Followed G ex last before e) {e' timeoutMs nowUs nowMs : ℕ}
    {last' : Bool} (hpc : s.pc e' = .loop timeoutMs last')
    (hst : (s.executors e').isStopping = false) :
    (s.pick e' timeoutMs last' nowUs nowMs).Followed G ex last before e := by
  simp only [Sched.pick]
  cases hchoose : (s.executors e').chooseQueue last' with
  | none =>
    refine h.keeps_of hG (.of_update rfl rfl rfl ?_ ?_)
    · intro b
      cases b <;> rfl
    · intro last hlast
      rw [hpc]
      exact hlast
  | some b =>
    obtain ⟨ex₂, last₂, hassign⟩ : ∃ ex₂ last₂,
        (s.executors e').assignRunnableTask b = some (ex₂, last₂) := by
      rcases CoExecutor.assignRunnableTask_of_chooseQueue hchoose with
        ⟨-, tk, rest, -, hassign⟩ | ⟨-, tk, rest, -, hassign⟩ <;>
      exact ⟨_, _, hassign⟩
    simp only [hassign, runTask]
    split
    · exact h.keeps_of hG (.fail s _)
    · split
      · exact h.keeps_of hG (.fail s _)
      · obtain ⟨ex', pc', hex, hpc', hres, hq, -, -, hback⟩ := endIteration_update
          (setTask { s.setExecutor e' (ex₂.beforeResume nowUs) with
            resumes := s.resumes ++ [(ex₂.runningTask, e')] } ex₂.runningTask
              { s.tasks ex₂.runningTask with proc := some e' })
          e' timeoutMs last₂ nowMs
        have hex' := hex.trans (Function.update_idem ..)
        refine h.pickOf hG hpc hst hchoose hassign hex' hpc' hres ?_ (lastRetrieve_of_back hback)
        intro b
        rw [hq b]
        simp only [setTask, setExecutor, Function.update_self]
        cases b <;> rfl
      · refine h.pickOf hG hpc hst hchoose hassign rfl rfl rfl ?_ fun _ h => Option.some.inj h
        intro b
        cases b <;> rfl

/-- `WakeupFromEntry` pushes onto the awoken queue. -/
lemma Followed.wakeupFromEntry (h : s.Followed G ex last before e) (e' : ℕ)
    (entry : RecoveryEntry) : (s.wakeupFromEntry e' entry).1.Followed G ex last before e := by
  simp only [Sched.wakeupFromEntry]
  split
  · refine h.append_of hG true
      [(s.setExecutor e' { s.executors e' with
        waitingQueue := (s.executors e').waitingQueue.erase (s.lock entry.tk) }).lock entry.tk]
      (Function.update_idem _ _ _) ?_ ?_ rfl rfl <;>
    simp [setExecutor, ThreadSafeDeque.pushBack]
  · exact h

/-- The queue calls of a `WakeupAllTasks` that runs in parts. -/
lemma Followed.wakerStep (h : s.Followed G ex last before e) {w : ℕ}
    (hstep : s.wakerStep w = some s') : s'.Followed G ex last before e := by
  unfold Sched.wakerStep at hstep
  cases hw : s.wakers w with
  | idle => simp [hw] at hstep
  | test e' =>
    simp only [hw] at hstep
    split at hstep <;>
    · obtain rfl := Option.some.inj hstep
      exact h.keeps_of hG (.of_eq rfl rfl rfl)
  | front e' =>
    simp only [hw] at hstep
    split at hstep <;>
    · obtain rfl := Option.some.inj hstep
      exact h.keeps_of hG (.of_eq rfl rfl rfl)
  | push e' tk =>
    simp only [hw, Option.some.injEq] at hstep
    subst hstep
    exact h.append_of hG true [tk] rfl rfl rfl rfl rfl
  | pop e' =>
    simp only [hw] at hstep
    split at hstep
    · obtain rfl := Option.some.inj hstep
      exact h.keeps_of hG (.of_eq rfl rfl rfl)
    · obtain rfl := Option.some.inj hstep
      refine h.keeps_of hG (.setExecutor rfl rfl rfl fun b => ?_)
      cases b <;> rfl

/-- A queue operation of the dispatcher steals from one executor, hands tasks to one, or touches
none. -/
lemma Followed.passStep (h : s.Followed G ex last before e) (ha : a.isDispatch = true)
    {size : ℕ} {blocking : Bool} {d d' : DispatchState} {t' : Executors}
    (hstep : d.step size blocking s.executors = some (d', t')) :
    Sched.Followed G ex last before e { s with disp := d', executors := t' } := by
  have hsteal : ∀ d : DispatchState, ∀ d' idx load,
      Sched.Followed G ex last before e { s with
        disp := d', executors := (d.stealFrom idx load blocking s.executors).2 } := by
    intro d d' idx load
    by_cases heq : e = idx
    · subst heq
      exact h.giveUp (fun r => hG r _ ha) (Function.update_self ..) rfl rfl
    · refine h.rest (fun r ex' => hG r _ trivial) (fun b => ?_) (fun _ => id) rfl
      simp only [DispatchState.stealFrom]
      rw [Function.update_of_ne heq]
  have hhand : ∀ d : DispatchState, ∀ d' idx upto,
      Sched.Followed G ex last before e { s with
        disp := d', executors := (d.handTo idx upto s.executors).2 } := by
    intro d d' idx upto
    refine h.append_of hG false ((d.stolen.drop d.first).take (upto - d.first)) rfl ?_ ?_ rfl rfl
    · simp
    · simp
  have hread : ∀ d', Sched.Followed G ex last before e { s with disp := d' } :=
    fun d' => h.keeps_of hG (.of_eq rfl rfl rfl)
  cases DispatchState.step_move hstep with
  | giveUp => exact hsteal d _ _ _
  | handOut | handOutLast | rest => exact hhand d _ _ _
  | _ => exact hread _

lemma Followed.passSteps (ha : a.isDispatch = true) {blocking : ℕ → Bool}
    {p q : DispatchState × Executors}
    (hrun : ReflTransGen (PassStep s.size blocking) p q)
    (hp : Sched.Followed G ex last before e { s with disp := p.1, executors := p.2 }) :
    Sched.Followed G ex last before e { s with disp := q.1, executors := q.2 } := by
  induction hrun with
  | refl => exact hp
  | tail _ hstep ih => exact Followed.passStep hG ih ha hstep

/-- **Whatever the step is, the executor follows it.** -/
theorem act_followed (h : s.act a = some s') (hf : s.Followed G ex last before e) :
    s'.Followed G ex last before e := by
  cases act_move h with
  | @addTask e' tk | @schedulerTask _ tk =>
    refine hf.append_of hG false (if tk = nullptr then [] else [tk]) rfl ?_ ?_ rfl rfl <;>
    simp [CoExecutor.addTask_fst]
  | @addTasks e' tks =>
    refine hf.append_of hG false tks rfl ?_ ?_ rfl rfl <;> simp
  | schedulerTaskStopped | wakeupUninitialised | passOutOfBounds =>
    exact hf.keeps_of hG (.fail s _)
  | @process e' timeoutMs he hpc =>
    by_cases heq : e = e'
    · subst heq
      obtain ⟨r, hr, hr'⟩ := hf
      refine ⟨_, .step hr (hG r .process ⟨timeoutMs, rfl⟩) rfl, hr'.ex, fun last hlast => ?_,
        hr'.resumes⟩
      simpa [setPc, ProcessPc.lastRetrieve] using hlast
    · refine hf.rest (fun r ex' => hG r _ trivial) (fun b => rfl) (fun last => ?_) rfl
      simp only [setPc, Function.update_of_ne heq]
      exact id
  | @exitLoop e' =>
    refine hf.keeps_of hG (.of_update (Function.update_eq_self e' _).symm rfl rfl (fun _ => rfl) ?_)
    simp [ProcessPc.lastRetrieve]
  | pick hpc hst => exact hf.pickStep hG hpc hst
  | wake hpc | timeout hpc => exact hf.keeps_of hG (.resumeLoop hpc)
  | hold hpc => exact hf.keeps_of hG (.hold hpc)
  | holdPush hpc => exact hf.keeps_of hG (.holdPush (by rw [hpc]; rfl))
  | holdSwitch hpc => exact hf.keeps_of hG (.holdSwitch (by rw [hpc]; rfl))
  | yield hpc => exact hf.keeps_of hG (.yieldCurrent (by rw [hpc]; rfl))
  | finish hpc | throw hpc => exact hf.keeps_of hG (.switchOut (by rw [hpc]; rfl))
  | wakeupFromEntry | wakeup => exact hf.wakeupFromEntry hG _ _
  | wakeupInvalid => exact hf
  | @wakeupAllTasks e' =>
    refine hf.append_of hG true (s.executors e').waitingQueue rfl ?_ ?_ rfl rfl <;>
    simp [CoExecutor.wakeupAllTasks_eq]
  | wakerStart | passStart | keepRef | dropRef => exact hf.keeps_of hG (.of_eq rfl rfl rfl)
  | wakerStep hstep => exact hf.wakerStep hG hstep
  | @dispatch nowUs =>
    have hrun := dispatchTasksEqually_run s.size
      (fun e => (s.executors e).isBlocking (nowUs e)) s.executors
    have hstart : Sched.Followed G ex last before e { s with disp := .start s.size } :=
      hf.keeps_of hG (.of_eq rfl rfl rfl)
    exact (Followed.passSteps hG rfl hrun hstart).keeps_of hG (.of_eq rfl rfl rfl)
  | passStep hstep => exact hf.passStep hG rfl hstep
  | @clean e' =>
    refine hf.keeps_of hG (.setExecutor (e := e') rfl rfl rfl fun b => ?_)
    cases b <;> rfl
  | stop => exact hf.keeps_of hG (.stop s)

end Moves

/-! ## Runs -/

/-- In a run from the state `s₀`, executor `e` goes through a run of `readySystem` from where it
was, and the tasks it resumes are those picked there. -/
theorem reachable_followed {s₀ : Sched} {H : Sched → Act → Prop}
    (hG : ∀ s a, H s a → ∀ r b, ReadyAct.PartOf e a b → G r b)
    (h : (schedSystem.startAt s₀).ReachableUnder H s) :
    s.Followed G (s₀.executors e) ((s₀.pc e).lastRetrieve.getD false) (s₀.resumesOf e) e := by
  refine ReachableUnder.invariant ?_ (fun s a s' _ hf hH hstep => ?_) h
  · rintro s rfl
    refine ⟨_, .init rfl, rfl, fun last hlast => ?_, (List.append_nil _).symm⟩
    simp [hlast]
  · obtain ⟨-, hact⟩ := Option.ite_none_left_eq_some.mp hstep
    exact act_followed (hG s a hH) hact hf

/-- **Bounded waiting of awoken tasks in the whole system.** From any state on, a task with `k`
tasks ahead of it in the awoken queue of executor `e` is among the next `2 * k + 2` tasks `e`
resumes in this call of `Process`, whatever else happens.  This links the picks of
`Model/ReadyQueues.lean` to the runs of `Model/Sched.lean`. -/
theorem awoken_resumed_within {s₀ : Sched} {ahead behind resumed : List CoTaskPtr} {tk : CoTaskPtr}
    (h : (schedSystem.startAt s₀).ReachableUnder (fun _ a => ∀ timeoutMs, a ≠ .process e timeoutMs)
      s)
    (hq : (s₀.executors e).awokenQueue = ahead ++ tk :: behind)
    (hres : s.resumesOf e = s₀.resumesOf e ++ resumed)
    (hlen : 2 * ahead.length + 2 ≤ resumed.length) :
    (ahead ++ [tk]).Sublist (resumed.take (2 * ahead.length + 2)) := by
  obtain ⟨r, hr, hf⟩ := reachable_followed (G := fun _ b => b.isProcess = false) (fun s a hcall r b
    hpart => by
      cases b with
      | process =>
        obtain ⟨timeoutMs, heq⟩ := hpart
        exact absurd heq (hcall timeoutMs)
      | _ => rfl) h
  obtain rfl : resumed = r.picks.map Prod.snd :=
    List.append_cancel_left (hres.symm.trans hf.resumes)
  rw [List.length_map] at hlen
  rw [← List.map_take]
  exact (ReadyState.awoken_picked_within (fun _ _ h => h) hq hr hlen).sublist.trans
    (takenFrom_sublist true _)

end Sched

end CoroutineCpp
