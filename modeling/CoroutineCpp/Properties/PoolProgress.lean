import CoroutineCpp.Framework.Progress
import CoroutineCpp.Properties.PoolFifo
import CoroutineCpp.Properties.PoolWakeup

/-!
# The thread pool does not get stuck

While a pool runs and has a task and a worker, its threads can go on until a worker has taken it,
with no further call and no wakeup out of the blue (`queued_tasks_taken`).  Three things are in the
way of a given worker, and each is removed in a bounded number of steps (`locksLeft`, `way`): who
holds the lock of the queue or `m_mtx` can let it go, who sleeps is notified by a `SchedulerTask`
that is still under way, and who is awake comes to the queue.

`Placed` says where a thread stands that holds a lock, and which workers there are.
-/

namespace CoroutineCpp

open Framework TransitionSystem

/-- The worker holds the lock of the queue. -/
def WorkerPc.inCritical : WorkerPc → Bool
  | .front | .pop _ | .unlockQueue _ => true
  | _ => false

/-- The caller is in `Start`, past the store of `m_started`. -/
def CallerPc.starting : CallerPc → Bool
  | .startSetStopped | .spawn _ => true
  | _ => false

/-- The next step of a thread that is at work. -/
def PoolAct.goesOn : PoolAct → Bool
  | .worker _ | .caller _ => true
  | _ => false

namespace ThreadPool

variable {s s' : ThreadPool} {w c : ℕ} {fn : TaskF} {rest : List TaskF}

/-! ## Where the threads stand -/

/-- The holder of a lock is at a point where it holds it; the workers that are there were started,
and have returned only where the pool is stopping. -/
structure Placed (s : ThreadPool) : Prop where
  mtx : ∀ p, s.mtx = some p → s.holdsMtx p = true
  queue : ∀ w, s.queueLock = some w → (s.workers w).inCritical = true
  unborn : ∀ w, s.threads ≤ w → s.workers w = .unborn
  started : ∀ w, s.workers w ≠ .unborn → s.started = true
  starting : ∀ c, (s.callers c).starting = true → s.started = true
  done : ∀ w, s.workers w = .done → s.isStopping = true

/-- What a step does to a lock, seen from the thread `p` that makes it. -/
def Passes {ι : Type} (p : ι) (before after : Option ι) (held holds : Bool) : Prop :=
  after = before ∧ (held = true → holds = true) ∨ after = some p ∧ holds = true ∨ after = none

lemma Passes.held {ι : Type} {p q : ι} {before after : Option ι} {held holds : Bool}
    (h : Passes p before after held holds) (hq : after = some q) :
    q = p ∧ (holds = true ∨ before = some q ∧ (held = true → holds = true)) ∨
      q ≠ p ∧ before = some q := by
  by_cases heq : q = p
  · left
    refine ⟨heq, ?_⟩
    rcases h with ⟨hsame, hkeep⟩ | ⟨-, htake⟩ | hnone
    · exact .inr ⟨hsame ▸ hq, hkeep⟩
    · exact .inl htake
    · simp [hnone] at hq
  · right
    refine ⟨heq, ?_⟩
    rcases h with ⟨hsame, -⟩ | ⟨htake, -⟩ | hnone
    · exact hsame ▸ hq
    · exact absurd (Option.some.inj (htake ▸ hq)).symm heq
    · simp [hnone] at hq

/-- A worker moves on. -/
lemma Placed.worker_step {pc : WorkerPc} (h : s.Placed) (hborn : s.workers w ≠ .unborn)
    (hw : s'.workers = Function.update s.workers w pc) (hc : s'.callers = s.callers)
    (hthreads : s'.threads = s.threads) (hstarted : s'.started = s.started)
    (hstop : s'.isStopping = s.isStopping) (hdone : pc = .done → s.isStopping = true)
    (hm : Passes (.worker w) s.mtx s'.mtx (s.workers w).holdsMtx pc.holdsMtx)
    (hq : Passes w s.queueLock s'.queueLock (s.workers w).inCritical pc.inCritical) :
    s'.Placed where
  mtx p hp := by
    rcases hm.held hp with ⟨rfl, hpc | ⟨hold, hkeep⟩⟩ | ⟨hne, hold⟩
    · simpa [holdsMtx, hw] using hpc
    · simpa [holdsMtx, hw] using hkeep (h.mtx _ hold)
    · have hholds := h.mtx p hold
      cases p with
      | worker w' =>
        have hne' : w' ≠ w := by simpa using hne
        simpa [holdsMtx, hw, hne'] using hholds
      | caller c => simpa [holdsMtx, hc] using hholds
  queue w' hw' := by
    rcases hq.held hw' with ⟨rfl, hpc | ⟨hold, hkeep⟩⟩ | ⟨hne, hold⟩
    · simpa [hw] using hpc
    · simpa [hw] using hkeep (h.queue _ hold)
    · simpa [hw, hne] using h.queue w' hold
  unborn w' hw' := by
    rw [hthreads] at hw'
    have hne : w' ≠ w := by
      rintro rfl
      exact hborn (h.unborn w' hw')
    simpa [hw, hne] using h.unborn w' hw'
  started w' hw' := by
    rw [hstarted]
    by_cases heq : w' = w
    · exact h.started w hborn
    · exact h.started w' (by simpa [hw, heq] using hw')
  starting c hc' := by
    rw [hstarted]
    exact h.starting c (hc ▸ hc')
  done w' hw' := by
    rw [hstop]
    by_cases heq : w' = w
    · subst heq
      exact hdone (by simpa [hw] using hw')
    · exact h.done w' (by simpa [hw, heq] using hw')

/-- A caller moves on. -/
lemma Placed.caller_step {pc : CallerPc} (h : s.Placed)
    (hc : s'.callers = Function.update s.callers c pc) (hw : s'.workers = s.workers)
    (hthreads : s'.threads = s.threads) (hstarted : s.started = true → s'.started = true)
    (hstop : s.isStopping = true → s'.isStopping = true) (hqueue : s'.queueLock = s.queueLock)
    (hstarting : pc.starting = true → s'.started = true)
    (hm : Passes (.caller c) s.mtx s'.mtx (s.callers c).holdsMtx pc.holdsMtx) : s'.Placed where
  mtx p hp := by
    rcases hm.held hp with ⟨rfl, hpc | ⟨hold, hkeep⟩⟩ | ⟨hne, hold⟩
    · simpa [holdsMtx, hc] using hpc
    · simpa [holdsMtx, hc] using hkeep (h.mtx _ hold)
    · have hholds := h.mtx p hold
      cases p with
      | worker w => simpa [holdsMtx, hw] using hholds
      | caller c' =>
        have hne' : c' ≠ c := by simpa using hne
        simpa [holdsMtx, hc, hne'] using hholds
  queue w hw' := by
    rw [hw]
    exact h.queue w (hqueue ▸ hw')
  unborn w hw' := by
    rw [hw]
    exact h.unborn w (hthreads ▸ hw')
  started w hw' := hstarted (h.started w (hw ▸ hw'))
  starting c' hc' := by
    by_cases heq : c' = c
    · subst heq
      exact hstarting (by simpa [hc] using hc')
    · exact hstarted (h.starting c' (by simpa [hc, heq] using hc'))
  done w hw' := hstop (h.done w (hw ▸ hw'))

lemma WorkerMove.keeps_locks {pc pc' : WorkerPc} (h : WorkerMove s pc pc') :
    (pc.holdsMtx = true → pc'.holdsMtx = true) ∧
      (pc.inCritical = true → pc'.inCritical = true) := by
  cases h <;> simp [WorkerPc.holdsMtx, WorkerPc.inCritical]

lemma WorkerMove.not_unborn {pc pc' : WorkerPc} (h : WorkerMove s pc pc') : pc ≠ .unborn := by
  cases h <;> simp

lemma CallerMove.source_holdsMtx {pc pc' : CallerPc} (h : CallerMove s pc pc') :
    pc.holdsMtx = false := by
  cases h <;> rfl

lemma CallerMove.starting {pc pc' : CallerPc} (h : CallerMove s pc pc') :
    pc'.starting = false := by
  cases h with
  | @skip k => rcases k with _ | _ | _ <;> rfl
  | _ => rfl

lemma notified_eq_iff {pc pc' : WorkerPc} (h : ∀ b, pc' ≠ .blocked b) :
    notified pc = pc' ↔ pc = pc' := by
  cases pc with
  | blocked b => simp [notified, Ne.symm (h _)]
  | _ => rfl

lemma notified_inCritical (pc : WorkerPc) : (notified pc).inCritical = pc.inCritical := by
  cases pc <;> rfl

lemma Effect.placed {a : PoolAct} (h : Effect s a s') (hs : s.Placed) : s'.Placed := by
  cases h with
  | @workerMove w pc h =>
    refine hs.worker_step h.not_unborn rfl rfl rfl rfl rfl ?_ (.inl ⟨rfl, h.keeps_locks.1⟩)
      (.inl ⟨rfl, h.keeps_locks.2⟩)
    rintro rfl
    have hborn := h.not_unborn
    generalize hpc : s.workers w = pc at h hborn
    cases h with
    | leave hleave =>
      have hstarted := hs.started w (hpc ▸ hborn)
      simpa [hstarted] using hleave
  | workerTakes hpc hfree =>
    exact hs.worker_step (by simp [hpc]) rfl rfl rfl rfl rfl (by simp) (.inr (.inl ⟨rfl, rfl⟩))
      (.inl ⟨rfl, by simp [hpc, WorkerPc.inCritical]⟩)
  | workerBlocks hpc | workerGives hpc =>
    exact hs.worker_step (by simp [hpc]) rfl rfl rfl rfl rfl (by simp) (.inr (.inr rfl))
      (.inl ⟨rfl, by simp [hpc, WorkerPc.inCritical]⟩)
  | lockQueue hpc hfree =>
    exact hs.worker_step (by simp [hpc]) rfl rfl rfl rfl rfl (by simp)
      (.inl ⟨rfl, by simp [hpc, WorkerPc.holdsMtx]⟩) (.inr (.inl ⟨rfl, rfl⟩))
  | pop ha hpc hq =>
    exact hs.worker_step (by simp [hpc]) rfl rfl rfl rfl rfl (by simp)
      (.inl ⟨rfl, by simp [hpc, WorkerPc.holdsMtx]⟩) (.inl ⟨rfl, fun _ => rfl⟩)
  | unlockQueue hpc =>
    exact hs.worker_step (by simp [hpc]) rfl rfl rfl rfl rfl (by simp)
      (.inl ⟨rfl, by simp [hpc, WorkerPc.holdsMtx]⟩) (.inr (.inr rfl))
  | callerMove h =>
    exact hs.caller_step rfl rfl rfl (fun h => h) (fun h => h) rfl (by simp [h.starting])
      (.inl ⟨rfl, by simp [h.source_holdsMtx]⟩)
  | push hpc =>
    exact hs.caller_step rfl rfl rfl (fun h => h) (fun h => h) rfl (by simp [CallerPc.starting])
      (.inl ⟨rfl, by simp [hpc, CallerPc.holdsMtx]⟩)
  | callerTakes hpc hfree =>
    exact hs.caller_step rfl rfl rfl (fun h => h) (fun h => h) rfl (by simp [CallerPc.starting])
      (.inr (.inl ⟨rfl, rfl⟩))
  | @notifyAll c k hpc =>
    refine
      { mtx := fun p hp => ?_
        queue := fun w hw => by simpa [notified_inCritical] using hs.queue w hw
        unborn := fun w hw => by simp [hs.unborn w hw, notified]
        started := fun w hw => hs.started w (mt (notified_eq_iff (by simp)).mpr hw)
        starting := fun c' hc' => ?_
        done := fun w hw => hs.done w ((notified_eq_iff (by simp)).mp hw) }
    · have hholds := hs.mtx p hp
      cases p with
      | worker w => simpa [holdsMtx, setCaller] using hholds
      | caller c' =>
        by_cases heq : c' = c
        · subst heq
          simp [holdsMtx, setCaller, CallerPc.holdsMtx]
        · simpa [holdsMtx, setCaller, heq] using hholds
    · by_cases heq : c' = c
      · subst heq
        simp [setCaller, CallerPc.starting] at hc'
      · exact hs.starting c' (by simpa [setCaller, heq] using hc')
  | @callerGives c k hpc =>
    refine hs.caller_step rfl rfl rfl (fun h => h) (fun h => h) rfl ?_ (.inr (.inr rfl))
    rcases k with _ | _ | _ <;> simp [afterNotify, CallerPc.starting]
  | setStarted hpc =>
    exact hs.caller_step rfl rfl rfl (fun _ => rfl) (fun h => h) rfl (fun _ => rfl)
      (.inl ⟨rfl, by simp [hpc, CallerPc.holdsMtx]⟩)
  | @setStopped c hpc =>
    exact hs.caller_step rfl rfl rfl (fun h => h) (fun h => h) rfl
      (fun _ => hs.starting c (by simp [hpc, CallerPc.starting]))
      (.inl ⟨rfl, by simp [hpc, CallerPc.holdsMtx]⟩)
  | setStopping hpc =>
    exact hs.caller_step rfl rfl rfl (fun h => h) (fun _ => rfl) rfl (by simp [CallerPc.starting])
      (.inl ⟨rfl, by simp [hpc, CallerPc.holdsMtx]⟩)
  | join hpc | detach hpc =>
    exact hs.caller_step rfl rfl rfl (fun h => h) (fun h => h) rfl (by simp [CallerPc.starting])
      (.inl ⟨rfl, by simp [hpc, CallerPc.holdsMtx]⟩)
  | @spawn c left hpc =>
    have hstarted := hs.starting c (by simp [hpc, CallerPc.starting])
    have hnew := hs.unborn s.threads (Nat.le_refl _)
    refine
      { mtx := fun p hp => ?_
        queue := fun w hw => ?_
        unborn := fun w hw => ?_
        started := fun _ _ => hstarted
        starting := fun _ _ => hstarted
        done := fun w hw => ?_ }
    · have hholds := hs.mtx p hp
      cases p with
      | worker w =>
        by_cases heq : w = s.threads
        · simp [holdsMtx, heq, hnew, WorkerPc.holdsMtx] at hholds
        · simpa [holdsMtx, setWorker, setCaller, heq] using hholds
      | caller c' =>
        by_cases heq : c' = c
        · simp [holdsMtx, heq, hpc, CallerPc.holdsMtx] at hholds
        · simpa [holdsMtx, setWorker, setCaller, heq] using hholds
    · have hcrit := hs.queue w hw
      by_cases heq : w = s.threads
      · simp [heq, hnew, WorkerPc.inCritical] at hcrit
      · simpa [setWorker, setCaller, heq] using hcrit
    · have hlt : s.threads < w := hw
      simpa [setWorker, setCaller, Nat.ne_of_gt hlt] using hs.unborn w (Nat.le_of_lt hlt)
    · by_cases heq : w = s.threads
      · simp [setWorker, setCaller, heq] at hw
      · exact hs.done w (by simpa [setWorker, setCaller, heq] using hw)
  | emptyDeque | notJoinable =>
    exact ⟨hs.mtx, hs.queue, hs.unborn, hs.started, hs.starting, hs.done⟩

lemma reachable_placed (h : poolSystem.Reachable s) : s.Placed :=
  effect_invariant (fun n => by constructor <;> simp [CallerPc.starting])
    (fun _ _ _ hs _ h => h.placed hs) h

lemma reachable_fifo (h : poolSystem.Reachable s) : s.Fifo :=
  effect_invariant (fun _ => ⟨fun _ => trivial, rfl⟩) (fun _ _ _ hs _ h => h.fifo hs) h

lemma reachable_wakeupPending (h : poolSystem.Reachable s) : s.WakeupPending := by
  have hs : s.MtxOk ∧ s.WakeupPending :=
    effect_invariant (I := fun s => s.MtxOk ∧ s.WakeupPending)
      (fun n => ⟨reachable_mtxOk (.init ⟨n, rfl⟩), by simp [WakeupPending]⟩)
      (fun _ _ _ hs _ h => ⟨h.mtxOk hs.1, h.wakeupPending hs.1 hs.2⟩) h
  exact hs.2

/-! ## The way to the front task -/

end ThreadPool

/-- The steps the holder of the queue lock still makes under it. -/
def WorkerPc.criticalLeft : WorkerPc → ℕ
  | .front => 3
  | .pop _ => 2
  | .unlockQueue _ => 1
  | _ => 0

/-- The steps a worker that holds `m_mtx` still makes under it, beside a task. -/
def WorkerPc.mtxLeft : WorkerPc → ℕ
  | .evaluate => 2
  | .release | .block => 1
  | _ => 0

/-- The steps a caller that holds `m_mtx` still makes under it. -/
def CallerPc.mtxLeft : CallerPc → ℕ
  | .notifyAll _ => 2
  | .notifyRelease _ => 1
  | _ => 0

/-- The steps of a worker up to the pop of a task, beside one. -/
def WorkerPc.way : WorkerPc → ℕ
  | .unborn | .done => 0
  | .pop _ => 1
  | .front => 2
  | .lockQueue => 3
  | .test => 4
  | .release => 5
  | .evaluate => 6
  | .acquire => 7
  | .loop => 8
  | .blocked true => 8
  | .run _ => 9
  | .unlockQueue _ => 10
  | .blocked false => 11
  | .block => 12

lemma WorkerPc.asleep_iff_way {pc : WorkerPc} : pc.asleep = true ↔ 10 < pc.way := by
  cases pc with
  | blocked notified => cases notified <;> simp [WorkerPc.asleep, WorkerPc.way]
  | _ => simp [WorkerPc.asleep, WorkerPc.way]

namespace ThreadPool

/-- The steps of the holder of the queue lock up to its release. -/
def queueLeft (s : ThreadPool) : ℕ :=
  match s.queueLock with
  | none => 0
  | some w => (s.workers w).criticalLeft

/-- The steps of the holder of `m_mtx` up to its release. -/
def mtxLeft (s : ThreadPool) : ℕ :=
  match s.mtx with
  | none => 0
  | some (.worker w) => (s.workers w).mtxLeft
  | some (.caller c) => (s.callers c).mtxLeft

/-- The steps of both. -/
def locksLeft (s : ThreadPool) : ℕ := s.queueLeft + s.mtxLeft

/-- The pool runs with the worker `w`, has these tasks in its queue, and those have been taken. -/
structure Busy (s : ThreadPool) (w : ℕ) (tasks taken : List TaskF) : Prop where
  reachable : poolSystem.Reachable s
  fault : s.fault = none
  isStopping : s.isStopping = false
  tasks : s.tasks = tasks
  taken : s.taken = taken
  born : s.workers w ≠ .unborn

variable {s s' : ThreadPool} {w c : ℕ} {fn : TaskF} {rest taken : List TaskF}

lemma notified_way_le (pc : WorkerPc) : (notified pc).way ≤ pc.way := by
  cases pc with
  | blocked notified => cases notified <;> decide
  | _ => exact Nat.le_refl _

lemma step_worker (hf : s.fault = none) : s.step (.worker w) = s.workerStep w := by
  simp [step, hf]

lemma step_caller (hf : s.fault = none) : s.step (.caller c) = s.callerStep c := by
  simp [step, hf]

lemma reachable_step {a : PoolAct} (h : poolSystem.Reachable s) (hs : s.step a = some s') :
    poolSystem.Reachable s' :=
  .step h trivial hs

lemma Busy.of_step {a : PoolAct} {tasks : List TaskF} (h : s.Busy w tasks taken)
    (hs : s.step a = some s') (hf : s'.fault = s.fault) (hstop : s'.isStopping = s.isStopping)
    (ht : s'.tasks = s.tasks) (htaken : s'.taken = s.taken) (hborn : s'.workers w ≠ .unborn) :
    s'.Busy w tasks taken where
  reachable := reachable_step h.reachable hs
  fault := hf.trans h.fault
  isStopping := hstop.trans h.isStopping
  tasks := ht.trans h.tasks
  taken := htaken.trans h.taken
  born := hborn

/-- A worker moves on, and the pool stays busy. -/
lemma Busy.worker {pc : WorkerPc} {w' : ℕ} {tasks : List TaskF} (h : s.Busy w tasks taken)
    (hne : pc ≠ .unborn) (hs : s.step (.worker w') = some s')
    (hw : s'.workers = Function.update s.workers w' pc)
    (hf : s'.fault = s.fault) (hstop : s'.isStopping = s.isStopping) (ht : s'.tasks = s.tasks)
    (htaken : s'.taken = s.taken) : s'.Busy w tasks taken := by
  refine h.of_step hs hf hstop ht htaken ?_
  by_cases heq : w = w'
  · simpa [hw, heq] using hne
  · simpa [hw, heq] using h.born

lemma way_update_le {pc : WorkerPc} {w' : ℕ} (hw : s'.workers = Function.update s.workers w' pc)
    (hway : pc.way ≤ (s.workers w').way) : (s'.workers w).way ≤ (s.workers w).way := by
  by_cases heq : w = w'
  · simpa [hw, heq] using hway
  · simp [hw, heq]

/-- A worker moves on that has as much to do under `m_mtx` as before. -/
lemma mtxLeft_worker {pc : WorkerPc} (hw : s'.workers = Function.update s.workers w pc)
    (hc : s'.callers = s.callers) (hm : s'.mtx = s.mtx)
    (hpc : pc.mtxLeft = (s.workers w).mtxLeft) : s'.mtxLeft = s.mtxLeft := by
  unfold mtxLeft
  rw [hm, hw, hc]
  cases s.mtx with
  | none => rfl
  | some p =>
    cases p with
    | worker w' =>
      by_cases heq : w' = w
      · simp [heq, hpc]
      · simp [heq]
    | caller c => rfl

/-- A step by which the front task is taken, or a lock comes nearer to its release while the worker
`w` comes no further from the queue. -/
def Frees (s : ThreadPool) (w : ℕ) (fn : TaskF) (rest taken : List TaskF) (s' : ThreadPool) :
    Prop :=
  s'.Busy w rest (taken ++ [fn]) ∨
    s'.Busy w (fn :: rest) taken ∧ s'.locksLeft < s.locksLeft ∧
      (s'.workers w).way ≤ (s.workers w).way

/-- A worker makes a step under a lock. -/
lemma Busy.frees_worker {pc : WorkerPc} {w' : ℕ} (h : s.Busy w (fn :: rest) taken)
    (hne : pc ≠ .unborn) (hs : s.step (.worker w') = some s')
    (hw : s'.workers = Function.update s.workers w' pc)
    (hf : s'.fault = s.fault) (hstop : s'.isStopping = s.isStopping) (ht : s'.tasks = s.tasks)
    (htaken : s'.taken = s.taken) (hway : pc.way ≤ (s.workers w').way)
    (hlocks : s'.locksLeft < s.locksLeft) : Frees s w fn rest taken s' :=
  .inr ⟨h.worker hne hs hw hf hstop ht htaken, hlocks, way_update_le hw hway⟩

/-- Who holds the lock of the queue goes on, and takes the front task on the way. -/
lemma Busy.exists_free_queue {w' : ℕ} (h : s.Busy w (fn :: rest) taken)
    (hq : s.queueLock = some w') :
    ∃ a s', a.goesOn = true ∧ s.step a = some s' ∧ Frees s w fn rest taken s' := by
  have hcrit := (reachable_placed h.reachable).queue w' hq
  have hleft : s.queueLeft = (s.workers w').criticalLeft := by simp [queueLeft, hq]
  cases hpc : s.workers w' with
  | front =>
    have hstep : s.step (.worker w') = some (s.setWorker w' (.pop fn)) := by
      simp [step_worker h.fault, workerStep, hpc, h.tasks]
    refine ⟨_, _, rfl, hstep, h.frees_worker (by simp) hstep rfl rfl rfl rfl rfl
      (by simp [hpc, WorkerPc.way]) ?_⟩
    have hsame : (s.setWorker w' (.pop fn)).mtxLeft = s.mtxLeft :=
      mtxLeft_worker rfl rfl rfl (by simp [hpc, WorkerPc.mtxLeft])
    have hless : (s.setWorker w' (.pop fn)).queueLeft = 2 := by
      simp [queueLeft, setWorker, hq, WorkerPc.criticalLeft]
    simp only [locksLeft, hsame, hless, hleft, hpc, WorkerPc.criticalLeft]
    omega
  | pop fn' =>
    have hholds : HoldsFront s.tasks s.queueLock w' (.pop fn') :=
      hpc ▸ (reachable_fifo h.reachable).worker w'
    obtain rfl : fn = fn' := by simpa [h.tasks] using hholds.2
    have hstep : s.step (.worker w') = some
        { s.setWorker w' (.unlockQueue fn) with tasks := rest, taken := s.taken ++ [fn] } := by
      simp [step_worker h.fault, workerStep, hpc, h.tasks]
    refine ⟨_, _, rfl, hstep, .inl ⟨reachable_step h.reachable hstep, h.fault, h.isStopping, rfl,
      congrArg (· ++ [fn]) h.taken, ?_⟩⟩
    by_cases heq : w = w'
    · simp [setWorker, heq]
    · simpa [setWorker, heq] using h.born
  | unlockQueue fn' =>
    have hstep : s.step (.worker w') =
        some { s.setWorker w' (.run fn') with queueLock := none } := by
      simp [step_worker h.fault, workerStep, hpc]
    refine ⟨_, _, rfl, hstep, h.frees_worker (by simp) hstep rfl rfl rfl rfl rfl
      (by simp [hpc, WorkerPc.way]) ?_⟩
    have hsame : ThreadPool.mtxLeft { s.setWorker w' (.run fn') with queueLock := none } =
        s.mtxLeft := mtxLeft_worker rfl rfl rfl (by simp [hpc, WorkerPc.mtxLeft])
    simp only [locksLeft, hsame, hleft, hpc, WorkerPc.criticalLeft]
    simp [queueLeft]
  | _ => simp [hpc, WorkerPc.inCritical] at hcrit

/-- Who holds `m_mtx` goes on while nobody holds the lock of the queue. -/
lemma Busy.exists_free_mtx {p : Party} (h : s.Busy w (fn :: rest) taken) (hq : s.queueLock = none)
    (hp : s.mtx = some p) :
    ∃ a s', a.goesOn = true ∧ s.step a = some s' ∧ Frees s w fn rest taken s' := by
  have hholds := (reachable_placed h.reachable).mtx p hp
  cases p with
  | worker w' =>
    have hleft : s.locksLeft = (s.workers w').mtxLeft := by
      simp [locksLeft, queueLeft, mtxLeft, hq, hp]
    rw [holdsMtx] at hholds
    cases hpc : s.workers w' with
    | evaluate =>
      have hstep : s.step (.worker w') = some (s.setWorker w' .release) := by
        simp [step_worker h.fault, workerStep, hpc, h.tasks, hq]
      refine ⟨_, _, rfl, hstep, h.frees_worker (by simp) hstep rfl rfl rfl rfl rfl
        (by simp [hpc, WorkerPc.way]) ?_⟩
      rw [hleft]
      simp [locksLeft, queueLeft, mtxLeft, setWorker, hq, hp, hpc, WorkerPc.mtxLeft]
    | release =>
      have hstep : s.step (.worker w') = some { s.setWorker w' .test with mtx := none } := by
        simp [step_worker h.fault, workerStep, hpc]
      refine ⟨_, _, rfl, hstep, h.frees_worker (by simp) hstep rfl rfl rfl rfl rfl
        (by simp [hpc, WorkerPc.way]) ?_⟩
      rw [hleft]
      simp [locksLeft, queueLeft, mtxLeft, setWorker, hq, hpc, WorkerPc.mtxLeft]
    | block =>
      have hstep : s.step (.worker w') =
          some { s.setWorker w' (.blocked false) with mtx := none } := by
        simp [step_worker h.fault, workerStep, hpc]
      refine ⟨_, _, rfl, hstep, h.frees_worker (by simp) hstep rfl rfl rfl rfl rfl
        (by simp [hpc, WorkerPc.way]) ?_⟩
      rw [hleft]
      simp [locksLeft, queueLeft, mtxLeft, setWorker, hq, hpc, WorkerPc.mtxLeft]
    | _ => simp [hpc, WorkerPc.holdsMtx] at hholds
  | caller c =>
    have hleft : s.locksLeft = (s.callers c).mtxLeft := by
      simp [locksLeft, queueLeft, mtxLeft, hq, hp]
    rw [holdsMtx] at hholds
    cases hpc : s.callers c with
    | notifyAll k =>
      have hstep : s.step (.caller c) = some { s.setCaller c (.notifyRelease k) with
          workers := fun w => notified (s.workers w) } := by
        simp [step_caller h.fault, callerStep, hpc]
      refine ⟨_, _, rfl, hstep, .inr ⟨h.of_step hstep rfl rfl rfl rfl ?_, ?_,
        notified_way_le _⟩⟩
      · exact mt (notified_eq_iff (by simp)).mp h.born
      · rw [hleft]
        simp [locksLeft, queueLeft, mtxLeft, setCaller, hq, hp, hpc, CallerPc.mtxLeft]
    | notifyRelease k =>
      have hstep : s.step (.caller c) =
          some { s.setCaller c (afterNotify k) with mtx := none } := by
        simp [step_caller h.fault, callerStep, hpc]
      refine ⟨_, _, rfl, hstep, .inr ⟨h.of_step hstep rfl rfl rfl rfl h.born, ?_,
        Nat.le_refl _⟩⟩
      rw [hleft]
      simp [locksLeft, queueLeft, mtxLeft, setCaller, hq, hpc, CallerPc.mtxLeft]
    | _ => simp [hpc, CallerPc.holdsMtx] at hholds

/-- Who holds a lock goes on. -/
lemma Busy.exists_free (h : s.Busy w (fn :: rest) taken)
    (hheld : ¬ (s.queueLock = none ∧ s.mtx = none)) :
    ∃ a s', a.goesOn = true ∧ s.step a = some s' ∧ Frees s w fn rest taken s' := by
  cases hq : s.queueLock with
  | some w' => exact h.exists_free_queue hq
  | none =>
    obtain ⟨p, hp⟩ := Option.ne_none_iff_exists'.mp fun hnone => hheld ⟨hq, hnone⟩
    exact h.exists_free_mtx hq hp

/-- With both locks free, a worker that is awake comes nearer to the queue. -/
lemma Busy.exists_approach (h : s.Busy w (fn :: rest) taken) (hq : s.queueLock = none)
    (hm : s.mtx = none) (hawake : (s.workers w).asleep = false) :
    ∃ s', s.step (.worker w) = some s' ∧ s'.Busy w (fn :: rest) taken ∧
      (s'.workers w).way < (s.workers w).way ∧ s'.locksLeft ≤ 3 := by
  have hplaced := reachable_placed h.reachable
  have hcrit : ∀ pc, s.workers w = pc → HoldsFront s.tasks s.queueLock w pc :=
    fun pc hpc => hpc ▸ (reachable_fifo h.reachable).worker w
  have hmtx : (s.workers w).holdsMtx = false := by
    rw [← Bool.not_eq_true]
    intro hholds
    simp [reachable_mtxOk h.reachable (.worker w) hholds] at hm
  have hmove : ∀ pc : WorkerPc, pc ≠ .unborn → s.workerStep w = some (s.setWorker w pc) →
      pc.way < (s.workers w).way →
      ∃ s', s.step (.worker w) = some s' ∧ s'.Busy w (fn :: rest) taken ∧
        (s'.workers w).way < (s.workers w).way ∧ s'.locksLeft ≤ 3 := by
    intro pc hne hstep hway
    have hstep := (step_worker h.fault).trans hstep
    refine ⟨_, hstep, h.worker hne hstep rfl rfl rfl rfl rfl, by simpa [setWorker] using hway, ?_⟩
    simp [locksLeft, queueLeft, mtxLeft, setWorker, hq, hm]
  obtain ⟨pc, hpc⟩ : ∃ pc, s.workers w = pc := ⟨_, rfl⟩
  cases pc with
  | unborn => exact absurd hpc h.born
  | done => simpa [h.isStopping] using hplaced.done w hpc
  | loop =>
    refine hmove .acquire (by simp) ?_ (by simp [hpc, WorkerPc.way])
    simp [workerStep, hpc, hplaced.started w h.born, h.isStopping]
  | blocked b =>
    obtain rfl : b = true := by simpa [hpc, WorkerPc.asleep] using hawake
    exact hmove .acquire (by simp) (by simp [workerStep, hpc]) (by simp [hpc, WorkerPc.way])
  | test =>
    refine hmove .lockQueue (by simp) ?_ (by simp [hpc, WorkerPc.way])
    simp [workerStep, hpc, hq, h.tasks]
  | run fn' =>
    exact hmove .loop (by simp) (by simp [workerStep, hpc]) (by simp [hpc, WorkerPc.way])
  | acquire =>
    have hstep : s.step (.worker w) =
        some { s.setWorker w .evaluate with mtx := some (.worker w) } := by
      simp [step_worker h.fault, workerStep, hpc, hm]
    refine ⟨_, hstep, h.worker (by simp) hstep rfl rfl rfl rfl rfl, ?_, ?_⟩
    · simp [setWorker, hpc, WorkerPc.way]
    · simp [locksLeft, queueLeft, mtxLeft, setWorker, hq, WorkerPc.mtxLeft]
  | lockQueue =>
    have hstep : s.step (.worker w) =
        some { s.setWorker w .front with queueLock := some w } := by
      simp [step_worker h.fault, workerStep, hpc, hq]
    refine ⟨_, hstep, h.worker (by simp) hstep rfl rfl rfl rfl rfl, ?_, ?_⟩
    · simp [setWorker, hpc, WorkerPc.way]
    · simp [locksLeft, queueLeft, mtxLeft, setWorker, hm, WorkerPc.criticalLeft]
  | front | pop fn' | unlockQueue fn' =>
    have hholds := hcrit _ hpc
    simp [HoldsFront, hq] at hholds
  | evaluate | release | block => simp [hpc, WorkerPc.holdsMtx] at hmtx

/-- A caller that waits for `m_mtx` to notify gets it, and wakes everybody. -/
lemma Busy.canReach_awake_of_acquire {k : Notifier} (h : s.Busy w (fn :: rest) taken)
    (hm : s.mtx = none) (hpc : s.callers c = .notifyAcquire k) :
    poolSystem.CanReach (fun _ a => a.goesOn = true)
      (fun s' => s'.Busy w (fn :: rest) taken ∧ (s'.workers w).asleep = false) s := by
  have hstep₁ : s.step (.caller c) =
      some { s.setCaller c (.notifyAll k) with mtx := some (.caller c) } := by
    simp [step_caller h.fault, callerStep, hpc, hm]
  have h₁ := h.of_step hstep₁ rfl rfl rfl rfl h.born
  generalize hs₁ : ({ s.setCaller c (.notifyAll k) with mtx := some (.caller c) } : ThreadPool) = s₁
    at hstep₁ h₁
  have hpc₁ : s₁.callers c = .notifyAll k := by
    rw [← hs₁]
    simp [setCaller]
  have hstep₂ : s₁.step (.caller c) = some { s₁.setCaller c (.notifyRelease k) with
      workers := fun w => notified (s₁.workers w) } := by
    simp [step_caller h₁.fault, callerStep, hpc₁]
  have h₂ := h₁.of_step hstep₂ rfl rfl rfl rfl (mt (notified_eq_iff (by simp)).mp h₁.born)
  exact .of_step (a := .caller c) rfl hstep₁ (.of_step (a := .caller c) rfl hstep₂
    (.here ⟨h₂, (reachable_mtxOk h₁.reachable).notified_asleep hpc₁ w⟩))

/-- With both locks free, a worker that sleeps beside a task is woken by the `SchedulerTask` that
has still to notify. -/
lemma Busy.canReach_awake (h : s.Busy w (fn :: rest) taken) (hq : s.queueLock = none)
    (hm : s.mtx = none) (hsleep : (s.workers w).asleep = true) :
    poolSystem.CanReach (fun _ a => a.goesOn = true)
      (fun s' => s'.Busy w (fn :: rest) taken ∧ (s'.workers w).asleep = false) s := by
  obtain ⟨c, hc⟩ := reachable_wakeupPending h.reachable (by simp [h.tasks]) w hsleep
  cases hpc : s.callers c with
  | notifyTest k =>
    have hstep : s.step (.caller c) = some (s.setCaller c (.notifyAcquire k)) := by
      simp [step_caller h.fault, callerStep, hpc, hq, h.tasks]
    have h₁ := h.of_step hstep rfl rfl rfl rfl h.born
    have hpc₁ : (s.setCaller c (.notifyAcquire k)).callers c = .notifyAcquire k := by
      simp [setCaller]
    exact .of_step (a := .caller c) rfl hstep (h₁.canReach_awake_of_acquire hm hpc₁)
  | notifyAcquire k => exact h.canReach_awake_of_acquire hm hpc
  | notifyAll k =>
    have hholds := reachable_mtxOk h.reachable (.caller c) (by
      simp [holdsMtx, hpc, CallerPc.holdsMtx])
    simp [hm] at hholds
  | _ => simp [hpc, CallerPc.willNotify] at hc

/-- A worker that is awake comes to take the task, if nobody else does. -/
lemma Busy.canReach_taken (h : s.Busy w (fn :: rest) taken)
    (hawake : (s.workers w).asleep = false) :
    poolSystem.CanReach (fun _ a => a.goesOn = true)
      (fun s' => s'.Busy w rest (taken ++ [fn])) s := by
  refine .of_rank (fun s => s.locksLeft + 4 * (s.workers w).way)
    (I := fun s => s.Busy w (fn :: rest) taken ∧ (s.workers w).asleep = false) ?_ ⟨h, hawake⟩
  rintro s ⟨h, hawake⟩ -
  have hway : ∀ {pc : WorkerPc}, pc.way ≤ (s.workers w).way → pc.asleep = false := by
    intro pc hle
    have hnot : ¬ 10 < (s.workers w).way := mt WorkerPc.asleep_iff_way.mpr (by simp [hawake])
    rw [← Bool.not_eq_true, WorkerPc.asleep_iff_way]
    omega
  by_cases hfree : s.queueLock = none ∧ s.mtx = none
  · obtain ⟨s', hstep, h', hlt, hle⟩ := h.exists_approach hfree.1 hfree.2 hawake
    exact ⟨.worker w, s', rfl, hstep, .inr ⟨⟨h', hway (Nat.le_of_lt hlt)⟩, by omega⟩⟩
  · obtain ⟨a, s', hgo, hstep, htaken | ⟨h', hlt, hle⟩⟩ := h.exists_free hfree
    · exact ⟨a, s', hgo, hstep, .inl htaken⟩
    · exact ⟨a, s', hgo, hstep, .inr ⟨⟨h', hway hle⟩, by omega⟩⟩

/-- The front task can be taken: the locks come free, the worker is woken, and it comes to the
queue. -/
lemma Busy.canReach_next (h : s.Busy w (fn :: rest) taken) :
    poolSystem.CanReach (fun _ a => a.goesOn = true)
      (fun s' => s'.Busy w rest (taken ++ [fn])) s := by
  have hfree : poolSystem.CanReach (fun _ a => a.goesOn = true)
      (fun s' => s'.Busy w rest (taken ++ [fn]) ∨
        s'.Busy w (fn :: rest) taken ∧ s'.queueLock = none ∧ s'.mtx = none) s := by
    refine .of_rank locksLeft (I := fun s' => s'.Busy w (fn :: rest) taken) ?_ h
    intro s' h' hnot
    obtain ⟨a, s'', hgo, hstep, htaken | ⟨h'', hlt, -⟩⟩ :=
      h'.exists_free fun hlocks => hnot (.inr ⟨h', hlocks⟩)
    · exact ⟨a, s'', hgo, hstep, .inl (.inl htaken)⟩
    · exact ⟨a, s'', hgo, hstep, .inr ⟨h'', hlt⟩⟩
  refine hfree.trans fun s' _ hs' => ?_
  rcases hs' with htaken | ⟨h', hqueue, hmtx⟩
  · exact .here htaken
  · cases hsleep : (s'.workers w).asleep with
    | false => exact h'.canReach_taken hsleep
    | true =>
      exact (h'.canReach_awake hqueue hmtx hsleep).trans fun s'' _ hs'' =>
        hs''.1.canReach_taken hs''.2

lemma Busy.canReach_drained {tasks : List TaskF} (h : s.Busy w tasks taken) :
    poolSystem.CanReach (fun _ a => a.goesOn = true)
      (fun s' => s'.Busy w [] (taken ++ tasks)) s := by
  induction tasks generalizing s taken with
  | nil => exact .here (by simpa using h)
  | cons fn rest ih =>
    refine h.canReach_next.trans fun s' _ h' => ?_
    have hrest := ih h'
    rwa [List.append_assoc, List.singleton_append] at hrest

/-- **The pool does not get stuck.**  In every reachable state of a pool that is not stopping, and
has met no fault, with a worker, the threads that are at work can go on, without a further call and
without a spurious wakeup, until all the queued tasks have been taken, in their order. -/
theorem queued_tasks_taken (h : poolSystem.Reachable s) (hf : s.fault = none)
    (hrun : s.isStopping = false) (hw : s.workers w ≠ .unborn) :
    poolSystem.CanReach (fun _ a => a.goesOn = true)
      (fun s' => s'.taken = s.taken ++ s.tasks ∧ s'.tasks = []) s := by
  have hbusy : s.Busy w s.tasks s.taken := ⟨h, hf, hrun, rfl, rfl, hw⟩
  exact hbusy.canReach_drained.imp fun s' hs' => ⟨hs'.taken, hs'.tasks⟩

/-- The only worker sleeps, and a task has been pushed but not notified yet. -/
theorem queued_tasks_taken_asleep :
    ∃ s, poolSystem.Reachable s ∧ s.workers 0 = .blocked false ∧ s.tasks = [7] ∧
      poolSystem.CanReach (fun _ a => a.goesOn = true)
        (fun s' => s'.taken = s.taken ++ s.tasks ∧ s'.tasks = []) s := by
  obtain ⟨s, hs, hp⟩ := exists_reachable_of_runUnder (G := fun _ _ => True) (M := poolSystem)
    (List.flatten [[.start 0], List.replicate 5 (.caller 0), List.replicate 4 (.worker 0),
      [.schedulerTask 1 7, .caller 1, .caller 1]])
    (fun s => s.tasks = [7] && s.workers 0 = .blocked false && s.fault = none && !s.isStopping)
    ⟨1, rfl⟩ (by decide)
  simp only [Bool.and_eq_true, decide_eq_true_eq, Bool.not_eq_true'] at hp
  obtain ⟨⟨⟨htasks, hblocked⟩, hfault⟩, hrun⟩ := hp
  exact ⟨s, hs, hblocked, htasks,
    queued_tasks_taken (w := 0) hs hfault hrun (by simp [hblocked])⟩

end ThreadPool

end CoroutineCpp
