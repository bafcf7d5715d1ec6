import CoroutineCpp.Properties.PoolSteps

/-!
# The thread pool does not sleep on queued work

A producer pushes without `m_mtx`, and it skips the notification where it finds the queue empty.  No
wakeup is lost all the same, because a worker evaluates its predicate and blocks under `m_mtx`:
between its evaluation on the empty queue and the block nobody can notify, so a task pushed
meanwhile still has its notification ahead.  `WakeupPending` is this invariant.  It needs the
mutual exclusion of `m_mtx` (`MtxOk`) at one point only: who notifies holds the mutex, so no worker
is between its evaluation and the block then.
-/

namespace CoroutineCpp

open Framework TransitionSystem

/-- The worker holds `m_mtx`. -/
def WorkerPc.holdsMtx : WorkerPc → Bool
  | .evaluate => true
  | .block => true
  | .release => true
  | _ => false

/-- The worker has found the predicate false and has not been notified since. -/
def WorkerPc.asleep : WorkerPc → Bool
  | .block => true
  | .blocked notified => !notified
  | _ => false

/-- The caller holds `m_mtx`. -/
def CallerPc.holdsMtx : CallerPc → Bool
  | .notifyAll _ => true
  | .notifyRelease _ => true
  | _ => false

/-- The caller is in a `SchedulerTask` that has pushed its task and not notified yet. -/
def CallerPc.willNotify : CallerPc → Bool
  | .notifyTest .schedulerTask => true
  | .notifyAcquire .schedulerTask => true
  | .notifyAll .schedulerTask => true
  | _ => false

/-- The caller is in a `SchedulerTask`, between the push and the end of `NotifyCondition`. -/
def CallerPc.notifying : CallerPc → Bool
  | .notifyTest .schedulerTask => true
  | .notifyAcquire .schedulerTask => true
  | .notifyAll .schedulerTask => true
  | .notifyRelease .schedulerTask => true
  | _ => false

lemma CallerPc.notifying_of_willNotify {pc : CallerPc} (h : pc.willNotify = true) :
    pc.notifying = true := by
  cases pc with
  | notifyTest k | notifyAcquire k | notifyAll k => cases k <;> first | rfl | cases h
  | _ => cases h

namespace ThreadPool

variable {s s' : ThreadPool} {w c : ℕ}

@[simp] lemma afterNotify_holdsMtx (k : Notifier) : (afterNotify k).holdsMtx = false := by
  rcases k with _ | _ | _ <;> rfl

@[simp] lemma notified_holdsMtx (pc : WorkerPc) : (notified pc).holdsMtx = pc.holdsMtx := by
  cases pc <;> rfl

/-! ## Mutual exclusion -/

/-- The thread is at a point where it holds `m_mtx`. -/
def holdsMtx (s : ThreadPool) : Party → Bool
  | .worker w => (s.workers w).holdsMtx
  | .caller c => (s.callers c).holdsMtx

/-- Whoever is at a point where it holds `m_mtx` does hold it. -/
def MtxOk (s : ThreadPool) : Prop := ∀ p, s.holdsMtx p = true → s.mtx = some p

/-- Thread `p` moves on and keeps, takes or gives back the mutex; no other thread comes to a point
where it holds it. -/
lemma MtxOk.step {p : Party} (h : s.MtxOk)
    (hother : ∀ q, q ≠ p → s'.holdsMtx q = true → s.holdsMtx q = true)
    (hm : s'.mtx = s.mtx ∧ (s'.holdsMtx p = true → s.holdsMtx p = true) ∨
      s.mtx = none ∧ s'.mtx = some p ∨
      s.holdsMtx p = true ∧ s'.holdsMtx p = false) : s'.MtxOk := by
  intro q hq
  by_cases heq : q = p
  · subst heq
    rcases hm with ⟨hsame, hkeep⟩ | ⟨-, htake⟩ | ⟨-, hback⟩
    · exact hsame ▸ h q (hkeep hq)
    · exact htake
    · simp [hback] at hq
  · have hold := h q (hother q heq hq)
    rcases hm with ⟨hsame, -⟩ | ⟨hnone, -⟩ | ⟨hp, -⟩
    · exact hsame ▸ hold
    · simp [hnone] at hold
    · -- two threads cannot hold it
      exact absurd (Option.some.inj (hold.symm.trans (h p hp))) heq

/-- A step of a worker. -/
lemma MtxOk.worker_step {pc : WorkerPc} (h : s.MtxOk)
    (hw : s'.workers = Function.update s.workers w pc) (hc : s'.callers = s.callers)
    (hm : s'.mtx = s.mtx ∧ (pc.holdsMtx = true → (s.workers w).holdsMtx = true) ∨
      s.mtx = none ∧ s'.mtx = some (.worker w) ∨
      (s.workers w).holdsMtx = true ∧ pc.holdsMtx = false) : s'.MtxOk := by
  refine h.step (p := .worker w) (fun q hne hq => ?_) (by simpa [holdsMtx, hw] using hm)
  cases q with
  | worker w' =>
    have hne' : w' ≠ w := by simpa using hne
    simpa [holdsMtx, hw, hne'] using hq
  | caller c => simpa [holdsMtx, hc] using hq

/-- A step of a caller; the workers may be notified. -/
lemma MtxOk.caller_step {pc : CallerPc} (h : s.MtxOk)
    (hc : s'.callers = Function.update s.callers c pc)
    (hw : ∀ w, (s'.workers w).holdsMtx = true → (s.workers w).holdsMtx = true)
    (hm : s'.mtx = s.mtx ∧ (pc.holdsMtx = true → (s.callers c).holdsMtx = true) ∨
      s.mtx = none ∧ s'.mtx = some (.caller c) ∨
      (s.callers c).holdsMtx = true ∧ pc.holdsMtx = false) : s'.MtxOk := by
  refine h.step (p := .caller c) (fun q hne hq => ?_) (by simpa [holdsMtx, hc] using hm)
  cases q with
  | worker w => exact hw w hq
  | caller c' =>
    have hne' : c' ≠ c := by simpa using hne
    simpa [holdsMtx, hc, hne'] using hq

lemma WorkerMove.holdsMtx {pc pc' : WorkerPc} (h : WorkerMove s pc pc') :
    pc'.holdsMtx = true → pc.holdsMtx = true := by
  cases h <;> simp [WorkerPc.holdsMtx]

lemma CallerMove.holdsMtx {pc pc' : CallerPc} (h : CallerMove s pc pc') :
    pc'.holdsMtx = false := by
  cases h with
  | skip => exact afterNotify_holdsMtx _
  | _ => rfl

lemma Effect.mtxOk {a : PoolAct} (h : Effect s a s') (hs : s.MtxOk) : s'.MtxOk := by
  cases h with
  | workerMove h => exact hs.worker_step rfl rfl (.inl ⟨rfl, h.holdsMtx⟩)
  | workerTakes hpc hfree => exact hs.worker_step rfl rfl (.inr (.inl ⟨hfree, rfl⟩))
  | workerBlocks hpc | workerGives hpc =>
    exact hs.worker_step rfl rfl (.inr (.inr ⟨by simp [hpc, WorkerPc.holdsMtx], rfl⟩))
  | lockQueue | pop | unlockQueue =>
    exact hs.worker_step rfl rfl (.inl ⟨rfl, by simp [WorkerPc.holdsMtx]⟩)
  | callerMove h =>
    exact hs.caller_step rfl (fun _ hw => hw) (.inl ⟨rfl, by simp [h.holdsMtx]⟩)
  | callerTakes hpc hfree =>
    exact hs.caller_step rfl (fun _ hw => hw) (.inr (.inl ⟨hfree, rfl⟩))
  | notifyAll hpc =>
    refine hs.caller_step rfl (fun w hw => ?_) (.inl ⟨rfl, by simp [hpc, CallerPc.holdsMtx]⟩)
    simpa using hw
  | callerGives hpc =>
    exact hs.caller_step rfl (fun _ hw => hw)
      (.inr (.inr ⟨by simp [hpc, CallerPc.holdsMtx], by simp⟩))
  | spawn =>
    refine hs.caller_step rfl (fun w hw => ?_) (.inl ⟨rfl, by simp [CallerPc.holdsMtx]⟩)
    simp only [setWorker, setCaller, Function.update_apply] at hw
    split at hw
    · cases hw
    · exact hw
  | push | setStarted | setStopped | setStopping | join | detach =>
    exact hs.caller_step rfl (fun _ hw => hw) (.inl ⟨rfl, by simp [CallerPc.holdsMtx]⟩)
  | emptyDeque | notJoinable => exact hs

/-- Who notifies holds the mutex, so no worker is about to block, and all are awake afterwards. -/
lemma MtxOk.notified_asleep {k : Notifier} (h : s.MtxOk) (hpc : s.callers c = .notifyAll k)
    (w : ℕ) : (notified (s.workers w)).asleep = false := by
  rw [← Bool.not_eq_true]
  intro hsleep
  have hblock : s.workers w = .block := by
    cases hw : s.workers w <;> simp [hw, notified, WorkerPc.asleep] at hsleep ⊢
  have hcaller := h (.caller c) (by simp [holdsMtx, hpc, CallerPc.holdsMtx])
  have hworker := h (.worker w) (by simp [holdsMtx, hblock, WorkerPc.holdsMtx])
  simp [hcaller] at hworker

/-! ## No lost wakeup -/

/-- Where there is a task and a worker sleeps, a notification is still to come. -/
def WakeupPending (s : ThreadPool) : Prop :=
  s.tasks ≠ [] → ∀ w, (s.workers w).asleep = true → ∃ c, (s.callers c).willNotify = true

/-- A step that adds no task, lets nobody fall asleep beside a task and drops no notification
that a task needs. -/
lemma WakeupPending.mono (h : s.WakeupPending) (ht : s'.tasks ≠ [] → s.tasks ≠ [])
    (hw : s.tasks ≠ [] → ∀ w, (s'.workers w).asleep = true → (s.workers w).asleep = true)
    (hc : s.tasks ≠ [] → ∀ c, (s.callers c).willNotify = true →
      (s'.callers c).willNotify = true) : s'.WakeupPending := by
  intro hne w hsleep
  obtain ⟨c, hnotify⟩ := h (ht hne) w (hw (ht hne) w hsleep)
  exact ⟨c, hc (ht hne) c hnotify⟩

lemma asleep_setWorker {pc : WorkerPc} (h : pc.asleep = true → (s.workers w).asleep = true)
    (w' : ℕ) (hw : (Function.update s.workers w pc w').asleep = true) :
    (s.workers w').asleep = true := by
  by_cases heq : w' = w
  · subst heq
    exact h (by simpa using hw)
  · simpa [heq] using hw

lemma willNotify_setCaller {pc : CallerPc}
    (h : (s.callers c).willNotify = true → pc.willNotify = true) (c' : ℕ)
    (hc : (s.callers c').willNotify = true) :
    (Function.update s.callers c pc c').willNotify = true := by
  by_cases heq : c' = c
  · subst heq
    simpa using h hc
  · simpa [heq] using hc

/-- A worker falls asleep only when it finds the queue empty. -/
lemma WorkerMove.asleep {pc pc' : WorkerPc} (h : WorkerMove s pc pc') (hne : s.tasks ≠ []) :
    pc'.asleep = true → pc.asleep = true := by
  cases h with
  | missed hnil => exact absurd hnil hne
  | _ => simp [WorkerPc.asleep]

/-- A notification is skipped only when the queue is found empty. -/
lemma CallerMove.willNotify {pc pc' : CallerPc} (h : CallerMove s pc pc') (hne : s.tasks ≠ []) :
    pc.willNotify = true → pc'.willNotify = true := by
  cases h with
  | skip hnil => exact absurd hnil hne
  | @notify k => cases k <;> simp [CallerPc.willNotify]
  | _ => simp [CallerPc.willNotify]

lemma Effect.wakeupPending {a : PoolAct} (h : Effect s a s') (hm : s.MtxOk)
    (hs : s.WakeupPending) : s'.WakeupPending := by
  cases h with
  | workerMove h =>
    exact hs.mono (fun h => h) (fun hne => asleep_setWorker (h.asleep hne)) fun _ _ hc => hc
  | workerBlocks hpc =>
    exact hs.mono (fun h => h) (fun _ => asleep_setWorker (by simp [hpc, WorkerPc.asleep]))
      fun _ _ hc => hc
  | workerTakes | workerGives | lockQueue | unlockQueue =>
    exact hs.mono (fun h => h) (fun _ => asleep_setWorker (by simp [WorkerPc.asleep]))
      fun _ _ hc => hc
  | pop ha hpc hq =>
    exact hs.mono (fun _ => by simp [hq]) (fun _ => asleep_setWorker (by simp [WorkerPc.asleep]))
      fun _ _ hc => hc
  | callerMove h =>
    exact hs.mono (fun h => h) (fun _ _ hw => hw) fun hne => willNotify_setCaller (h.willNotify hne)
  | @push c task hpc =>
    exact fun _ w _ => ⟨c, by simp [setCaller, CallerPc.willNotify]⟩
  | @callerTakes c k hpc =>
    refine hs.mono (fun h => h) (fun _ _ hw => hw) fun _ => willNotify_setCaller ?_
    cases k <;> simp [hpc, CallerPc.willNotify]
  | @notifyAll c k hpc =>
    intro _ w hsleep
    simp [hm.notified_asleep hpc w] at hsleep
  | spawn hpc =>
    refine hs.mono (fun h => h) (fun _ => ?_) fun _ => willNotify_setCaller ?_
    · exact asleep_setWorker (by simp [WorkerPc.asleep])
    · simp [hpc, CallerPc.willNotify]
  | callerGives hpc | setStarted hpc | setStopped hpc | setStopping hpc | join hpc | detach hpc =>
    refine hs.mono (fun h => h) (fun _ _ hw => hw) fun _ => willNotify_setCaller ?_
    simp [hpc, CallerPc.willNotify]
  | emptyDeque | notJoinable => exact hs

lemma reachable_mtxOk (h : poolSystem.Reachable s) : s.MtxOk :=
  effect_invariant
    (fun n p hp => by cases p <;> simp [holdsMtx, WorkerPc.holdsMtx, CallerPc.holdsMtx] at hp)
    (fun _ _ _ hs _ h => h.mtxOk hs) h

/-- **No sleep on queued work.**  While there is a task in the queue and some worker is blocked
un-notified, some `SchedulerTask` is between its push and the end of its notification. -/
theorem blocked_imp_notifying (h : poolSystem.Reachable s) (hne : s.tasks ≠ [])
    (hw : s.workers w = .blocked false) : ∃ c, (s.callers c).notifying = true := by
  have hs : s.MtxOk ∧ s.WakeupPending :=
    effect_invariant (I := fun s => s.MtxOk ∧ s.WakeupPending)
      (fun n => ⟨reachable_mtxOk (.init ⟨n, rfl⟩), by simp [WakeupPending]⟩)
      (fun _ _ _ hs _ h => ⟨h.mtxOk hs.1, h.wakeupPending hs.1 hs.2⟩) h
  obtain ⟨c, hc⟩ := hs.2 hne w (by simp [hw, WorkerPc.asleep])
  exact ⟨c, CallerPc.notifying_of_willNotify hc⟩

/-- A worker blocks on the empty queue, and a task is pushed while it does. -/
theorem blocked_imp_notifying_push :
    ∃ s, poolSystem.Reachable s ∧ s.tasks = [7] ∧ s.workers 0 = .blocked false ∧
      ∃ c, (s.callers c).notifying = true := by
  obtain ⟨s, hs, hp⟩ := exists_reachable_of_runUnder (G := fun _ _ => True) (M := poolSystem)
    (List.flatten [[.start 0], List.replicate 5 (.caller 0), List.replicate 3 (.worker 0),
      [.schedulerTask 1 7, .caller 1, .caller 1, .worker 0, .caller 1]])
    (fun s => s.tasks = [7] && s.workers 0 = .blocked false) ⟨1, rfl⟩ (by decide)
  simp only [Bool.and_eq_true, decide_eq_true_eq] at hp
  exact ⟨s, hs, hp.1, hp.2, blocked_imp_notifying hs (by simp [hp.1]) hp.2⟩

end ThreadPool

end CoroutineCpp
