import CoroutineCpp.Properties.PoolProgress
import CoroutineCpp.Properties.PoolStop

/-!
# The thread pool is quiet after `Stop(true)`

`WaitForTaskDone` goes over the threads and joins those that are joinable.  In a program that never
detaches them, a thread that is not joinable has been joined (`Joins.joined`), so behind the loop
every worker there is has returned; what `Start` may still create finds the pool stopping and
returns at once.  `Quiet` is what holds from then on.
-/

namespace CoroutineCpp

open Framework TransitionSystem

/-- The caller is in a `Stop` that has set `m_is_stopping`. -/
def CallerPc.pastFlag : CallerPc → Bool
  | .notifyTest (.stop _) | .notifyAcquire (.stop _) | .notifyAll (.stop _)
  | .notifyRelease (.stop _) | .join _ | .detach _ => true
  | _ => false

/-- The worker has returned, or has not begun to look at the queue. -/
def WorkerPc.quiet : WorkerPc → Bool
  | .unborn | .loop | .done => true
  | _ => false

namespace ThreadPool

variable {s s' : ThreadPool} {a : PoolAct} {w c : ℕ}

/-- The step is one of `DetachAllThreads`. -/
def detaches (s : ThreadPool) : PoolAct → Bool
  | .caller c =>
    match s.callers c with
    | .detach _ => true
    | _ => false
  | _ => false

/-- No thread is detached. -/
def Joinable (s : ThreadPool) (a : PoolAct) : Prop := s.detaches a = false

instance (s : ThreadPool) (a : PoolAct) : Decidable (Joinable s a) :=
  inferInstanceAs (Decidable (_ = _))

/-! ## Quiet pools -/

/-- The pool is stopping, and no worker has a task or will look for one. -/
structure Quiet (s : ThreadPool) : Prop where
  isStopping : s.isStopping = true
  worker : ∀ w, (s.workers w).quiet = true

lemma Quiet.worker_ne {pc : WorkerPc} (h : s.Quiet) (hpc : pc.quiet = false) :
    s.workers w ≠ pc := by
  intro heq
  have hquiet := h.worker w
  rw [heq, hpc] at hquiet
  cases hquiet

/-- A quiet pool stays quiet and takes no task. -/
lemma Effect.quiet (h : Effect s a s') (hs : s.Quiet) : s'.Quiet ∧ s'.taken = s.taken := by
  cases h with
  | @workerMove w pc h =>
    refine ⟨⟨hs.isStopping, fun w' => ?_⟩, rfl⟩
    have hquiet := hs.worker w
    have hpc : pc.quiet = true := by
      generalize s.workers w = pc' at h hquiet
      cases h with
      | enter _ hrun => simp [hs.isStopping] at hrun
      | leave => rfl
      | _ => cases hquiet
    by_cases heq : w' = w
    · simpa [setWorker, heq] using hpc
    · simpa [setWorker, heq] using hs.worker w'
  | workerTakes hpc | workerBlocks hpc | workerGives hpc | lockQueue hpc | unlockQueue hpc =>
    exact absurd hpc (hs.worker_ne rfl)
  | pop _ hpc => exact absurd hpc (hs.worker_ne rfl)
  | notifyAll =>
    refine ⟨⟨hs.isStopping, fun w => ?_⟩, rfl⟩
    have hquiet := hs.worker w
    show (notified (s.workers w)).quiet = true
    cases hpc : s.workers w <;> rw [hpc] at hquiet <;> exact hquiet
  | spawn =>
    refine ⟨⟨hs.isStopping, fun w => ?_⟩, rfl⟩
    by_cases heq : w = s.threads
    · simp [setWorker, setCaller, heq, WorkerPc.quiet]
    · simpa [setWorker, setCaller, heq] using hs.worker w
  | setStopping => exact ⟨⟨rfl, hs.worker⟩, rfl⟩
  | _ => exact ⟨⟨hs.isStopping, hs.worker⟩, rfl⟩

/-! ## What a joining caller knows -/

/-- The invariant of the runs in which no thread is detached. -/
structure Joins (s : ThreadPool) : Prop where
  /-- A thread that is not joinable has been joined. -/
  joined : ∀ w, w < s.threads → s.joinable w = false → s.workers w = .done
  /-- Behind the store of `m_is_stopping` the flag is set. -/
  flag : ∀ c, (s.callers c).pastFlag = true → s.isStopping = true
  /-- The threads that `WaitForTaskDone` has behind it have returned. -/
  behind : ∀ c i, s.callers c = .join i → i ≤ s.threads ∧ ∀ w < i, s.workers w = .done

/-- A worker that has returned stays where it is, and the workers do not touch the threads. -/
lemma workerStep_frame (h : s.workerStep w = some s') :
    (∀ w', s.workers w' = .done → s'.workers w' = .done) ∧ s'.callers = s.callers ∧
      s'.threads = s.threads ∧ s'.joinable = s.joinable ∧ s'.isStopping = s.isStopping := by
  have hkeep : ∀ pc, s.workers w ≠ .done → ∀ w', s.workers w' = .done →
      Function.update s.workers w pc w' = .done := by
    intro pc hne w' hdone
    have hne' : w' ≠ w := by
      rintro rfl
      exact hne hdone
    rwa [Function.update_of_ne hne']
  unfold workerStep at h
  cases hpc : s.workers w with
  | unborn | done => simp [hpc] at h
  | _ =>
    simp only [hpc] at h
    repeat' split at h
    all_goals cases h
    all_goals first
      | exact ⟨hkeep _ (by simp [hpc]), rfl, rfl, rfl, rfl⟩
      | exact ⟨fun _ h => h, rfl, rfl, rfl, rfl⟩

lemma Joins.of_frame (h : s.Joins) (hw : ∀ w', s.workers w' = .done → s'.workers w' = .done)
    (hc : s'.callers = s.callers) (ht : s'.threads = s.threads) (hj : s'.joinable = s.joinable)
    (hst : s'.isStopping = s.isStopping) : s'.Joins where
  joined w hlt hjoin := hw w (h.joined w (ht ▸ hlt) (hj ▸ hjoin))
  flag c hc' := by
    rw [hst]
    exact h.flag c (hc ▸ hc')
  behind c i hc' := by
    obtain ⟨hle, hdone⟩ := h.behind c i (hc ▸ hc')
    exact ⟨ht ▸ hle, fun w hlt => hw w (hdone w hlt)⟩

/-- A caller moves on; it joins at most a worker that has returned. -/
lemma Joins.caller {pc : CallerPc} (h : s.Joins)
    (hc : s'.callers = Function.update s.callers c pc) (ht : s'.threads = s.threads)
    (hw : ∀ w', s.workers w' = .done → s'.workers w' = .done)
    (hj : ∀ w, s'.joinable w = false → s.joinable w = false ∨ s.workers w = .done)
    (hst : s.isStopping = true → s'.isStopping = true)
    (hflag : pc.pastFlag = true → (s.callers c).pastFlag = true ∨ s'.isStopping = true)
    (hbehind : ∀ i, pc = .join i → i ≤ s.threads ∧ ∀ w < i, s.workers w = .done) :
    s'.Joins where
  joined w hlt hjoin := by
    rcases hj w hjoin with hold | hdone
    · exact hw w (h.joined w (ht ▸ hlt) hold)
    · exact hw w hdone
  flag c' hc' := by
    by_cases heq : c' = c
    · subst heq
      rcases hflag (by simpa [hc] using hc') with hold | hnew
      · exact hst (h.flag _ hold)
      · exact hnew
    · exact hst (h.flag c' (by simpa [hc, heq] using hc'))
  behind c' i hc' := by
    have hdone : i ≤ s.threads ∧ ∀ w < i, s.workers w = .done := by
      by_cases heq : c' = c
      · subst heq
        exact hbehind i (by simpa [hc] using hc')
      · exact h.behind c' i (by simpa [hc, heq] using hc')
    exact ⟨ht ▸ hdone.1, fun w hlt => hw w (hdone.2 w hlt)⟩

/-- A caller that neither joins nor detaches. -/
lemma Joins.caller_other {pc : CallerPc} (h : s.Joins)
    (hc : s'.callers = Function.update s.callers c pc) (ht : s'.threads = s.threads)
    (hw : s'.workers = s.workers) (hj : s'.joinable = s.joinable)
    (hst : s.isStopping = true → s'.isStopping = true)
    (hflag : pc.pastFlag = true → (s.callers c).pastFlag = true ∨ s'.isStopping = true)
    (hjoin : ∀ i, pc = .join i → i = 0) : s'.Joins := by
  refine h.caller hc ht (fun w' hdone => hw ▸ hdone) (fun w' hw' => .inl (hj ▸ hw')) hst hflag ?_
  intro i hi
  obtain rfl := hjoin i hi
  exact ⟨Nat.zero_le _, by simp⟩

lemma afterNotify_join {k : Notifier} {i : ℕ} (h : afterNotify k = .join i) : i = 0 := by
  rcases k with _ | _ | _ <;> cases h
  rfl

lemma afterNotify_pastFlag {k : Notifier} (h : (afterNotify k).pastFlag = true) :
    (CallerPc.notifyTest k).pastFlag = true := by
  rcases k with _ | _ | _ <;> exact h

/-- A step of `WaitForTaskDone`: the thread it leaves behind has returned. -/
lemma Joins.join_step {i : ℕ} (hs : s.Joins) (hpc : s.callers c = .join i)
    (h : s.callerStep c = some s') : s'.Joins := by
  obtain ⟨hle, hdone⟩ := hs.behind c i hpc
  have hnext : ∀ j, i < s.threads → s.workers i = .done → CallerPc.join (i + 1) = .join j →
      j ≤ s.threads ∧ ∀ w < j, s.workers w = .done := by
    rintro j hlt hret ⟨⟩
    refine ⟨hlt, fun w hw => ?_⟩
    rcases Nat.lt_succ_iff_lt_or_eq.mp hw with hw | rfl
    · exact hdone w hw
    · exact hret
  simp only [callerStep, hpc] at h
  split_ifs at h with hend hjoin hret
  · obtain rfl := Option.some.inj h
    exact hs.caller_other (c := c) rfl rfl rfl rfl (fun h => h) (by simp [CallerPc.pastFlag])
      (by simp)
  · obtain rfl := Option.some.inj h
    have hret := hs.joined i (Nat.lt_of_not_le hend) (by simpa using hjoin)
    exact hs.caller (c := c) rfl rfl (fun _ h => h) (fun _ h => .inl h) (fun h => h)
      (by simp [hpc, CallerPc.pastFlag]) fun j => hnext j (Nat.lt_of_not_le hend) hret
  · obtain rfl := Option.some.inj h
    refine hs.caller (c := c) rfl rfl (fun _ h => h) (fun w hw => ?_) (fun h => h)
      (by simp [hpc, CallerPc.pastFlag]) fun j => hnext j (Nat.lt_of_not_le hend) hret
    by_cases heq : w = i
    · exact .inr (heq ▸ hret)
    · exact .inl (by simpa [heq] using hw)

/-- The threads `Start` creates can be joined. -/
lemma Joins.spawn {left : ℕ} (hs : s.Joins) :
    Joins { (s.setCaller c (.spawn left)).setWorker s.threads .loop with
      threads := s.threads + 1, joinable := Function.update s.joinable s.threads true } where
  joined w hlt hw := by
    have hne : w ≠ s.threads := by
      rintro rfl
      simp at hw
    simp only [setWorker, setCaller, Function.update_of_ne hne] at hw ⊢
    exact hs.joined w (by simp at hlt; omega) hw
  flag c' hc' := by
    by_cases heq : c' = c
    · simp [setWorker, setCaller, heq, CallerPc.pastFlag] at hc'
    · exact hs.flag c' (by simpa [setWorker, setCaller, heq] using hc')
  behind c' i hc' := by
    by_cases heq : c' = c
    · simp [setWorker, setCaller, heq] at hc'
    · obtain ⟨hle, hdone⟩ := hs.behind c' i (by simpa [setWorker, setCaller, heq] using hc')
      refine ⟨Nat.le_succ_of_le hle, fun w hw => ?_⟩
      have hne : w ≠ s.threads := Nat.ne_of_lt (Nat.lt_of_lt_of_le hw hle)
      simpa [setWorker, setCaller, hne] using hdone w hw

lemma Joins.callerStep (hs : s.Joins) (hG : Joinable s (.caller c))
    (h : s.callerStep c = some s') : s'.Joins := by
  obtain ⟨pc, hpc⟩ : ∃ pc, s.callers c = pc := ⟨_, rfl⟩
  cases pc with
  | join i => exact hs.join_step hpc h
  | detach i => simp [Joinable, detaches, hpc] at hG
  | idle => simp [ThreadPool.callerStep, hpc] at h
  | notifyAll k =>
    simp only [ThreadPool.callerStep, hpc, Option.some.injEq] at h
    subst h
    refine hs.caller (c := c) rfl rfl (fun w hw => ?_) (fun _ h => .inl h) (fun h => h) ?_ (by simp)
    · exact (notified_eq_iff (by simp)).mpr hw
    · cases k <;> simp [hpc, CallerPc.pastFlag]
  | spawn left =>
    cases left with
    | zero =>
      simp only [ThreadPool.callerStep, hpc, Option.some.injEq] at h
      subst h
      exact hs.caller_other (c := c) rfl rfl rfl rfl (fun h => h) (by simp [CallerPc.pastFlag])
        (by simp)
    | succ left =>
      simp only [ThreadPool.callerStep, hpc, Option.some.injEq] at h
      subst h
      exact hs.spawn
  | stopSet join =>
    simp only [ThreadPool.callerStep, hpc, Option.some.injEq] at h
    subst h
    exact hs.caller_other (c := c) rfl rfl rfl rfl (fun _ => rfl) (fun _ => .inr rfl) (by simp)
  | notifyTest k =>
    simp only [ThreadPool.callerStep, hpc] at h
    obtain ⟨-, h⟩ := Option.ite_none_right_eq_some.mp h
    obtain rfl := Option.some.inj h
    split
    · exact hs.caller_other (c := c) rfl rfl rfl rfl (fun h => h)
        (fun h => .inl (hpc ▸ afterNotify_pastFlag h)) fun _ => afterNotify_join
    · refine hs.caller_other (c := c) rfl rfl rfl rfl (fun h => h) ?_ (by simp)
      cases k <;> simp [hpc, CallerPc.pastFlag]
  | notifyAcquire k =>
    simp only [ThreadPool.callerStep, hpc] at h
    obtain ⟨-, h⟩ := Option.ite_none_right_eq_some.mp h
    obtain rfl := Option.some.inj h
    refine hs.caller_other (c := c) rfl rfl rfl rfl (fun h => h) ?_ (by simp)
    cases k <;> simp [hpc, CallerPc.pastFlag]
  | notifyRelease k =>
    simp only [ThreadPool.callerStep, hpc, Option.some.injEq] at h
    subst h
    refine hs.caller_other (c := c) rfl rfl rfl rfl (fun h => h) (fun h => .inl ?_)
      fun _ => afterNotify_join
    rw [hpc]
    cases k <;> exact afterNotify_pastFlag h
  | push task =>
    simp only [ThreadPool.callerStep, hpc] at h
    obtain ⟨-, h⟩ := Option.ite_none_right_eq_some.mp h
    obtain rfl := Option.some.inj h
    exact hs.caller_other (c := c) rfl rfl rfl rfl (fun h => h) (by simp [CallerPc.pastFlag])
      (by simp)
  | schedulerTest | startTest | stopTest =>
    simp only [ThreadPool.callerStep, hpc, Option.some.injEq] at h
    subst h
    refine hs.caller_other (c := c) rfl rfl rfl rfl (fun h => h) ?_ ?_ <;>
      split <;> simp [CallerPc.pastFlag]
  | startSetStarted | startSetStopped =>
    simp only [ThreadPool.callerStep, hpc, Option.some.injEq] at h
    subst h
    exact hs.caller_other (c := c) rfl rfl rfl rfl (fun h => h) (by simp [CallerPc.pastFlag])
      (by simp)

lemma Joins.step (hs : s.Joins) (hG : Joinable s a) (h : s.step a = some s') : s'.Joins := by
  obtain ⟨-, h⟩ := Option.ite_none_left_eq_some.mp h
  have hbegin : ∀ c pc, pc.pastFlag = false → s.begin c pc = some s' → s'.Joins := by
    intro c pc hpc h
    obtain ⟨-, h⟩ := Option.ite_none_right_eq_some.mp h
    obtain rfl := Option.some.inj h
    refine hs.caller_other (c := c) rfl rfl rfl rfl (fun h => h) (by simp [hpc]) ?_
    rintro i rfl
    cases hpc
  cases a with
  | schedulerTask c task | start c | stop c join => exact hbegin c _ rfl h
  | caller c => exact hs.callerStep hG h
  | worker w =>
    obtain ⟨hw, hc, ht, hj, hst⟩ := workerStep_frame h
    exact hs.of_frame hw hc ht hj hst
  | spurious w =>
    simp only at h
    split at h
    next hpc =>
      obtain rfl := Option.some.inj h
      refine hs.of_frame (fun w' hw' => ?_) rfl rfl rfl rfl
      have hne : w' ≠ w := by
        rintro rfl
        simp [hpc] at hw'
      simpa [setWorker, hne] using hw'
    next => cases h

lemma reachable_joins (h : poolSystem.ReachableUnder Joinable s) : s.Joins := by
  refine h.invariant (I := Joins) ?_ fun _ _ _ _ hs hG h => hs.step hG h
  rintro s ⟨n, rfl⟩
  exact ⟨fun _ h => absurd h (Nat.not_lt_zero _), by simp [CallerPc.pastFlag], by simp⟩

/-! ## Behind the loop of `WaitForTaskDone` -/

/-- The last caller to join has every worker behind it. -/
lemma Joins.quiet {i : ℕ} (hs : s.Joins) (hp : s.Placed) (hc : s.callers c = .join i)
    (hend : s.threads ≤ i) : s.Quiet where
  isStopping := hs.flag c (by simp [hc, CallerPc.pastFlag])
  worker w := by
    by_cases hw : w < s.threads
    · rw [(hs.behind c i hc).2 w (Nat.lt_of_lt_of_le hw hend)]
      rfl
    · rw [hp.unborn w (Nat.le_of_not_lt hw)]
      rfl

/-- **The pool is quiet once `Stop(true)` has joined its threads.**  Where no thread has been
detached, a `Stop` that has gone through the threads there are leaves a pool in which, whatever the
threads do later (`Start` and `SchedulerTask` included), no worker has a task or looks for one, and
no task is taken. -/
theorem joined_quiet {i : ℕ} (h : poolSystem.ReachableUnder Joinable s)
    (hc : s.callers c = .join i) (hend : s.threads ≤ i)
    (h' : (poolSystem.startAt s).Reachable s') :
    s'.Quiet ∧ s'.taken = s.taken := by
  have hplaced := reachable_placed (h.weaken fun _ _ _ => trivial)
  have hquiet := (reachable_joins h).quiet hplaced hc hend
  refine h'.invariant_startAt (I := fun s' => s'.Quiet ∧ s'.taken = s.taken) ⟨hquiet, rfl⟩ ?_
  rintro s₁ a s₂ - ⟨hq, htaken⟩ - hstep
  obtain ⟨hq', htaken'⟩ := (step_effect hstep).quiet hq
  exact ⟨hq', htaken'.trans htaken⟩

/-- The worker runs its task, finds the pool stopping and returns, and `Stop(true)` joins it. -/
theorem joined_quiet_one_worker :
    ∃ s, poolSystem.ReachableUnder Joinable s ∧ s.callers 0 = .join 1 ∧ s.taken = [7] ∧
      ∀ s', (poolSystem.startAt s).Reachable s' → s'.Quiet ∧ s'.taken = s.taken := by
  obtain ⟨s, hs, hp⟩ := exists_reachable_of_runUnder (G := Joinable) (M := poolSystem)
    (List.flatten [[.start 0], List.replicate 5 (.caller 0), [.schedulerTask 1 7],
      List.replicate 6 (.caller 1), List.replicate 10 (.worker 0), [.stop 0 true],
      List.replicate 3 (.caller 0), [.worker 0], List.replicate 1 (.caller 0)])
    (fun s => s.callers 0 = .join 1 && s.threads = 1 && s.taken = [7])
    ⟨1, rfl⟩ (by decide)
  simp only [Bool.and_eq_true, decide_eq_true_eq] at hp
  obtain ⟨⟨hc, hthreads⟩, htaken⟩ := hp
  exact ⟨s, hs, hc, htaken, fun s' h' => joined_quiet hs hc (by simp [hthreads]) h'⟩

end ThreadPool

end CoroutineCpp
