import CoroutineCpp.Properties.PoolWakeup

/-!
# Stopping the thread pool

`Stop` sets `m_is_stopping` and then calls `NotifyCondition`, which it shares with `SchedulerTask`
and which notifies only where it finds a task.  On an empty queue the workers that sleep are not
notified, and nothing notifies them later: `SchedulerTask` accepts no more tasks.  A worker that
evaluates its predicate after the flag is set does not sleep, so these are the only ones.

`stop_wakes_iff` says exactly which runs wake every worker: those in which the test of `Stop` finds
a task or finds no worker asleep.
-/

namespace CoroutineCpp

open Framework TransitionSystem

/-- The caller is in a `Stop` that has set `m_is_stopping` and not notified yet. -/
def CallerPc.stopping : CallerPc → Bool
  | .notifyTest (.stop _) => true
  | .notifyAcquire (.stop _) => true
  | .notifyAll (.stop _) => true
  | _ => false

/-- The caller whose step it is. -/
def PoolAct.caller? : PoolAct → Option ℕ
  | .schedulerTask c _ => some c
  | .start c => some c
  | .stop c _ => some c
  | .caller c => some c
  | .worker _ => none
  | .spurious _ => none

namespace ThreadPool

variable {s s' : ThreadPool} {w c : ℕ}

/-! ## The steps of one caller -/

lemma workerStep_callers (h : s.workerStep w = some s') : s'.callers = s.callers := by
  unfold workerStep at h
  repeat' split at h
  all_goals cases h <;> rfl

lemma callerStep_callers (h : s.callerStep c = some s') :
    ∃ pc, s'.callers = Function.update s.callers c pc := by
  unfold callerStep at h
  repeat' split at h
  all_goals cases h <;> first
    | exact ⟨_, rfl⟩
    | exact ⟨_, (Function.update_eq_self c s.callers).symm⟩

/-- A step moves no caller but its own. -/
lemma step_callers_of_ne {a : PoolAct} (h : s.step a = some s') (hne : a.caller? ≠ some c) :
    s'.callers c = s.callers c := by
  obtain ⟨-, h⟩ := Option.ite_none_left_eq_some.mp h
  have hbegin : ∀ c' pc, some c' ≠ some c → s.begin c' pc = some s' →
      s'.callers c = s.callers c := by
    intro c' pc hne h
    obtain ⟨-, h⟩ := Option.ite_none_right_eq_some.mp h
    obtain rfl := Option.some.inj h
    exact Function.update_of_ne (by simpa using Ne.symm hne) _ _
  cases a with
  | schedulerTask c' task => exact hbegin c' _ hne h
  | start c' => exact hbegin c' _ hne h
  | stop c' join => exact hbegin c' _ hne h
  | caller c' =>
    obtain ⟨pc, hpc⟩ := callerStep_callers h
    rw [hpc]
    exact Function.update_of_ne (by simpa [PoolAct.caller?] using Ne.symm hne) _ _
  | worker w => rw [workerStep_callers h]
  | spurious w =>
    simp only at h
    split at h <;> try cases h
    rfl

/-! ## What stops a wakeup -/

/-- `Stop` has set `m_is_stopping` and is through with `NotifyCondition`. -/
def StopNotified (s : ThreadPool) : Prop :=
  s.isStopping = true ∧ ∀ c, (s.callers c).stopping = false

/-- Once `Stop` is through with `NotifyCondition`, no worker is blocked un-notified, and none is
about to block. -/
def StopWakes (s : ThreadPool) : Prop :=
  s.StopNotified → ∀ w, (s.workers w).asleep = false

/-- Where the step is the test of `Stop`, and no other `Stop` has its notification still ahead, it
finds a task or no worker asleep. -/
def StopFinds (s : ThreadPool) (a : PoolAct) : Prop :=
  ∀ c join, a = .caller c → s.callers c = .notifyTest (.stop join) →
    (∀ c', c' ≠ c → (s.callers c').stopping = false) →
    s.tasks ≠ [] ∨ ∀ w, (s.workers w).asleep = false

/-- A step that lets nobody fall asleep and after which `Stop` is through only if it was before. -/
lemma StopWakes.mono (h : s.StopWakes) (hstop : s'.isStopping = true → s.isStopping = true)
    (hc : ∀ c, (s.callers c).stopping = true → (s'.callers c).stopping = true)
    (hw : s.isStopping = true → ∀ w, (s'.workers w).asleep = true →
      (s.workers w).asleep = true) : s'.StopWakes := by
  rintro ⟨hst, hcallers⟩ w
  have hbefore : s.StopNotified := by
    refine ⟨hstop hst, fun c => ?_⟩
    rw [← Bool.not_eq_true]
    intro hc'
    simpa [hcallers c] using hc c hc'
  rw [← Bool.not_eq_true]
  intro hsleep
  simpa [h hbefore w] using hw (hstop hst) w hsleep

/-- While `Stop` has its notification ahead there is nothing to show. -/
lemma StopWakes.of_stopping (hc : (s.callers c).stopping = true) : s.StopWakes := by
  rintro ⟨-, hcallers⟩
  simp [hcallers c] at hc

lemma stopping_setCaller {pc : CallerPc} (h : (s.callers c).stopping = true → pc.stopping = true)
    (c' : ℕ) (hc : (s.callers c').stopping = true) :
    (Function.update s.callers c pc c').stopping = true := by
  by_cases heq : c' = c
  · subst heq
    simpa using h hc
  · simpa [heq] using hc

/-- No worker falls asleep once the flag is set. -/
lemma WorkerMove.asleep_of_stopping {pc pc' : WorkerPc} (h : WorkerMove s pc pc')
    (hst : s.isStopping = true) : pc'.asleep = true → pc.asleep = true := by
  cases h with
  | missed hnil hrun => simp [hst] at hrun
  | _ => simp [WorkerPc.asleep]

/-- A `Stop` leaves its notification behind only where it skips it. -/
lemma CallerMove.stopping {pc pc' : CallerPc} (h : CallerMove s pc pc') :
    (pc.stopping = true → pc'.stopping = true) ∨
      s.tasks = [] ∧ ∃ join, pc = .notifyTest (.stop join) ∧ pc' = afterNotify (.stop join) := by
  cases h with
  | @skip k hnil =>
    cases k with
    | schedulerTask => exact .inl (by simp [CallerPc.stopping])
    | stop join => exact .inr ⟨hnil, join, rfl, rfl⟩
  | @notify k => exact .inl (by cases k <;> simp [CallerPc.stopping])
  | _ => exact .inl (by simp [CallerPc.stopping])

/-- Every step keeps what `Stop` has woken awake, except where a `Stop` skips its notification. -/
lemma Effect.stopWakes {a : PoolAct} (h : Effect s a s') (hm : s.MtxOk) (hs : s.StopWakes) :
    s'.StopWakes ∨ s.tasks = [] ∧ ∃ c join, s.callers c = .notifyTest (.stop join) ∧
      s' = s.setCaller c (afterNotify (.stop join)) := by
  cases h with
  | workerMove h =>
    exact .inl (hs.mono (fun h => h) (fun _ hc => hc)
      fun hst => asleep_setWorker (h.asleep_of_stopping hst))
  | workerBlocks hpc =>
    exact .inl (hs.mono (fun h => h) (fun _ hc => hc)
      fun _ => asleep_setWorker (by simp [hpc, WorkerPc.asleep]))
  | workerTakes | workerGives | lockQueue | pop | unlockQueue =>
    exact .inl (hs.mono (fun h => h) (fun _ hc => hc)
      fun _ => asleep_setWorker (by simp [WorkerPc.asleep]))
  | @callerMove c pc h =>
    rcases h.stopping with hkeep | ⟨hnil, join, hpc, rfl⟩
    · exact .inl (hs.mono (fun h => h) (stopping_setCaller hkeep) fun _ _ hw => hw)
    · exact .inr ⟨hnil, c, join, hpc, rfl⟩
  | @callerTakes c k hpc =>
    refine .inl (hs.mono (fun h => h) (stopping_setCaller ?_) fun _ _ hw => hw)
    cases k <;> simp [hpc, CallerPc.stopping]
  | notifyAll hpc => exact .inl fun _ w => hm.notified_asleep hpc w
  | @setStopping c join hpc =>
    exact .inl (.of_stopping (c := c) (by simp [setCaller, CallerPc.stopping]))
  | spawn hpc =>
    refine .inl (hs.mono (fun h => h) (stopping_setCaller ?_) fun _ => ?_)
    · simp [hpc, CallerPc.stopping]
    · exact asleep_setWorker (by simp [WorkerPc.asleep])
  | push hpc | callerGives hpc | setStarted hpc | setStopped hpc | join hpc | detach hpc =>
    refine .inl (hs.mono (fun h => h) (stopping_setCaller ?_) fun _ _ hw => hw)
    simp [hpc, CallerPc.stopping]
  | emptyDeque | notJoinable => exact .inl hs

/-! ## Runs -/

lemma CallerMove.not_stopping {pc pc' : CallerPc} (h : CallerMove s pc pc') :
    pc'.stopping = true → pc.stopping = true := by
  cases h with
  | @skip k => rcases k with _ | _ | _ <;> simp [afterNotify, CallerPc.stopping]
  | @notify k => cases k <;> simp [CallerPc.stopping]
  | _ => simp [CallerPc.stopping]

/-- A `Stop` that has not notified yet has set the flag. -/
def FlagSet (s : ThreadPool) : Prop := ∀ c, (s.callers c).stopping = true → s.isStopping = true

lemma FlagSet.caller_step {pc : CallerPc} (h : s.FlagSet)
    (hc : s'.callers = Function.update s.callers c pc) (hst : s'.isStopping = s.isStopping)
    (hpc : pc.stopping = true → (s.callers c).stopping = true) : s'.FlagSet := by
  unfold FlagSet
  rw [hc, hst]
  exact (Function.forall_update_iff s.callers fun _ pc => pc.stopping = true →
    s.isStopping = true).mpr ⟨fun hpc' => h c (hpc hpc'), fun c' _ => h c'⟩

lemma Effect.flagSet {a : PoolAct} (h : Effect s a s') (hs : s.FlagSet) : s'.FlagSet := by
  cases h with
  | callerMove h => exact hs.caller_step rfl rfl h.not_stopping
  | @callerTakes c k hpc | @notifyAll c k hpc =>
    exact hs.caller_step rfl rfl (by cases k <;> simp [hpc, CallerPc.stopping])
  | @callerGives c k hpc =>
    exact hs.caller_step rfl rfl (by rcases k with _ | _ | _ <;>
      simp [afterNotify, CallerPc.stopping])
  | setStopping => exact fun _ _ => rfl
  | push | setStarted | setStopped | spawn | join | detach =>
    exact hs.caller_step rfl rfl (by simp [CallerPc.stopping])
  | workerMove | workerTakes | workerBlocks | workerGives | lockQueue | pop | unlockQueue
  | emptyDeque | notJoinable => exact hs

lemma reachable_flagSet (h : poolSystem.Reachable s) : s.FlagSet :=
  effect_invariant (fun _ c hc => by simp [CallerPc.stopping] at hc)
    (fun _ _ _ hs _ h => h.flagSet hs) h

/-- A step out of a state in which `Stop` has woken everybody keeps that exactly if the test of
`Stop` finds a task or no worker asleep. -/
lemma step_stopWakes_iff {a : PoolAct} (hm : s.MtxOk) (hflag : s.FlagSet) (hs : s.StopWakes)
    (h : s.step a = some s') : s'.StopWakes ↔ StopFinds s a := by
  constructor
  · intro hs' c join ha hpc hothers
    by_cases hnil : s.tasks = []
    · -- `Stop` skips its notification and is through
      right
      subst ha
      obtain ⟨-, h⟩ := Option.ite_none_left_eq_some.mp h
      simp only [callerStep, hpc] at h
      obtain ⟨-, h⟩ := Option.ite_none_right_eq_some.mp h
      obtain rfl := Option.some.inj h
      refine hs' ⟨hflag c (by simp [hpc, CallerPc.stopping]), ?_⟩
      refine (Function.forall_update_iff s.callers fun _ pc => pc.stopping = false).mpr
        ⟨?_, hothers⟩
      cases join <;> simp [hnil, afterNotify, CallerPc.stopping]
    · exact .inl hnil
  · intro hfinds
    rcases (step_effect h).stopWakes hm hs with hs' | ⟨hnil, c, join, hpc, rfl⟩
    · exact hs'
    · rintro ⟨-, hcallers⟩
      have hmoved : (s.setCaller c (afterNotify (.stop join))).callers c ≠ s.callers c := by
        cases join <;> simp [setCaller, hpc, afterNotify]
      -- only the step of the caller itself moves it, and it is not the begin of a call
      have hcaller : a.caller? = some c := by
        by_contra hne
        exact hmoved (step_callers_of_ne h hne)
      have ha : a = .caller c := by
        obtain ⟨-, h⟩ := Option.ite_none_left_eq_some.mp h
        cases a with
        | caller c' => simpa [PoolAct.caller?] using hcaller
        | schedulerTask c' task | start c' | stop c' join' =>
          obtain rfl : c' = c := by simpa [PoolAct.caller?] using hcaller
          obtain ⟨hidle, -⟩ := Option.ite_none_right_eq_some.mp h
          simp [hpc] at hidle
        | worker w | spurious w => simp [PoolAct.caller?] at hcaller
      refine (hfinds c join ha hpc fun c' hne => ?_).resolve_left (absurd hnil)
      simpa [setCaller, hne] using hcallers c'

/-- **When `Stop` wakes every worker.**  In a run it is true at all times that once `Stop` is
through with `NotifyCondition` no worker is blocked un-notified and none is about to block, exactly
if the test of `Stop` finds a task or no worker asleep. -/
theorem stop_wakes_iff {tr : List (ThreadPool × PoolAct)}
    (h : poolSystem.Exec (fun _ _ => True) tr s) :
    AlwaysState StopWakes tr s ↔ AlwaysStep StopFinds tr := by
  refine h.always_iff (fun s hs => ?_) fun s a s' hreach hs _ hstep => ?_
  · obtain ⟨n, rfl⟩ := hs
    exact fun _ w => rfl
  · exact step_stopWakes_iff (reachable_mtxOk hreach) (reachable_flagSet hreach) hs hstep

/-- A pool of one worker, which is asleep when a task is accepted and `Stop` is called. -/
theorem stop_wakes_iff_one_worker :
    ∃ tr s, poolSystem.Exec (fun _ _ => True) tr s ∧ s.callers 1 = .join 0 ∧
      s.workers 0 = .blocked true ∧ (AlwaysState StopWakes tr s ↔ AlwaysStep StopFinds tr) := by
  obtain ⟨s, hs, hp⟩ := exists_reachable_of_runUnder (G := fun _ _ => True) (M := poolSystem)
    (List.flatten [[.start 0], List.replicate 5 (.caller 0), List.replicate 4 (.worker 0),
      [.schedulerTask 0 7, .caller 0, .caller 0, .stop 1 true], List.replicate 6 (.caller 1)])
    (fun s => s.callers 1 = .join 0 && s.workers 0 = .blocked true) ⟨1, rfl⟩ (by decide)
  simp only [Bool.and_eq_true, decide_eq_true_eq] at hp
  obtain ⟨tr, htr⟩ := hs.exists_exec
  exact ⟨tr, s, htr, hp.1, hp.2, stop_wakes_iff htr⟩

/-- A pool of one worker, which is asleep beside an empty queue when `Stop(true)` is called: it is
not notified, and the caller waits for it in `join`. -/
theorem stop_leaves_asleep :
    ∃ s, poolSystem.Reachable s ∧ s.callers 0 = .join 0 ∧ s.joinable 0 = true ∧
      s.workers 0 = .blocked false ∧ ¬ s.StopWakes := by
  have hstuck : ((poolSystem.runUnder (fun _ _ => True) { threadCount := 1 }
      (List.flatten [[.start 0], List.replicate 5 (.caller 0), List.replicate 4 (.worker 0),
        [.stop 0 true], List.replicate 3 (.caller 0)])).map fun s =>
      s.callers 0 = .join 0 && s.joinable 0 && s.workers 0 = .blocked false && s.isStopping) =
      some true := by decide
  obtain ⟨s, hrun, hp⟩ := Option.map_eq_some_iff.mp hstuck
  simp only [Bool.and_eq_true, decide_eq_true_eq] at hp
  obtain ⟨⟨⟨hcaller, hjoinable⟩, hworker⟩, hst⟩ := hp
  have hreach : poolSystem.Reachable s := ReachableUnder.runUnder (.init ⟨1, rfl⟩) hrun
  refine ⟨s, hreach, hcaller, hjoinable, hworker, fun hs => ?_⟩
  have hsleep := hs ⟨hst, fun c => ?_⟩ 0
  · simp [hworker, WorkerPc.asleep] at hsleep
  · by_cases hc : c = 0
    · rw [hc, hcaller]
      rfl
    · have hview : s.callers c = .idle := by
        refine runUnder_view (fun s => s.callers c) (fun a ha _ _ hstep => ?_) hrun
        refine step_callers_of_ne hstep fun hcaller => ?_
        revert a
        simp [PoolAct.caller?, Ne.symm hc]
      rw [hview]
      rfl

end ThreadPool

end CoroutineCpp
