import CoroutineCpp.Properties.ProcessMoves

/-!
# An executor that goes to sleep

When a thread in `WaitForCondition` may be left asleep beside work.

* A task in the runnable queue is missed exactly where the `notify_all` of its `AddTask` falls
  between a false evaluation of `Predicate` and the block: `AddTask` does not hold `m_mtx`, so that
  it can (`runnable_watched_iff`).
* A task in the awoken queue is missed by every wakeup of a sleeping executor, since no wakeup ever
  notifies (`wakeup_silent`, `awoken_watched_iff`).
-/

namespace CoroutineCpp

open Framework TransitionSystem

/-- The thread sleeps and has not been notified, or has nothing left to do but to block. -/
def LoopPc.unnotified : LoopPc → Bool
  | .block => true
  | .blocked notified => !notified
  | _ => false

/-- The thread is in the wait. -/
def LoopPc.inWait : LoopPc → Bool
  | .evaluate _ => true
  | .block => true
  | .blocked _ => true
  | _ => false

/-- The caller is in `AddTask`, between the push and the end of its notification. -/
def ClientPc.adding : ClientPc → Bool
  | .readWaiting _ => true
  | .notify _ => true
  | _ => false

/-- The caller is in `WakeupFromEntry` or `WakeupAllTasks`. -/
def ClientPc.inWakeup : ClientPc → Bool
  | .eraseWaiting .. => true
  | .pushAwoken .. => true
  | .testWaiting => true
  | .frontWaiting => true
  | .pushFront _ => true
  | .popWaiting => true
  | _ => false

/-- The next step of the caller is the push of a wakeup onto the awoken queue. -/
def ClientPc.waking : ClientPc → Bool
  | .pushAwoken .. => true
  | .pushFront _ => true
  | _ => false

namespace LoopState

variable {s s' : LoopState} {a : LoopAct} {c : ℕ}

/-! ## `m_waiting` -/

/-- `m_waiting` is set while the thread is in the wait. -/
def WaitingSet (s : LoopState) : Prop := s.pc.inWait = true → s.ex.waiting = true

lemma ThreadMove.inWait {pc pc' : LoopPc} (h : ThreadMove s pc pc') (hpc' : pc'.inWait = true) :
    pc.inWait = true := by
  cases h <;> simp_all [LoopPc.inWait]

lemma inWait_notifyAll (pc : LoopPc) : (notifyAll pc).inWait = pc.inWait := by
  cases pc <;> rfl

lemma Effect.waitingSet (h : Effect s a s') (hs : s.WaitingSet) : s'.WaitingSet := by
  cases h with
  | threadMove h => exact fun hpc => hs (h.inWait hpc)
  | setWaiting => exact fun _ => rfl
  | notify => exact fun hpc => hs (by rwa [← inWait_notifyAll])
  | assign | enter | count | stamp | resumeOver | resume | counted | held | finished | thrown | gc |
    timedOut | leave | idleClean | holdPush | switchOut =>
    intro hpc
    simp [LoopPc.inWait] at hpc
  | _ => exact hs

lemma reachable_waitingSet (h : loopSystem.Reachable s) : s.WaitingSet :=
  effect_invariant (fun _ _ _ => rfl) (fun _ _ _ hs heff => heff.waitingSet hs) h

/-! ## The runnable queue -/

/-- Beside a non-empty runnable queue the thread does not sleep, or go to sleep, un-notified, unless
some `AddTask` has still to notify. -/
def RunnableWatched (s : LoopState) : Prop :=
  s.pc.unnotified = true → s.ex.runnableQueue ≠ [] → ∃ c, (s.clients c).adding = true

/-- No `AddTask` notifies between a false evaluation of `Predicate` and the block, unless the
runnable queue is empty or another `AddTask` has still to notify. -/
def NotifiesSleeper (s : LoopState) (a : LoopAct) : Prop :=
  ∀ c locked, a = .client c → s.clients c = .notify locked → s.pc = .block →
    s.ex.runnableQueue = [] ∨ ∃ c', c' ≠ c ∧ (s.clients c').adding = true

/-- The thread is not asleep afterwards. -/
lemma RunnableWatched.of_awake (h : s'.pc.unnotified = false) : s'.RunnableWatched := by
  intro hun
  simp [h] at hun

/-- A client moves on, and does not leave a notification undone. -/
lemma RunnableWatched.client {pc : ClientPc} (hs : s.RunnableWatched)
    (hclients : s'.clients = Function.update s.clients c pc) (hpc : s'.pc = s.pc)
    (hrun : s'.ex.runnableQueue = s.ex.runnableQueue)
    (hadd : s.pc.unnotified = true → (s.clients c).adding = true → pc.adding = true) :
    s'.RunnableWatched := by
  intro hun hne
  rw [hpc] at hun
  rw [hrun] at hne
  obtain ⟨c', hc'⟩ := hs hun hne
  refine ⟨c', ?_⟩
  rw [hclients]
  by_cases heq : c' = c
  · subst heq
    simpa using hadd hun hc'
  · simpa [heq] using hc'

lemma inWait_of_unnotified {pc : LoopPc} (h : pc.unnotified = true) : pc.inWait = true := by
  cases pc <;> simp_all [LoopPc.unnotified, LoopPc.inWait]

/-- Every effect but a notification keeps the runnable queue watched. -/
lemma Effect.runnableWatched (h : Effect s a s') (hw : s.WaitingSet) (hs : s.RunnableWatched)
    (hn : ∀ c locked, a = .client c → s.clients c ≠ .notify locked) : s'.RunnableWatched := by
  cases h with
  | enter | assign | count | stamp | resumeOver | resume | counted | held | finished | thrown | gc |
    setWaiting | timedOut | leave | idleClean | holdPush | switchOut => exact .of_awake rfl
  | @threadMove pc h =>
    generalize hpc : s.pc = pc₀ at h
    cases h with
    | missed hrun => exact fun _ hne => absurd hrun hne
    | sleep => exact fun _ => hs (by rw [hpc]; rfl)
    | _ => exact .of_awake rfl
  | @clientMove c pc h =>
    refine hs.client rfl rfl rfl fun hun hc => ?_
    generalize s.clients c = pc₀ at h hc
    cases h with
    | waits => rfl
    | awake hwait => simp [hw (inWait_of_unnotified hun)] at hwait
    | _ => simp [ClientPc.adding] at hc
  | @push c tk hpc =>
    exact fun _ _ => ⟨c, by simp [setClient, ClientPc.adding]⟩
  | @pushAll c tks hpc =>
    exact fun _ _ => ⟨c, by simp [setClient, ClientPc.adding]⟩
  | notify ha hpc => exact absurd hpc (hn _ _ ha)
  | unlock hpc => exact hs.client rfl rfl rfl fun _ hc => by simp [hpc, ClientPc.adding] at hc
  | erase hpc => exact hs.client rfl rfl rfl fun _ hc => by simp [hpc, ClientPc.adding] at hc
  | popWaiting hpc => exact hs.client rfl rfl rfl fun _ hc => by simp [hpc, ClientPc.adding] at hc
  | @wake c pc tk ha h =>
    refine hs.client rfl rfl rfl fun _ hc => ?_
    generalize s.clients c = pc₀ at h hc
    cases h <;> simp [ClientPc.adding] at hc
  | giveUp hq =>
    intro hun hne
    apply hs hun
    rw [hq]
    exact fun hnil => hne (List.append_eq_nil_iff.mp hnil).1
  | _ => exact hs

/-- A notification finds a blocked thread, and helps; or it comes before the block, and does not. -/
lemma notify_runnableWatched_iff {locked : Bool} (hpc : s.clients c = .notify locked) :
    RunnableWatched
        { s.setClient c (if locked then .unlock else .idle) with pc := notifyAll s.pc } ↔
      s.NotifiesSleeper (.client c) := by
  -- the client itself is through afterwards
  have hadd : ∀ c', (Function.update s.clients c (if locked then .unlock else .idle) c').adding =
      true ↔ c' ≠ c ∧ (s.clients c').adding = true := by
    intro c'
    by_cases heq : c' = c
    · subst heq
      cases locked <;> simp [ClientPc.adding]
    · simp [heq]
  constructor
  · rintro hs' c₁ _ hc₁ - hblock
    obtain rfl : c = c₁ := by simpa using hc₁
    refine or_iff_not_imp_left.mpr fun hne => ?_
    obtain ⟨c', hc'⟩ := hs' (by rw [hblock]; rfl) hne
    exact ⟨c', (hadd c').mp hc'⟩
  · intro hC hun hne
    have hblock : s.pc = .block := by
      cases hpc' : s.pc <;> simp_all [notifyAll, LoopPc.unnotified]
    obtain hnil | ⟨c', hc'⟩ := hC c locked rfl hpc hblock
    · exact absurd hnil hne
    · exact ⟨c', (hadd c').mpr hc'⟩

lemma step_runnableWatched_iff (hw : s.WaitingSet) (hs : s.RunnableWatched)
    (h : s.step a = some s') : s'.RunnableWatched ↔ s.NotifiesSleeper a := by
  by_cases hn : ∃ c locked, a = .client c ∧ s.clients c = .notify locked
  · obtain ⟨c, locked, rfl, hpc⟩ := hn
    have h := act_of_step h
    simp only [act, clientStep, hpc, Option.some.injEq] at h
    exact h ▸ notify_runnableWatched_iff hpc
  · push Not at hn
    exact ⟨fun _ c locked ha hpc => absurd hpc (hn c locked ha),
      fun _ => (step_effect h).runnableWatched hw hs hn⟩

/-- **When `AddTask` reaches a sleeping executor.**  In a run it is true at all times that beside a
non-empty runnable queue the thread does not sleep, or go to sleep, un-notified without an
`AddTask` that has still to notify, exactly if no last notification falls between a false
evaluation of `Predicate` and the block. -/
theorem runnable_watched_iff {tr : List (LoopState × LoopAct)}
    (h : loopSystem.Exec (fun _ _ => True) tr s) :
    (AlwaysState RunnableWatched tr s ↔ AlwaysStep NotifiesSleeper tr) ∧
      (AlwaysStep NotifiesSleeper tr → AlwaysState (fun s => ¬(s.pc = .blocked false ∧
        s.ex.runnableQueue ≠ [] ∧ ∀ c, (s.clients c).adding = false)) tr s) := by
  have hiff : AlwaysState RunnableWatched tr s ↔ AlwaysStep NotifiesSleeper tr := by
    refine h.always_iff ?_ fun s a s' hreach hs _ hstep => ?_
    · rintro s ⟨id, nowUs, rfl⟩
      exact .of_awake rfl
    · exact step_runnableWatched_iff (reachable_waitingSet hreach) hs hstep
  -- a thread that is blocked un-notified is a thread that sleeps
  have hblocked : ∀ s : LoopState, s.RunnableWatched → ¬(s.pc = .blocked false ∧
      s.ex.runnableQueue ≠ [] ∧ ∀ c, (s.clients c).adding = false) := by
    rintro s hs ⟨hpc, hne, hadd⟩
    obtain ⟨c, hc⟩ := hs (by rw [hpc]; rfl) hne
    simp [hadd c] at hc
  exact ⟨hiff, fun hC => (hiff.mpr hC).mono hblocked⟩

/-- An executor that sleeps before the task is added, and is notified. -/
theorem runnable_watched_iff_asleep :
    ∃ tr s, loopSystem.Exec (fun _ _ => True) tr s ∧ s.pc = .blocked true ∧
      s.ex.runnableQueue = [5] ∧
      (AlwaysState RunnableWatched tr s ↔ AlwaysStep NotifiesSleeper tr) := by
  obtain ⟨s, hs, hp⟩ := exists_reachable_of_runUnder (G := fun _ _ => True) (M := loopSystem)
    (List.flatten [[.process 0], List.replicate 5 (.thread 0), [.addTask 0 5],
      List.replicate 3 (.client 0)])
    (fun s => s.pc = .blocked true && s.ex.runnableQueue = [5]) ⟨0, 0, rfl⟩ (by decide)
  simp only [Bool.and_eq_true, decide_eq_true_eq] at hp
  obtain ⟨tr, htr⟩ := hs.exists_exec
  exact ⟨tr, s, htr, hp.1, hp.2, (runnable_watched_iff htr).1⟩

/-- The thread has evaluated `Predicate` and is about to block when a task is added: the
notification is lost, and the thread sleeps beside the task. -/
theorem addTask_missed :
    ∃ s, loopSystem.Reachable s ∧ s.timeoutMs = 0 ∧ s.pc = .blocked false ∧
      s.ex.runnableQueue = [5] ∧ ∀ c, s.clients c = .idle := by
  have hmissed : ((loopSystem.runUnder (fun _ _ => True) { ex := { id := 0 }, nowUs := 0 }
      (List.flatten [[.process 0], List.replicate 4 (.thread 0), [.addTask 0 5],
        List.replicate 3 (.client 0), [.thread 0]])).map fun s =>
      s.timeoutMs = 0 && s.pc = .blocked false && s.ex.runnableQueue = [5] &&
        s.clients 0 = .idle) = some true := by decide
  obtain ⟨s, hrun, hp⟩ := Option.map_eq_some_iff.mp hmissed
  simp only [Bool.and_eq_true, decide_eq_true_eq] at hp
  obtain ⟨⟨⟨htimeout, hpc⟩, hq⟩, hclient⟩ := hp
  refine ⟨s, .runUnder (.init ⟨0, 0, rfl⟩) hrun, htimeout, hpc, hq, fun c => ?_⟩
  by_cases hc : c = 0
  · rw [hc, hclient]
  · rw [run_clients_of_ne hrun (by simp [LoopAct.client?, Ne.symm hc])]

/-! ## The awoken queue -/

/-- The thread does not sleep, or go to sleep, un-notified beside a non-empty awoken queue. -/
def AwokenWatched (s : LoopState) : Prop :=
  s.pc.unnotified = true → s.ex.awokenQueue = []

/-- No wakeup moves a task into the awoken queue while the thread sleeps un-notified, or is about
to block. -/
def WakesAwake (s : LoopState) (a : LoopAct) : Prop :=
  ∀ c, a = .client c → (s.clients c).waking = true → s.pc.unnotified = false

/-- No step of a wakeup notifies: the thread stays where it is. -/
lemma wakeup_silent (h : s.clientStep c = some s') (hpc : (s.clients c).inWakeup = true) :
    s'.pc = s.pc ∧ ((s'.clients c).inWakeup = true ∨ s'.clients c = .idle ∨
      s'.fault = some .emptyDeque) := by
  unfold clientStep at h
  cases hc : s.clients c with
  | idle | push | pushAll | readWaiting | notify | unlock => simp [hc, ClientPc.inWakeup] at hpc
  | eraseWaiting tk kept =>
    simp only [hc] at h
    split at h <;> cases h <;> simp [setClient, ClientPc.inWakeup]
  | pushAwoken tk kept =>
    simp only [hc, Option.some.injEq] at h
    subst h
    simp [setClient]
  | testWaiting =>
    simp only [hc, Option.some.injEq] at h
    subst h
    refine ⟨rfl, ?_⟩
    split <;> simp [setClient, ClientPc.inWakeup]
  | frontWaiting =>
    simp only [hc] at h
    split at h <;> cases h <;> simp [setClient, fail, ClientPc.inWakeup]
  | pushFront tk =>
    simp only [hc, Option.some.injEq] at h
    subst h
    simp [setClient, ClientPc.inWakeup]
  | popWaiting =>
    simp only [hc] at h
    split at h <;> cases h <;> simp [setClient, fail, ClientPc.inWakeup]

/-- Every effect but the push of a wakeup keeps the awoken queue watched. -/
lemma Effect.awokenWatched (h : Effect s a s') (hs : s.AwokenWatched)
    (hn : ∀ c, a = .client c → (s.clients c).waking = false) : s'.AwokenWatched := by
  cases h with
  | enter | assign | count | stamp | resumeOver | resume | counted | held | finished | thrown | gc |
    setWaiting | timedOut | leave | idleClean | holdPush | switchOut =>
    intro hun
    simp [LoopPc.unnotified] at hun
  | @threadMove pc h =>
    generalize hpc : s.pc = pc₀ at h
    cases h with
    | missed _ hawoken => exact fun _ => hawoken
    | sleep => exact fun _ => hs (by rw [hpc]; rfl)
    | _ =>
      intro hun
      simp [LoopPc.unnotified] at hun
  | notify =>
    intro hun
    refine hs ?_
    cases hpc : s.pc <;> simp_all [notifyAll, LoopPc.unnotified]
  | @wake c pc tk ha h =>
    have hwaking := hn c ha
    generalize s.clients c = pc₀ at h hwaking
    cases h <;> simp [ClientPc.waking] at hwaking
  | _ => exact hs

lemma step_awokenWatched_iff (hs : s.AwokenWatched) (h : s.step a = some s') :
    s'.AwokenWatched ↔ s.WakesAwake a := by
  by_cases hn : ∃ c, a = .client c ∧ (s.clients c).waking = true
  · obtain ⟨c, rfl, hpc⟩ := hn
    have hiff : s.WakesAwake (.client c) ↔ s.pc.unnotified = false :=
      ⟨fun hC => hC c rfl hpc, fun hun _ _ _ => hun⟩
    have hpush : s'.pc = s.pc ∧ s'.ex.awokenQueue ≠ [] := by
      have h := act_of_step h
      unfold act clientStep at h
      cases hc : s.clients c <;> simp_all [ClientPc.waking] <;> subst h <;>
        simp [setClient, ThreadSafeDeque.pushBack]
    rw [hiff, AwokenWatched, hpush.1]
    simp [hpush.2]
  · push Not at hn
    exact ⟨fun _ c ha hpc => absurd hpc (hn c ha),
      fun _ => (step_effect h).awokenWatched hs fun c ha => by simpa using hn c ha⟩

/-- **When a wakeup reaches a sleeping executor.**  In a run it is true at all times that the thread
does not sleep, or go to sleep, un-notified beside a non-empty awoken queue, exactly if no wakeup
moves a task into that queue meanwhile. -/
theorem awoken_watched_iff {tr : List (LoopState × LoopAct)}
    (h : loopSystem.Exec (fun _ _ => True) tr s) :
    (AlwaysState AwokenWatched tr s ↔ AlwaysStep WakesAwake tr) ∧
      (AlwaysStep WakesAwake tr → AlwaysState (fun s => ¬(s.pc = .blocked false ∧
        s.ex.awokenQueue ≠ [] ∧ ∀ c, (s.clients c).inWakeup = false)) tr s) := by
  have hiff : AlwaysState AwokenWatched tr s ↔ AlwaysStep WakesAwake tr := by
    refine h.always_iff ?_ fun s a s' _ hs _ hstep => step_awokenWatched_iff hs hstep
    rintro s ⟨id, nowUs, rfl⟩ -
    rfl
  have hblocked : ∀ s : LoopState, s.AwokenWatched → ¬(s.pc = .blocked false ∧
      s.ex.awokenQueue ≠ [] ∧ ∀ c, (s.clients c).inWakeup = false) :=
    fun s hs ⟨hpc, hne, _⟩ => hne (hs (by rw [hpc]; rfl))
  exact ⟨hiff, fun hC => (hiff.mpr hC).mono hblocked⟩

/-- A task that is held and woken before the thread goes to wait. -/
theorem awoken_watched_iff_awake :
    ∃ tr s, loopSystem.Exec (fun _ _ => True) tr s ∧ s.pc = .test ∧ s.ex.awokenQueue = [1] ∧
      (AlwaysState AwokenWatched tr s ↔ AlwaysStep WakesAwake tr) := by
  obtain ⟨s, hs, hp⟩ := exists_reachable_of_runUnder (G := fun _ _ => True) (M := loopSystem)
    (List.flatten [[.addTask 0 1], List.replicate 3 (.client 0), [.process 0],
      List.replicate 6 (.thread 0),
      [.holdPush, .wakeupFromEntry 1 1 false, .client 1, .holdSwitch, .client 1],
      List.replicate 3 (.thread 0)])
    (fun s => s.pc = .test && s.ex.awokenQueue = [1]) ⟨0, 0, rfl⟩ (by decide)
  simp only [Bool.and_eq_true, decide_eq_true_eq] at hp
  obtain ⟨tr, htr⟩ := hs.exists_exec
  exact ⟨tr, s, htr, hp.1, hp.2, (awoken_watched_iff htr).1⟩

/-- A task is held, the thread goes to sleep, and `WakeupFromEntry` is called: the task is awoken
and nobody notifies the thread. -/
theorem wakeup_missed :
    ∃ s, loopSystem.Reachable s ∧ s.timeoutMs = 0 ∧ s.pc = .blocked false ∧
      s.ex.awokenQueue = [1] ∧ ∀ c, s.clients c = .idle := by
  have hmissed : ((loopSystem.runUnder (fun _ _ => True) { ex := { id := 0 }, nowUs := 0 }
      (List.flatten [[.addTask 0 1], List.replicate 3 (.client 0), [.process 0],
        List.replicate 6 (.thread 0), [.holdPush, .holdSwitch], List.replicate 8 (.thread 0),
        [.wakeupFromEntry 0 1 false, .client 0, .client 0]])).map fun s =>
      s.timeoutMs = 0 && s.pc = .blocked false && s.ex.awokenQueue = [1] &&
        s.clients 0 = .idle) = some true := by decide
  obtain ⟨s, hrun, hp⟩ := Option.map_eq_some_iff.mp hmissed
  simp only [Bool.and_eq_true, decide_eq_true_eq] at hp
  obtain ⟨⟨⟨htimeout, hpc⟩, hq⟩, hclient⟩ := hp
  refine ⟨s, .runUnder (.init ⟨0, 0, rfl⟩) hrun, htimeout, hpc, hq, fun c => ?_⟩
  by_cases hc : c = 0
  · rw [hc, hclient]
  · rw [run_clients_of_ne hrun (by simp [LoopAct.client?, Ne.symm hc])]

end LoopState

end CoroutineCpp
