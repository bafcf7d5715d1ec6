import CoroutineCpp.Framework.Progress
import CoroutineCpp.Properties.ProcessWays

/-!
# An executor that is told to stop

`CoScheduler::Stop` sets `m_is_stopping` and does nothing else to the executor, at any point of
`Process`.  From then on the thread runs at most the task it is about to run (`resumesLeft`), and
each of its moves brings it nearer to the end of `Process` (`movesLeft`), whatever the other threads
do.  It need not be woken for that: an executor with a time-out leaves `Process` without help
(`stopped_leaves`).
-/

namespace CoroutineCpp

open Framework TransitionSystem

/-! ## How far the thread is from the end of `Process` -/

/-- The calls of `Resume` the thread still makes once the executor is told to stop. -/
def LoopPc.resumesLeft : LoopPc → ℕ
  | .choose | .assign _ | .count | .stamp | .resume => 1
  | _ => 0

/-- The moves the thread still makes once the executor is told to stop. -/
def LoopPc.movesLeft : LoopPc → ℕ
  | .outside => 0
  | .test => 1
  | .idleClean => 2
  | .leave => 3
  | .evaluate _ => 4
  | .blocked _ => 5
  | .block => 6
  | .setWaiting => 5
  | .gcTest => 2
  | .settle => 3
  | .counted => 4
  | .holding => 5
  | .inside => 6
  | .resume => 7
  | .stamp => 8
  | .count => 9
  | .assign _ => 10
  | .choose => 11

lemma LoopPc.movesLeft_le (pc : LoopPc) : pc.movesLeft ≤ 11 := by
  cases pc <;> simp [LoopPc.movesLeft]

lemma LoopPc.movesLeft_eq_zero_iff {pc : LoopPc} : pc.movesLeft = 0 ↔ pc = .outside := by
  cases pc <;> simp [LoopPc.movesLeft]

namespace LoopState

variable {s s' s₀ : LoopState} {a : LoopAct} {tr : List (LoopState × LoopAct)}

/-- The moves that are left; a fault is the end too. -/
def movesLeft (s : LoopState) : ℕ := if s.fault.isSome then 0 else s.pc.movesLeft

lemma movesLeft_le_pc (s : LoopState) : s.movesLeft ≤ s.pc.movesLeft := by
  unfold movesLeft
  split
  · exact Nat.zero_le _
  · exact Nat.le_refl _

lemma movesLeft_eq_pc (h : s.fault = none) : s.movesLeft = s.pc.movesLeft := by
  simp [movesLeft, h]

/-! ## One step of an executor that is told to stop -/

lemma Effect.isStopping (h : Effect s a s') (hst : s.ex.isStopping = true) :
    s'.ex.isStopping = true := by
  cases h with
  | assign _ h => cases h <;> exact hst
  | timedOut | stop => rfl
  | _ => exact hst

/-- Told to stop, the thread resumes no task but the one it has gone to fetch. -/
lemma Effect.resumesLeft (h : Effect s a s') (hst : s.ex.isStopping = true) :
    s'.resumes.length + s'.pc.resumesLeft ≤ s.resumes.length + s.pc.resumesLeft := by
  cases h with
  | threadMove h =>
    generalize s.pc = pc at h ⊢
    cases h with
    | go hgo => simp [hst] at hgo
    | _ => simp [LoopPc.resumesLeft]
  | notify =>
    have hsame : (notifyAll s.pc).resumesLeft = s.pc.resumesLeft := by
      cases s.pc <;> rfl
    simp [setClient, hsame]
  | switchOut hpc => rcases hpc with hpc | hpc <;> simp [hpc, LoopPc.resumesLeft]
  | clientMove | push | pushAll | unlock | erase | wake | popWaiting | giveUp | stop | isBlocking |
    readClock | readTick | readSwitchCnt | readSwitchedCnt | elapse | fault => exact Nat.le_refl _
  | enter _ hpc | assign hpc | count _ hpc | stamp _ hpc | resumeOver hpc | resume hpc
  | counted hpc | held hpc | finished hpc | thrown _ hpc | gc _ hpc | setWaiting hpc
  | timedOut hpc | leave hpc | idleClean hpc | holdPush hpc => simp [hpc, LoopPc.resumesLeft]

lemma movesLeft_lt (h : s'.pc.movesLeft < s.pc.movesLeft) : s'.movesLeft < s.pc.movesLeft :=
  Nat.lt_of_le_of_lt s'.movesLeft_le_pc h

/-- Told to stop, the thread comes nearer to the end of `Process` on each of its ways. -/
lemma Goes.movesLeft_lt {pc pc' : LoopPc} (hst : s.ex.isStopping = true) (h : Goes s pc pc') :
    pc'.movesLeft < pc.movesLeft := by
  cases h with
  | go hgo => simp [hst] at hgo
  | missed _ _ hmissed => simp [hst] at hmissed
  | _ => simp [LoopPc.movesLeft]

lemma step_movesLeft_lt (hst : s.ex.isStopping = true) (ha : a.ofThread = true)
    (h : s.step a = some s') : s'.movesLeft < s.movesLeft := by
  rw [movesLeft_eq_pc (fault_of_step h)]
  rcases step_goes ha h with hf | hgoes
  · have hzero : s'.movesLeft = 0 := if_pos hf
    have hne := mt LoopPc.movesLeft_eq_zero_iff.mp (ne_outside_of_step ha h)
    omega
  · exact movesLeft_lt (hgoes.movesLeft_lt hst)

lemma movesLeft_notifyAll (pc : LoopPc) : (notifyAll pc).movesLeft = pc.movesLeft := by
  cases pc <;> rfl

/-- The other threads do not bring it further away. -/
lemma step_movesLeft_le (ha : a.ofThread = false) (hproc : a.isProcess = false)
    (h : s.step a = some s') : s'.movesLeft ≤ s.movesLeft := by
  rw [movesLeft_eq_pc (fault_of_step h)]
  refine Nat.le_trans s'.movesLeft_le_pc (Nat.le_of_eq ?_)
  rcases step_pc_of_other ha hproc h with hpc | hpc
  · rw [hpc]
  · rw [hpc, movesLeft_notifyAll]

/-! ## Any continuation -/

/-- **An executor that is told to stop runs at most one more task and is soon through.**  From any
state with `m_is_stopping` set, whatever the other threads do:

* the flag stays set, and `Resume` is called at most once more, also over later calls of `Process`,
  and not at all unless the thread was between the test of the flag and that call;
* until `Process` is called again, the thread makes at most 11 moves, after which it is outside, or
  `Process` has called `Front` on a queue that was emptied after the decision for it. -/
theorem stopped_ends (hst : s₀.ex.isStopping = true) :
    (∀ s, (loopSystem.startAt s₀).Reachable s →
      s.ex.isStopping = true ∧
        s.resumes.length + s.pc.resumesLeft ≤ s₀.resumes.length + s₀.pc.resumesLeft) ∧
    (∀ tr s, (loopSystem.startAt s₀).Exec (fun _ a => a.isProcess = false) tr s →
      countSteps (fun _ a => a.ofThread = true) tr ≤ 11 ∧
        (countSteps (fun _ a => a.ofThread = true) tr = 11 →
          s.pc = .outside ∨ s.fault ≠ none)) := by
  constructor
  · intro s h
    refine h.invariant_startAt (I := fun s => s.ex.isStopping = true ∧
      s.resumes.length + s.pc.resumesLeft ≤ s₀.resumes.length + s₀.pc.resumesLeft)
      ⟨hst, Nat.le_refl _⟩ fun s a s' _ hs _ hstep => ?_
    have heff := step_effect hstep
    exact ⟨heff.isStopping hs.1, Nat.le_trans (heff.resumesLeft hs.1) hs.2⟩
  · intro tr s h
    have hrank := (countSteps_add_rank_le (D := fun _ a => a.ofThread = true)
      (I := fun s => s.ex.isStopping = true) movesLeft h hst
      fun s a s' hs hproc hstep => ?_).2
    · have hle : s₀.movesLeft ≤ 11 := Nat.le_trans s₀.movesLeft_le_pc (LoopPc.movesLeft_le _)
      refine ⟨by omega, fun hcount => ?_⟩
      have hzero : s.movesLeft = 0 := by omega
      cases hf : s.fault with
      | none =>
        rw [movesLeft_eq_pc hf] at hzero
        exact .inl (LoopPc.movesLeft_eq_zero_iff.mp hzero)
      | some f => exact .inr (by simp)
    · refine ⟨(step_effect hstep).isStopping hs, ?_⟩
      cases ha : a.ofThread with
      | true =>
        have hlt := step_movesLeft_lt hs ha hstep
        rw [if_pos rfl]
        omega
      | false =>
        have hle := step_movesLeft_le ha hproc hstep
        simpa using hle

/-- `Stop` comes right after the test of the flag: the task is still run, and holds. -/
theorem stopped_ends_holding :
    ∃ tr s, (loopSystem.startAt
        { pc := .choose, ex := { runnableQueue := [1, 2], isStopping := true } }).Exec
        (fun _ a => a.isProcess = false) tr s ∧
      countSteps (fun _ a => a.ofThread = true) tr = 11 ∧ (s.pc = .outside ∨ s.fault ≠ none) := by
  obtain ⟨tr, s, h, hp⟩ := exists_exec_of_traceUnder (G := fun _ a => a.isProcess = false)
    (M := loopSystem.startAt
      { pc := .choose, ex := { runnableQueue := [1, 2], isStopping := true } })
    (List.flatten [List.replicate 5 (.thread 0), [.holdPush, .addTask 0 3, .holdSwitch],
      List.replicate 4 (.thread 0)])
    (fun tr _ => countSteps (fun _ a => a.ofThread = true) tr = 11) rfl (by decide)
  simp only [decide_eq_true_eq] at hp
  exact ⟨tr, s, h, hp, ((stopped_ends rfl).2 tr s h).2 hp⟩

/-! ## Leaving without help -/

end LoopState

/-- The accesses a batch `AddTask` still makes before it lets the lock of the runnable queue go. -/
def ClientPc.lockLeft : ClientPc → ℕ
  | .readWaiting true => 3
  | .notify true => 2
  | .unlock => 1
  | _ => 0

/-- The moves of the thread in `Process` and of the callers that are at work; a wait ends by its
time-out only, and the coroutine that runs returns or gives up. -/
def LoopAct.unaided : LoopAct → Bool
  | .thread _ | .timeout | .holdSwitch | .finish | .client _ => true
  | _ => false

namespace LoopState

variable {s s' s₀ : LoopState} {a : LoopAct}

/-- Who holds the lock of the runnable queue is on the way to let it go. -/
def LockOk (s : LoopState) : Prop := ∀ c, s.queueLock = some c → 0 < (s.clients c).lockLeft

lemma LockOk.setClient {c : ℕ} {pc : ClientPc} (hs : s.LockOk) (hq : s'.queueLock = s.queueLock)
    (hclients : s'.clients = Function.update s.clients c pc)
    (hpc : 0 < (s.clients c).lockLeft → 0 < pc.lockLeft) : s'.LockOk := by
  intro c' hc'
  have hpos := hs c' (hq ▸ hc')
  by_cases h : c' = c
  · subst h
    rw [hclients, Function.update_self]
    exact hpc hpos
  · rwa [hclients, Function.update_of_ne h]

lemma Effect.lockOk (h : Effect s a s') (hs : s.LockOk) : s'.LockOk := by
  cases h with
  | @clientMove c pc h =>
    refine hs.setClient rfl rfl fun hpos => ?_
    generalize s.clients c = pc' at h hpos
    cases h with
    | awake => split <;> simp_all [ClientPc.lockLeft]
    | @waits locked => cases locked <;> simp_all [ClientPc.lockLeft]
    | _ => simp [ClientPc.lockLeft] at hpos
  | push hpc hfree | erase hpc | popWaiting hpc =>
    exact hs.setClient rfl rfl fun hpos => by simp [hpc, ClientPc.lockLeft] at hpos
  | @wake c pc tk _ h =>
    refine hs.setClient rfl rfl fun hpos => ?_
    generalize s.clients c = pc' at h hpos
    cases h <;> simp [ClientPc.lockLeft] at hpos
  | @notify c locked _ hpc =>
    refine hs.setClient rfl rfl fun hpos => ?_
    cases locked <;> simp_all [ClientPc.lockLeft]
  | @pushAll c tks hpc hfree =>
    intro c' hc'
    obtain rfl : c = c' := Option.some.inj hc'
    simp [LoopState.setClient, ClientPc.lockLeft]
  | unlock =>
    intro c' hc'
    cases hc'
  | _ => exact hs

lemma reachable_lockOk (h : loopSystem.Reachable s) : s.LockOk :=
  effect_invariant (fun _ _ c hc => by cases hc) (fun _ _ _ hs heff => heff.lockOk hs) h

/-- The accesses the holder of the lock still makes. -/
def lockLeft (s : LoopState) : ℕ :=
  match s.queueLock with
  | none => 0
  | some c => (s.clients c).lockLeft

/-- The moves of the thread are nothing to the lock and to the time-out. -/
lemma step_ofThread_frame (ha : a.ofThread = true) (h : s.step a = some s') :
    s'.lockLeft = s.lockLeft ∧ s'.timeoutMs = s.timeoutMs := by
  have h := act_of_step h
  cases a with
  | thread nowMs =>
    simp only [act, threadStep, resumeTask, settle] at h
    repeat' split at h
    all_goals cases h <;> exact ⟨rfl, rfl⟩
  | spurious | timeout | holdPush | holdSwitch | yield | finish | throw =>
    simp only [act] at h
    repeat' split at h
    all_goals cases h <;> exact ⟨rfl, rfl⟩
  | _ => cases ha

lemma step_eq_act (hf : s.fault = none) : s.step a = s.act a := by
  simp [step, hf]

lemma lockLeft_setClient {c : ℕ} (hc : s.queueLock = some c) (pc : ClientPc) :
    (s.setClient c pc).lockLeft = pc.lockLeft := by
  simp [lockLeft, setClient, hc]

/-- Who holds the lock can make its next access, and then has one less to make. -/
lemma exists_unlocking {c : ℕ} (hf : s.fault = none) (hs : s.LockOk) (hc : s.queueLock = some c) :
    ∃ s', s.step (.client c) = some s' ∧ s'.lockLeft < s.lockLeft ∧ s'.timeoutMs = s.timeoutMs := by
  have hpos := hs c hc
  have hleft : s.lockLeft = (s.clients c).lockLeft := by simp [lockLeft, hc]
  rw [step_eq_act hf, hleft]
  cases hpc : s.clients c with
  | readWaiting locked =>
    obtain rfl : locked = true := by
      cases locked
      · simp [hpc, ClientPc.lockLeft] at hpos
      · rfl
    have hact : s.act (.client c) =
        some (s.setClient c (if s.ex.waiting then .notify true else .unlock)) := by
      simp [act, clientStep, hpc]
    refine ⟨_, hact, ?_, rfl⟩
    rw [lockLeft_setClient hc]
    split <;> simp [ClientPc.lockLeft]
  | notify locked =>
    obtain rfl : locked = true := by
      cases locked
      · simp [hpc, ClientPc.lockLeft] at hpos
      · rfl
    have hact : s.act (.client c) = some { s.setClient c .unlock with pc := notifyAll s.pc } := by
      simp [act, clientStep, hpc]
    refine ⟨_, hact, ?_, rfl⟩
    simp [lockLeft, setClient, hc, ClientPc.lockLeft]
  | unlock =>
    have hact : s.act (.client c) = some { s.setClient c .idle with queueLock := none } := by
      simp only [act, clientStep, hpc]
    refine ⟨_, hact, ?_, rfl⟩
    simp [lockLeft, ClientPc.lockLeft]
  | _ => simp [hpc, ClientPc.lockLeft] at hpos

/-- With the lock free, the thread can make its next move. -/
lemma exists_move (hf : s.fault = none) (hpc : s.pc ≠ .outside) (hto : s.timeoutMs ≠ 0)
    (hfree : s.queueLock = none) :
    ∃ a s', a.unaided = true ∧ a.ofThread = true ∧ s.step a = some s' := by
  have hthread : (s.threadStep 0).isSome → ∃ a s', a.unaided = true ∧ a.ofThread = true ∧
      s.step a = some s' := by
    intro h
    obtain ⟨s', hs'⟩ := Option.isSome_iff_exists.mp h
    exact ⟨.thread 0, s', rfl, rfl, (step_eq_act hf).trans hs'⟩
  cases hat : s.pc with
  | outside => exact absurd hat hpc
  | inside => exact ⟨.finish, _, rfl, rfl, (step_eq_act hf).trans (if_pos hat)⟩
  | holding => exact ⟨.holdSwitch, _, rfl, rfl, (step_eq_act hf).trans (if_pos hat)⟩
  | blocked notified =>
    have hact : s.act .timeout = some { s with pc := .evaluate true } := by
      simp [act, hat, hto]
    exact ⟨.timeout, _, rfl, rfl, (step_eq_act hf).trans hact⟩
  | choose =>
    apply hthread
    simp only [threadStep, hat, hfree]
    cases s.ex.chooseQueue s.last <;> rfl
  | assign fromAwoken =>
    apply hthread
    simp only [threadStep, hat, hfree, or_true, if_true]
    cases s.ex.assignRunnableTask fromAwoken with
    | none => rfl
    | some p =>
      dsimp only
      split <;> rfl
  | evaluate timedOut =>
    apply hthread
    simp only [threadStep, hat, hfree, if_true]
    repeat' split
    all_goals rfl
  | gcTest =>
    apply hthread
    simp only [threadStep, hat]
    split <;> rfl
  | _ =>
    apply hthread
    simp only [threadStep, hat]
    rfl

/-- **An executor with a time-out that is told to stop needs no help to leave `Process`**, unless
the queue it has decided on was emptied. -/
theorem stopped_leaves (h : loopSystem.Reachable s) (hst : s.ex.isStopping = true)
    (hto : s.timeoutMs ≠ 0) :
    loopSystem.CanReach (fun _ a => a.unaided = true)
      (fun s' => s'.pc = .outside ∨ s'.fault ≠ none) s := by
  refine .of_rank (fun s => 4 * s.movesLeft + s.lockLeft)
    (I := fun s => s.LockOk ∧ s.ex.isStopping = true ∧ s.timeoutMs ≠ 0) ?_
    ⟨reachable_lockOk h, hst, hto⟩
  rintro s ⟨hlock, hst, hto⟩ hnot
  obtain ⟨hpc, hf⟩ : s.pc ≠ .outside ∧ s.fault = none := by simpa using hnot
  cases hq : s.queueLock with
  | some c =>
    obtain ⟨s', hstep, hlt, hsame⟩ := exists_unlocking hf hlock hq
    have hle := step_movesLeft_le rfl rfl hstep
    have heff := step_effect hstep
    exact ⟨.client c, s', rfl, hstep,
      .inr ⟨⟨heff.lockOk hlock, heff.isStopping hst, hsame ▸ hto⟩, by omega⟩⟩
  | none =>
    obtain ⟨a, s', hun, hown, hstep⟩ := exists_move hf hpc hto hq
    have hlt := step_movesLeft_lt hst hown hstep
    obtain ⟨hsame, htimeout⟩ := step_ofThread_frame hown hstep
    have heff := step_effect hstep
    exact ⟨a, s', hun, hstep,
      .inr ⟨⟨heff.lockOk hlock, heff.isStopping hst, htimeout ▸ hto⟩, by omega⟩⟩

/-- The executor is told to stop while its thread sleeps and a batch `AddTask` is under way. -/
theorem stopped_leaves_asleep :
    ∃ s, s.pc = .blocked false ∧ s.queueLock = some 0 ∧
      loopSystem.CanReach (fun _ a => a.unaided = true)
        (fun s' => s'.pc = .outside ∨ s'.fault ≠ none) s := by
  obtain ⟨s, hs, hp⟩ := exists_reachable_of_runUnder (G := fun _ _ => True) (M := loopSystem)
    (List.flatten [[.process 2000], List.replicate 5 (.thread 0),
      [.addTasks 0 [1, 2], .client 0, .stop]])
    (fun s => s.pc = .blocked false && s.queueLock = some 0 && s.ex.isStopping &&
      s.timeoutMs = 2000) ⟨0, 0, rfl⟩ (by decide)
  simp only [Bool.and_eq_true, decide_eq_true_eq] at hp
  exact ⟨s, hp.1.1.1, hp.1.1.2, stopped_leaves hs hp.1.2 (by simp [hp.2])⟩

end LoopState

end CoroutineCpp
