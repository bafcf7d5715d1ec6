import CoroutineCpp.Properties.Placement

/-!
# What becomes of a task that yields

`Hold` pushes the task onto the waiting queue before it switches out; `Yield` only switches out.
The task is then in no queue (`Lost`), no wakeup can find it, and the next pick overwrites
`m_running_task`.  So every live task that has yielded is kept exactly in the runs in which no
body yields (`yielded_kept_iff`).

The runs submit new tasks only and run `WakeupAllTasks` as a whole; everything else may be
interleaved.
-/

namespace CoroutineCpp

open Framework TransitionSystem TaskLedger

/-- A step that submits new tasks only and runs no part of a `WakeupAllTasks`. -/
def WakesWhole (s : Sched) (a : Act) : Prop := Fresh s a ∧ a.isWakerStep = false

instance (s : Sched) (a : Act) : Decidable (WakesWhole s a) := inferInstanceAs (Decidable (_ ∧ _))

namespace Sched

variable {s s' : Sched} {e timeoutMs nowMs : ℕ} {last : Bool}

/-! ## Which steps yield -/

@[simp] lemma endIteration_yielded :
    (s.endIteration e timeoutMs last nowMs).yielded = s.yielded := by
  simp only [endIteration]
  split <;> rfl

@[simp] lemma switchOut_yielded {ctx : Coroutine → Option ThreadId} {f : Coroutine → Coroutine}
    {stackRef : Bool} :
    (s.switchOut e timeoutMs last nowMs ctx f stackRef).yielded = s.yielded := by
  simp only [switchOut]
  split <;> simp [setTask, fail]

@[simp] lemma pick_yielded {nowUs : ℕ} :
    (s.pick e timeoutMs last nowUs nowMs).yielded = s.yielded := by
  simp only [pick, runTask]
  repeat' split
  all_goals simp [setExecutor, setPc, setTask, fail]

@[simp] lemma holdPush_yielded : (s.holdPush e timeoutMs last).yielded = s.yielded := by
  simp only [holdPush]
  repeat' split
  all_goals rfl

@[simp] lemma holdSwitch_yielded {p : ℕ} :
    (s.holdSwitch e timeoutMs last p nowMs).yielded = s.yielded := by
  unfold holdSwitch
  split <;> simp [fail]

@[simp] lemma wakeupFromEntry_yielded (entry : RecoveryEntry) :
    (s.wakeupFromEntry e entry).1.yielded = s.yielded := by
  simp only [wakeupFromEntry]
  split <;> rfl

@[simp] lemma hold_yielded : (s.hold e timeoutMs last nowMs).yielded = s.yielded := by
  simp only [hold]
  split <;> simp

/-- Only `Yield` adds to the history of yields. -/
lemma act_yielded {a : Act} (hy : a.isYield = false) (hw : a.isWakerStep = false)
    (h : s.act a = some s') : s'.yielded = s.yielded := by
  cases act_move h with
  | yield => cases hy
  | wakerStart | wakerStep => cases hw
  | pick => exact pick_yielded
  | hold => exact hold_yielded
  | holdPush => exact holdPush_yielded
  | holdSwitch => exact holdSwitch_yielded
  | finish | throw => exact switchOut_yielded
  | wakeupFromEntry | wakeup => exact wakeupFromEntry_yielded _
  | _ => rfl

/-- A running body that yields is recorded. -/
lemma act_yield {a : Act} (hs : s.Affine) (hy : a.isYield = true) (h : s.act a = some s') :
    s'.yielded ≠ [] := by
  cases act_move h with
  | @yield e _ _ _ hpc =>
    have htk := hs.cpu.started e (by simp [hpc, ProcessPc.onCpu])
    simp [yieldCurrent, hs.ne_null_of_co htk.co_ne]
  | _ => cases hy

/-! ## A task that has yielded is lost -/

/-- The task is in a queue from which it can be resumed. -/
def Queued (s : Sched) (tk : CoTaskPtr) : Prop :=
  ∃ e < s.n, tk ∈ (s.executors e).runnableQueue ∨ tk ∈ (s.executors e).waitingQueue ∨
    tk ∈ (s.executors e).awokenQueue

/-- Some thread runs the body of the task. -/
def OnCpu (s : Sched) (tk : CoTaskPtr) : Prop :=
  ∃ e, (s.pc e).onCpu = true ∧ (s.executors e).runningTask = tk

/-- Every task whose body has yielded and has neither returned nor thrown is in a queue from which
it can be resumed, or it runs. -/
def YieldedKept (s : Sched) : Prop :=
  ∀ tk ∈ s.yielded, ¬ ((s.tasks tk).co.status = .finished ∨ (s.tasks tk).co.status = .except) →
    s.Queued tk ∨ s.OnCpu tk

/-- A task that has yielded stays suspended for good. -/
def YieldedHold (s : Sched) : Prop := ∀ tk ∈ s.yielded, (s.tasks tk).co.status = .hold

lemma Effect.yieldedHold (h : Effect s s') (hs : s.Affine) (hp : s.Placed) (hy : s.YieldedHold) :
    s'.YieldedHold := by
  cases h with
  | quiet h =>
    rw [YieldedHold, h.yielded, h.tasks]
    exact hy
  | submit | pass | inert | hold | wake | wakeExpired => exact hy
  | @start e tk ex' pc' he hpc hpc' hq hex hfin hrun hco =>
    intro tk' htk'
    have hst := hy tk' htk'
    have hne : tk' ≠ tk := by
      rintro rfl
      simp [hco] at hst
    simpa [hne] using hst
  | @resume e tk ex' pc' he hpc hpc' hq hex hfin hrun hst =>
    intro tk' htk'
    have hne : tk' ≠ tk := by
      rintro rfl
      refine (notMem_of_yielded (hp.tokens_nodup hs) htk').2.2 (mem_total.mpr ⟨e, he, ?_⟩)
      simp [hq]
    simpa [hne] using hy tk' htk'
  | @leave e ex' pc' task' reclaimed yielded thrown he hpc hpc' hex hfin href hstarted hout =>
    have hrun := hs.cpu.running e hpc
    intro tk' htk'
    by_cases heq : tk' = (s.executors e).runningTask
    · subst heq
      -- it runs, so it has not yielded before
      have hnew : (s.executors e).runningTask ∈ yielded := by
        refine (List.mem_append.mp htk').resolve_left fun hold => ?_
        simp [hy _ hold] at hrun
      rcases hout with ⟨-, -, rfl⟩ | ⟨hst, -, -⟩ | ⟨-, -, rfl⟩
      · cases hnew
      · simpa using hst
      · cases hnew
    · have hold : tk' ∈ s.yielded := by
        refine (List.mem_append.mp htk').resolve_right fun hnew => ?_
        rcases hout with ⟨-, -, rfl⟩ | ⟨-, -, rfl⟩ | ⟨-, -, rfl⟩
        · cases hnew
        · exact heq (List.mem_singleton.mp hnew)
        · cases hnew
      simpa [heq] using hy tk' hold

lemma reachable_yieldedHold (h : schedSystem.ReachableUnder WakesWhole s) :
    s.Affine ∧ s.Placed ∧ s.YieldedHold := by
  refine effect_invariant (I := fun s => s.Placed ∧ s.YieldedHold) (fun _ _ hG => hG) ?_ ?_ h
  · rintro s hs
    refine ⟨init_placed hs, ?_⟩
    obtain ⟨n, id, rfl⟩ := hs
    simp [YieldedHold]
  · exact fun s s' hs hI heff =>
      ⟨heff.placed hs hI.1, heff.yieldedHold hs hI.1 hI.2⟩

/-- A task that has yielded is in no queue. -/
lemma Placed.not_queued (hp : s.Placed) (hs : s.Affine) {tk : CoTaskPtr} (htk : tk ∈ s.yielded) :
    ¬ s.Queued tk := by
  obtain ⟨hpool, hwaiting, hawoken⟩ := notMem_of_yielded (hp.tokens_nodup hs) htk
  rintro ⟨e, he, hmem | hmem | hmem⟩
  · exact hpool (Affine.mem_pool_of_runnable he hmem)
  · exact hwaiting (mem_total.mpr ⟨e, he, hmem⟩)
  · exact hawoken (mem_total.mpr ⟨e, he, hmem⟩)

/-- All yielded tasks are kept only as long as there are none. -/
lemma yieldedKept_iff_nil (h : schedSystem.ReachableUnder WakesWhole s) :
    s.YieldedKept ↔ s.yielded = [] := by
  obtain ⟨hs, hp, hy⟩ := reachable_yieldedHold h
  refine ⟨fun hkept => List.eq_nil_iff_forall_not_mem.mpr fun tk htk => ?_, fun hnil => ?_⟩
  · have hst := hy tk htk
    rcases hkept tk htk (by simp [hst]) with hqueued | ⟨e, hcpu, rfl⟩
    · exact hp.not_queued hs htk hqueued
    · simp [hs.cpu.running e hcpu] at hst
  · simp [YieldedKept, hnil]

/-- **What yields is lost.**  In a run every live task that has yielded is in a queue or on a CPU,
in all states of the run, exactly if no body yields in the run. -/
theorem yielded_kept_iff {tr : List (Sched × Act)} (h : schedSystem.Exec WakesWhole tr s) :
    AlwaysState YieldedKept tr s ↔ AlwaysStep (fun _ a => a.isYield = false) tr := by
  refine h.always_iff (fun s hs => ?_) fun s a s' hreach hkept hG hstep => ?_
  · obtain ⟨n, id, rfl⟩ := hs
    simp [YieldedKept]
  · have hnil := (yieldedKept_iff_nil hreach).mp hkept
    rw [yieldedKept_iff_nil (.step hreach hG hstep)]
    have hs := (reachable_yieldedHold hreach).1
    cases hy : a.isYield with
    | true => simpa using act_yield hs hy (act_of_step hstep)
    | false => simpa [hnil] using act_yielded hy hG.2 (act_of_step hstep)

/-- A run of two tasks in which nobody yields. -/
theorem yielded_kept_iff_no_yield :
    ∃ tr s, schedSystem.Exec WakesWhole tr s ∧ s.resumes = [(1, 0), (2, 0), (1, 0)] ∧
      (AlwaysState YieldedKept tr s ↔ AlwaysStep (fun _ a => a.isYield = false) tr) := by
  obtain ⟨s, hs, hp⟩ := exists_reachable_of_runUnder (G := WakesWhole) (M := schedSystem)
    [.addTasks 0 [1, 2], .process 0 0, .pick 0 0 0, .hold 0 0, .pick 0 0 0, .wakeupAllTasks 0,
      .finish 0 0, .pick 0 0 0, .finish 0 0]
    (fun s => s.resumes = [(1, 0), (2, 0), (1, 0)]) ⟨1, fun e => e, rfl⟩ (by decide)
  obtain ⟨tr, htr⟩ := hs.exists_exec
  exact ⟨tr, s, htr, by simpa using hp, yielded_kept_iff htr⟩

/-- Two tasks; the first yields.  At the end of that iteration it is suspended and in no queue. -/
theorem yield_loses_task :
    ∃ s, schedSystem.ReachableUnder WakesWhole s ∧ s.pc 0 = .loop 0 false ∧ 1 ∈ s.yielded ∧
      (s.tasks 1).co.status = .hold ∧ ¬ s.Queued 1 ∧ ¬ s.OnCpu 1 := by
  obtain ⟨s, hs, hp⟩ := exists_reachable_of_runUnder (G := WakesWhole) (M := schedSystem)
    [.addTasks 0 [1, 2], .process 0 0, .pick 0 0 0, .yield 0 0]
    (fun s => s.n = 1 && s.pc 0 = .loop 0 false && s.yielded = [1] &&
      (s.tasks 1).co.status = .hold && (s.executors 0).runnableQueue = [2] &&
      (s.executors 0).waitingQueue = [] && (s.executors 0).awokenQueue = [])
    ⟨1, fun e => e, rfl⟩ (by decide)
  simp only [Bool.and_eq_true, decide_eq_true_eq] at hp
  obtain ⟨⟨⟨⟨⟨⟨hn, hpc⟩, hy⟩, hst⟩, hr⟩, hw⟩, ha⟩ := hp
  refine ⟨s, hs, hpc, by simp [hy], hst, ?_, ?_⟩
  · rintro ⟨e, he, hmem⟩
    obtain rfl : e = 0 := by omega
    simp [hr, hw, ha] at hmem
  · rintro ⟨e, hcpu, heq⟩
    have hrun := (reachable_yieldedHold hs).1.cpu.running e hcpu
    simp [heq, hst] at hrun

end Sched

end CoroutineCpp
