import CoroutineCpp.Properties.Yielding

/-!
# Task placement in runs of whole operations

In a run whose operations are whole (`Whole`: no `Yield`, and `Hold`, `WakeupAllTasks` and the
dispatcher passes are not interleaved with anything), nothing is in the hands of the dispatcher and
no body is between the push and the switch of a `Hold` in any state between two steps
(`WholeOk`).  The placement invariant then says that each submitted task that `Clean` has not
dropped is at one place, once, with the status that belongs there: `task_placement`.
-/

namespace CoroutineCpp

open Framework TransitionSystem

/-- A step that submits new tasks only, is not a `Yield` and is not a part of an operation. -/
def Whole (s : Sched) (a : Act) : Prop :=
  Fresh s a ∧ a.isYield = false ∧ a.isWakerStep = false ∧ a.isPart = false

instance (s : Sched) (a : Act) : Decidable (Whole s a) := inferInstanceAs (Decidable (_ ∧ _))

/-- Where a task can be on one executor. -/
inductive Place
  | runnable
  | waiting
  | awoken
  | finished
  | cpu
  deriving DecidableEq, Repr

/-- The statuses that belong to a place. -/
def Place.agrees : Place → Status → Prop
  | .runnable, st => st = .idle
  | .waiting, st => st = .hold
  | .awoken, st => st = .hold
  | .finished, st => st = .finished ∨ st = .except
  | .cpu, st => st = .running

namespace Sched

/-- The tasks at a place of executor `e`. -/
def tasksAt (s : Sched) (e : ℕ) : Place → List CoTaskPtr
  | .runnable => (s.executors e).runnableQueue
  | .waiting => (s.executors e).waitingQueue
  | .awoken => (s.executors e).awokenQueue
  | .finished => (s.executors e).finishedQueue
  | .cpu => if (s.pc e).onCpu then [(s.executors e).runningTask] else []

/-! ## Between whole operations -/

/-- Nothing is under way except the bodies on the CPUs. -/
structure WholeOk (s : Sched) : Prop where
  idle : s.disp.pc = .idle
  cpu : ∀ e, (s.pc e).onCpu = (s.pc e).isResumed

variable {s s' : Sched} {e timeoutMs nowMs : ℕ} {last : Bool}

lemma WholeOk.setPc {pc : ProcessPc} (h : s.WholeOk) (hpc : pc.onCpu = pc.isResumed)
    (hd : s'.disp = s.disp)
    (hs' : s'.pc = Function.update s.pc e pc) : s'.WholeOk where
  idle := hd ▸ h.idle
  cpu := by
    intro e'
    rw [hs']
    by_cases heq : e' = e
    · subst heq; simpa using hpc
    · simpa [heq] using h.cpu e'

lemma WholeOk.congr (h : s.WholeOk) (hd : s'.disp = s.disp) (hpc : s'.pc = s.pc) : s'.WholeOk :=
  ⟨hd ▸ h.idle, hpc ▸ h.cpu⟩

lemma WholeOk.fail {f : Fault} (h : s.WholeOk) : (s.fail f).WholeOk := h.congr rfl rfl

/-- The end of an iteration puts the thread back to the head of the loop or out of `Process`. -/
lemma WholeOk.endIteration (hd : s.disp.pc = .idle)
    (hpc : ∀ e', e' ≠ e → (s.pc e').onCpu = (s.pc e').isResumed) :
    (s.endIteration e timeoutMs last nowMs).WholeOk := by
  obtain ⟨ex', pc', reclaimed, thrown, heq, -, hpc', -⟩ :=
    endIteration_eq s e timeoutMs last nowMs
  rw [heq]
  refine ⟨hd, fun e' => ?_⟩
  by_cases he' : e' = e
  · subst he'; simp [hpc', ProcessPc.isResumed_of_off hpc']
  · simpa [he'] using hpc e' he'

lemma WholeOk.runTask (h : s.WholeOk) (nowUs : ℕ) (ex : CoExecutor) :
    (s.runTask e timeoutMs last nowUs nowMs ex).WholeOk := by
  simp only [Sched.runTask]
  split
  · exact h.fail
  · split
    · exact h.fail
    · exact .endIteration h.idle fun e' _ => h.cpu e'
    · exact h.setPc rfl rfl rfl

lemma WholeOk.pick (h : s.WholeOk) (nowUs : ℕ) :
    (s.pick e timeoutMs last nowUs nowMs).WholeOk := by
  simp only [Sched.pick]
  split
  · exact h.setPc rfl rfl rfl
  · split
    · exact h.fail
    · exact h.runTask nowUs _

lemma WholeOk.switchOut {ctx : Coroutine → Option ThreadId} {f : Coroutine → Coroutine}
    {stackRef : Bool} (h : s.WholeOk) :
    (s.switchOut e timeoutMs last nowMs ctx f stackRef).WholeOk := by
  simp only [Sched.switchOut]
  split
  · exact .endIteration h.idle fun e' _ => h.cpu e'
  · exact h.fail

lemma WholeOk.wakeupFromEntry (h : s.WholeOk) (entry : RecoveryEntry) :
    (s.wakeupFromEntry e entry).1.WholeOk := by
  simp only [Sched.wakeupFromEntry]
  split
  · exact h.congr rfl rfl
  · exact h

/-- A whole `Hold` of an affine state ends the iteration. -/
lemma WholeOk.hold (h : s.WholeOk) (hs : s.Affine) (hpc : s.pc e = .resumed timeoutMs last) :
    (s.hold e timeoutMs last nowMs).WholeOk := by
  obtain ⟨heff, hpc'⟩ := holdPush_effect hs hpc
  have hs' := heff.affine hs
  have htk := hs'.cpu.started e (by simp [hpc', ProcessPc.onCpu])
  rw [hold_eq hs hpc, holdSwitch, if_pos rfl]
  simp only [Sched.switchOut, if_pos htk.masterCo]
  rw [holdPush_eq hs hpc]
  exact .endIteration h.idle fun e' he' => by simpa [he', setTask] using h.cpu e'

lemma act_wholeOk {a : Act} (h : s.WholeOk) (hs : s.Affine) (hy : a.isYield = false)
    (hw : a.isWakerStep = false) (hp : a.isPart = false) (hact : s.act a = some s') :
    s'.WholeOk := by
  cases act_move hact with
  | yield => cases hy
  | wakerStart | wakerStep => cases hw
  | holdPush | holdSwitch | passStart | passStep | passOutOfBounds => cases hp
  | process | exitLoop | wake | timeout => exact h.setPc rfl rfl rfl
  | pick => exact h.pick _
  | hold hpc => exact h.hold hs hpc
  | finish | throw => exact h.switchOut
  | wakeupFromEntry | wakeup => exact h.wakeupFromEntry _
  | wakeupInvalid => exact h
  | schedulerTaskStopped | wakeupUninitialised => exact h.fail
  | addTask | addTasks | schedulerTask | wakeupAllTasks | dispatch | clean | keepRef | dropRef
  | stop => exact h.congr rfl rfl

/-! ## The states of a whole run -/

/-- All that is known of a state of a whole run. -/
structure Settled (s : Sched) : Prop where
  affine : s.Affine
  placed : s.Placed
  whole : s.WholeOk
  yielded : s.yielded = []

lemma reachable_settled (h : schedSystem.ReachableUnder Whole s) : s.Settled := by
  obtain ⟨hs, hp⟩ := reachable_placed (fun s a hG => ⟨hG.1, hG.2.2.1⟩) h
  suffices hrest : s.WholeOk ∧ s.yielded = [] from ⟨hs, hp, hrest.1, hrest.2⟩
  clear hs hp
  induction h with
  | init h =>
    obtain ⟨n, id, rfl⟩ := h
    exact ⟨⟨rfl, fun _ => rfl⟩, rfl⟩
  | step h hG hstep ih =>
    obtain ⟨hfresh, hy, hw, hp⟩ := hG
    have hs := (reachable_placed (fun s a hG => ⟨hG.1, hG.2.2.1⟩) h).1
    exact ⟨act_wholeOk ih.1 hs hy hw hp (act_of_step hstep),
      (act_yielded hy hw (act_of_step hstep)).trans ih.2⟩

/-- The tasks at a place, over all executors. -/
def totalAt (s : Sched) (p : Place) : Multiset CoTaskPtr := total s.n fun e => s.tasksAt e p

/-- In a whole run the places of all executors and the tasks dropped by `Clean` are the submitted
tasks. -/
lemma Settled.balance (h : s.Settled) :
    s.totalAt .runnable + s.totalAt .waiting + s.totalAt .awoken + s.totalAt .cpu +
      s.totalAt .finished + (s.reclaimed : Multiset CoTaskPtr) =
    (s.submitted : Multiset CoTaskPtr) := by
  have hcpu : s.totalAt .cpu = s.ledger.cpu :=
    total_congr fun e => by simp only [tasksAt, onCpu, h.whole.cpu e]
  have hpool : s.ledger.pool = s.totalAt .runnable := by
    simp only [ledger, pool, h.affine.dispWf.outstanding_eq_nil h.whole.idle]
    exact add_zero _
  have hover : s.ledger.ended = s.totalAt .finished + (s.reclaimed : Multiset CoTaskPtr) := rfl
  have hyield : s.ledger.yielded = 0 := by simp [ledger, h.yielded]
  have hbal : s.ledger.tokens = (s.submitted : Multiset CoTaskPtr) := h.placed.balance
  rw [TaskLedger.tokens, hover, hpool, hyield, ← hcpu, add_zero, ← add_assoc] at hbal
  exact hbal

section Places

variable {e e' : ℕ} {p p' : Place} {tk : CoTaskPtr}

lemma mem_totalAt (he : e < s.n) (h : tk ∈ s.tasksAt e p) : tk ∈ s.totalAt p :=
  mem_total.mpr ⟨e, he, h⟩

/-- The balance, for one task. -/
lemma Settled.count_balance (h : s.Settled) (tk : CoTaskPtr) :
    (s.totalAt .runnable).count tk + (s.totalAt .waiting).count tk +
      (s.totalAt .awoken).count tk + (s.totalAt .cpu).count tk + (s.totalAt .finished).count tk +
      s.reclaimed.count tk = s.submitted.count tk := by
  have hcount := congrArg (Multiset.count tk) h.balance
  simpa only [Multiset.count_add, Multiset.coe_count] using hcount

/-- A task is at one place at most, and once there, and nowhere once it is reclaimed. -/
lemma Settled.place_unique (h : s.Settled) (he : e < s.n)
    (htk : tk ∈ s.tasksAt e p) :
    (s.tasksAt e p).count tk = 1 ∧ tk ∈ s.submitted ∧ tk ∉ s.reclaimed ∧
      ∀ e' p', e' < s.n → tk ∈ s.tasksAt e' p' → e' = e ∧ p' = p := by
  have hbal := h.count_balance tk
  have hone := List.nodup_iff_count_le_one.mp h.affine.nodup tk
  have hpos : 0 < (s.totalAt p).count tk := Multiset.count_pos.mpr (mem_totalAt he htk)
  have hle : (s.totalAt p).count tk ≤ 1 := by cases p <;> omega
  have hcount : (s.tasksAt e p).count tk = 1 := by
    have hup := count_le_one_of_sum_le (s := Finset.range s.n)
      (f := fun e => (s.tasksAt e p : Multiset CoTaskPtr)) hle (Finset.mem_range.mpr he)
    rw [Multiset.coe_count] at hup
    have hlow := List.count_pos_iff.mpr htk
    omega
  refine ⟨hcount, List.count_pos_iff.mp ?_, fun hrec => ?_, fun e' p' he' htk' => ?_⟩
  · cases p <;> omega
  · have hrec := List.count_pos_iff.mpr hrec
    cases p <;> omega
  · have hpos' : 0 < (s.totalAt p').count tk := Multiset.count_pos.mpr (mem_totalAt he' htk')
    obtain rfl : p' = p := by
      cases p <;> cases p' <;> first | rfl | omega
    exact ⟨eq_of_mem_of_sum_le hle (Finset.mem_range.mpr he') (Finset.mem_range.mpr he) htk' htk,
      rfl⟩

/-- A submitted task that is not reclaimed is at some place. -/
lemma Settled.exists_place (h : s.Settled) (htk : tk ∈ s.submitted) (hrec : tk ∉ s.reclaimed) :
    ∃ e p, e < s.n ∧ tk ∈ s.tasksAt e p := by
  have hbal := h.count_balance tk
  have hpos := List.count_pos_iff.mpr htk
  have hzero := List.count_eq_zero.mpr hrec
  have hplace : ∃ p, 0 < (s.totalAt p).count tk := by
    by_contra! hall
    have hr := hall .runnable
    have hw := hall .waiting
    have ha := hall .awoken
    have hc := hall .cpu
    have hf := hall .finished
    omega
  obtain ⟨p, hp⟩ := hplace
  obtain ⟨e, he, htk⟩ := mem_total.mp (Multiset.count_pos.mp hp)
  exact ⟨e, p, he, htk⟩

/-- In a whole run the status of a task agrees with its place. -/
lemma Settled.agrees (h : s.Settled) (he : e < s.n) (htk : tk ∈ s.tasksAt e p) :
    p.agrees (s.tasks tk).co.status := by
  have held : s.Held e tk → (s.tasks tk).co.status = .hold := by
    intro hheld
    rcases h.placed.held_ok e tk hheld with hst | ⟨-, hcpu, hres, -⟩
    · exact hst
    · simp [h.whole.cpu e, hres] at hcpu
  cases p with
  | runnable =>
    have hco := h.affine.pool_new tk (Affine.mem_pool_of_runnable he htk)
    simp [Place.agrees, hco]
  | waiting => exact held (.inl htk)
  | awoken => exact held (.inr htk)
  | finished => exact h.placed.ended_status tk (Multiset.mem_add.mpr (.inl (mem_totalAt he htk)))
  | cpu =>
    obtain ⟨hcpu, rfl⟩ : (s.pc e).onCpu = true ∧ tk = (s.executors e).runningTask := by
      simp only [tasksAt] at htk
      split at htk
      next hcpu => exact ⟨hcpu, List.mem_singleton.mp htk⟩
      next => simp at htk
    exact h.affine.cpu.running e hcpu

end Places

/-- **Task placement.**  In every state of a run of whole operations a submitted task that `Clean`
has not dropped is at exactly one place, once; its status agrees with the place; what `Clean` has
dropped was over; and no assertion has failed. -/
theorem task_placement (h : schedSystem.ReachableUnder Whole s) :
    (∀ tk ∈ s.submitted, tk ∉ s.reclaimed →
      ∃ e p, e < s.n ∧ (s.tasksAt e p).count tk = 1 ∧
        ∀ e' p', e' < s.n → tk ∈ s.tasksAt e' p' → e' = e ∧ p' = p) ∧
    (∀ e p tk, e < s.n → tk ∈ s.tasksAt e p →
      tk ∈ s.submitted ∧ tk ∉ s.reclaimed ∧ p.agrees (s.tasks tk).co.status) ∧
    (∀ tk ∈ s.reclaimed, (s.tasks tk).co.status = .finished ∨ (s.tasks tk).co.status = .except) ∧
    s.fault ≠ some .assertion := by
  have hs := reachable_settled h
  refine ⟨fun tk htk hrec => ?_, fun e p tk he htk => ?_, fun tk htk => ?_, fun hf => ?_⟩
  · obtain ⟨e, p, he, hmem⟩ := hs.exists_place htk hrec
    obtain ⟨hcount, -, -, huniq⟩ := hs.place_unique he hmem
    exact ⟨e, p, he, hcount, huniq⟩
  · obtain ⟨-, hsub, hrec, -⟩ := hs.place_unique he htk
    exact ⟨hsub, hrec, hs.agrees he htk⟩
  · exact hs.placed.ended_status tk (Multiset.mem_add.mpr (.inr (Multiset.mem_coe.mpr htk)))
  · exact absurd (hs.affine.fault_ofTask _ hf) (by simp [Fault.ofTask])

/-- Two executors.  Of the three tasks given to the first, the dispatcher moves two to the second.
The first task is held and woken, the second returns and is reclaimed. -/
theorem task_placement_two_executors :
    ∃ s, schedSystem.ReachableUnder Whole s ∧ s.submitted = [1, 2, 3] ∧ s.reclaimed = [2] ∧
      s.tasksAt 0 .awoken = [1] ∧ s.tasksAt 1 .runnable = [3] ∧
      (∀ e' p', e' < s.n → 3 ∈ s.tasksAt e' p' → e' = 1 ∧ p' = .runnable) ∧
      Place.agrees .awoken (s.tasks 1).co.status ∧
      ((s.tasks 2).co.status = .finished ∨ (s.tasks 2).co.status = .except) ∧
      s.fault ≠ some .assertion := by
  obtain ⟨s, hs, hp⟩ := exists_reachable_of_runUnder (G := Whole) (M := schedSystem)
    [.addTasks 0 [1, 2, 3], .dispatch fun _ => 0, .process 0 0, .process 1 0, .pick 0 0 0,
      .hold 0 0, .pick 1 0 0, .wakeupFromEntry 0 { tk := 1, id := 0 }, .finish 1 0, .clean 1 0]
    (fun s => s.n = 2 && s.submitted = [1, 2, 3] && s.reclaimed = [2] &&
      s.tasksAt 0 .awoken = [1] && s.tasksAt 1 .runnable = [3])
    ⟨2, fun e => e, rfl⟩ (by decide)
  simp only [Bool.and_eq_true, decide_eq_true_eq] at hp
  obtain ⟨⟨⟨⟨hn, hsub⟩, hrec⟩, hawoken⟩, hrun⟩ := hp
  obtain ⟨hplace, hagrees, hover, hfault⟩ := task_placement hs
  obtain ⟨e, p, -, -, huniq⟩ := hplace 3 (by simp [hsub]) (by simp [hrec])
  obtain ⟨rfl, rfl⟩ := huniq 1 .runnable (by omega) (by simp [hrun])
  refine ⟨s, hs, hsub, hrec, hawoken, hrun, huniq, ?_, hover 2 (by simp [hrec]), hfault⟩
  exact (hagrees 0 .awoken 1 (by omega) (by simp [hawoken])).2.2

end Sched

end CoroutineCpp
