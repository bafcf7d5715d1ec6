import CoroutineCpp.Framework.Progress
import CoroutineCpp.Model.PickSteps
import CoroutineCpp.Model.ReadyQueues
import CoroutineCpp.Properties.DispatchPass

/-!
# A ready task is soon reached

A task waits in one of the two ready queues of an executor whose thread is in `Process`, and each
`Empty()`, `Front()` and `PopFront()` is a step of its own.  `PickPc.left` bounds the moves that the
thread still makes before the next task of that queue has been taken: at most one task of the other
queue is taken before it, and between two takes the thread makes at most 11 moves, since a queue
that was not empty is not emptied behind its back.  With the tasks ahead of the one that waits this
is a rank (`rank`), which each move of the thread brings down and which no other step raises
(`step_rank`); so a task with `k` tasks ahead of it is taken before the thread has made
`11 * (2 * k + 2)` moves (`ready_task_reached`).

The steals allowed are those after which the task, or for an awoken task something in the runnable
queue, is still there.  A dispatcher that empties the runnable queue each time between the first
`Empty()` and the second can send `Process` to its `else` branch for ever.
-/

namespace CoroutineCpp

open Framework TransitionSystem

/-- A move of the thread of executor `e`: a queue call, the return of `Resume`, the end of a
wait. -/
def PickAct.moves (e : ℕ) : PickAct → Bool
  | .call e' | .return e' _ | .wake e' => e' == e
  | _ => false

namespace PickPc

variable {b other other' : Bool} {pc pc' : PickPc}

/-- With a task in queue `b`: how many moves the thread makes at most until it has taken a task of
either queue.  `other` says that the other queue has one too. -/
def toPick (b other : Bool) : PickPc → ℕ
  | .outside => 0
  | .pop _ => 1
  | .front _ => 2
  | .bothAwoken _ => if b || other then 3 else 9
  | .bothRunnable _ => if other then 4 else if b then 9 else 10
  | .waiting _ | .resumed _ => if other then 5 else if b then 10 else 11
  -- an awoken task alone: the third condition fails, and the thread goes through the wait
  | .onlyRunnableAwoken _ => if b && !other then 11 else 6
  | .onlyRunnableRunnable _ => if b && !other then 11 else 7
  | .onlyAwokenRunnable _ => 8
  | .onlyAwokenAwoken _ => if b then 3 else 8

/-- How many tasks of the other queue may be taken before the next one of queue `b`. -/
def behind (b : Bool) : PickPc → ℕ
  | .outside => 0
  | .front fromAwoken | .pop fromAwoken => if fromAwoken = b then 0 else 1
  | .onlyAwokenAwoken _ => if b then 0 else 1
  | .bothRunnable last | .bothAwoken last | .onlyAwokenRunnable last | .onlyRunnableRunnable last
  | .onlyRunnableAwoken last | .resumed last | .waiting last => if last = b then 1 else 0

/-- The moves of the thread at most until it has taken a task of queue `b`. -/
def left (b other : Bool) (pc : PickPc) : ℕ := 11 * pc.behind b + pc.toPick b other

lemma toPick_le (b other : Bool) (pc : PickPc) : pc.toPick b other ≤ 11 := by
  cases pc <;> cases b <;> cases other <;> simp [toPick]

lemma behind_le (b : Bool) (pc : PickPc) : pc.behind b ≤ 1 := by
  cases pc with
  | outside => exact Nat.zero_le 1
  | _ => simp only [behind]; split_ifs <;> omega

lemma left_le (b other : Bool) (pc : PickPc) : pc.left b other ≤ 22 := by
  have h := pc.toPick_le b other
  have h' := pc.behind_le b
  unfold left
  omega

lemma left_pos (hpc : pc ≠ .outside) : 0 < pc.left b other := by
  refine Nat.add_pos_right _ ?_
  cases pc <;> cases b <;> cases other <;> simp_all [toPick]

/-- The moves of the thread that take no task: the tests, the return of `Resume` and the end of a
wait. -/
inductive Goes (ex : CoExecutor) : PickPc → PickPc → Prop
  | bothRunnable (last : Bool) : Goes ex (.bothRunnable last)
      (if ex.runnableQueue.isEmpty then .onlyAwokenRunnable last else .bothAwoken last)
  | bothAwoken (last : Bool) : Goes ex (.bothAwoken last)
      (if ex.awokenQueue.isEmpty then .onlyAwokenRunnable last
        else if last then .front false else .front true)
  | onlyAwokenRunnable (last : Bool) : Goes ex (.onlyAwokenRunnable last)
      (if ex.runnableQueue.isEmpty then .onlyAwokenAwoken last else .onlyRunnableRunnable last)
  | onlyAwokenAwoken (last : Bool) : Goes ex (.onlyAwokenAwoken last)
      (if ex.awokenQueue.isEmpty then .onlyRunnableRunnable last else .front true)
  | onlyRunnableRunnable (last : Bool) : Goes ex (.onlyRunnableRunnable last)
      (if ex.runnableQueue.isEmpty then .waiting last else .onlyRunnableAwoken last)
  | onlyRunnableAwoken (last : Bool) : Goes ex (.onlyRunnableAwoken last)
      (if ex.awokenQueue.isEmpty then .front false else .waiting last)
  | returned (last : Bool) : Goes ex (.resumed last) (.bothRunnable last)
  | woken (last : Bool) : Goes ex (.waiting last) (.bothRunnable last)

/-- Each of them brings it nearer to a task of a queue that has one. -/
lemma Goes.left_lt {ex : CoExecutor} (h : Goes ex pc pc') (hne : ex.readyQueue b ≠ []) :
    pc'.left b (!(ex.readyQueue (!b)).isEmpty) < pc.left b (!(ex.readyQueue (!b)).isEmpty) := by
  have hfull : (ex.readyQueue b).isEmpty = false := by simpa using hne
  cases b with
  | true =>
    simp only [CoExecutor.readyQueue_true, CoExecutor.readyQueue_false, Bool.not_true] at hfull ⊢
    cases hr : ex.runnableQueue.isEmpty <;> cases h with
    | returned last | woken last => cases last <;> simp [left, toPick, behind]
    | _ last => cases last <;> simp [left, toPick, behind, hr, hfull]
  | false =>
    simp only [CoExecutor.readyQueue_true, CoExecutor.readyQueue_false, Bool.not_false] at hfull ⊢
    cases ha : ex.awokenQueue.isEmpty <;> cases h with
    | returned last | woken last => cases last <;> simp [left, toPick, behind]
    | _ last => cases last <;> simp [left, toPick, behind, ha, hfull]

lemma Goes.ne_outside {ex : CoExecutor} (h : Goes ex pc pc') : pc' ≠ .outside := by
  cases h <;> (try split_ifs) <;> simp

lemma Goes.ne_pop {ex : CoExecutor} (h : Goes ex pc pc') (b : Bool) : pc' ≠ .pop b := by
  cases h <;> (try split_ifs) <;> simp

end PickPc

namespace PickState

variable {size : ℕ} {s s' s₀ : PickState} {a : PickAct} {e : ℕ} {b : Bool} {tk : CoTaskPtr}
  {tr : List (PickState × PickAct)}

/-! ## The runs considered -/

/-- What `GiveUpTasks` may leave in the runnable queue of an executor: the task in question, or, if
that waits in the awoken queue, something where there was something. -/
def Spares (b : Bool) (tk : CoTaskPtr) (ex : CoExecutor) (kept : List CoTaskPtr) : Prop :=
  if b then ex.runnableQueue ≠ [] → kept ≠ [] else tk ∈ kept

instance (b : Bool) (tk : CoTaskPtr) (ex : CoExecutor) (kept : List CoTaskPtr) :
    Decidable (Spares b tk ex kept) :=
  inferInstanceAs (Decidable (ite ..))

/-- The thread of executor `e` stays in `Process`, and the dispatcher spares the queues there. -/
def Keeps (e : ℕ) (b : Bool) (tk : CoTaskPtr) (s : PickState) : PickAct → Prop
  | .exitLoop e' => e' ≠ e
  | .return e' thrown => e' = e → thrown = false
  | .passStep blocking =>
    match s.disp.pc with
    | .giveUp idx load => idx = e → Spares b tk (s.executors e)
        ((s.disp.stealFrom idx load blocking s.executors).2 e).runnableQueue
    | _ => True
  | _ => True

instance (e : ℕ) (b : Bool) (tk : CoTaskPtr) (s : PickState) (a : PickAct) :
    Decidable (s.Keeps e b tk a) := by
  unfold Keeps
  split
  · infer_instance
  · infer_instance
  · split <;> infer_instance
  · infer_instance

/-- The task waits in queue `b` of executor `e`, whose thread is in `Process`. -/
structure Due (e : ℕ) (b : Bool) (tk : CoTaskPtr) (s : PickState) : Prop where
  wf : s.disp.Wf
  inside : s.pc e ≠ .outside
  mem : tk ∈ (s.executors e).readyQueue b
  /-- what `Front` returned is still there when `PopFront` is called -/
  front : s.pc e = .pop b →
    ((s.executors e).readyQueue b).head? = some (s.executors e).runningTask

/-- The moves of the thread at most until the task is taken; a fault is the end too. -/
def rank (e : ℕ) (b : Bool) (tk : CoTaskPtr) (s : PickState) : ℕ :=
  if s.fault then 0
  else 22 * ((s.executors e).readyQueue b).idxOf tk +
    (s.pc e).left b (!((s.executors e).readyQueue (!b)).isEmpty)

lemma rank_of_fault (h : s.fault = true) : s.rank e b tk = 0 := if_pos h

lemma rank_le (s : PickState) (e : ℕ) (b : Bool) (tk : CoTaskPtr) :
    s.rank e b tk ≤ 22 * ((s.executors e).readyQueue b).idxOf tk +
      (s.pc e).left b (!((s.executors e).readyQueue (!b)).isEmpty) := by
  unfold rank
  split
  · exact Nat.zero_le _
  · exact Nat.le_refl _

lemma Due.rank_pos (hs : s.Due e b tk) (hf : s.fault = false) : 0 < s.rank e b tk := by
  rw [rank, if_neg (by simp [hf])]
  exact Nat.add_pos_right _ (PickPc.left_pos hs.inside)

/-! ## The other steps -/

/-- What the others do to an executor while the task waits: its queue is the same as far as the
task, and the other queue is not emptied. -/
structure Stays (b : Bool) (tk : CoTaskPtr) (ex ex' : CoExecutor) : Prop where
  running : ex'.runningTask = ex.runningTask
  upTo : ∃ kept, tk ∈ kept ∧ kept <+: ex.readyQueue b ∧ kept <+: ex'.readyQueue b
  other : ex.readyQueue (!b) ≠ [] → ex'.readyQueue (!b) ≠ []

namespace Stays

variable {ex ex' : CoExecutor}

/-- Pushes to the back of the queues. -/
lemma of_prefix (hmem : tk ∈ ex.readyQueue b)
    (hq : ∀ b, ex.readyQueue b <+: ex'.readyQueue b) (hrun : ex'.runningTask = ex.runningTask) :
    Stays b tk ex ex' :=
  ⟨hrun, ⟨_, hmem, List.prefix_rfl, hq b⟩, fun hne hnil =>
    hne (List.prefix_nil.mp (hnil ▸ hq (!b)))⟩

lemma refl (hmem : tk ∈ ex.readyQueue b) : Stays b tk ex ex :=
  of_prefix hmem (fun _ => List.prefix_rfl) rfl

lemma push (hmem : tk ∈ ex.readyQueue b) (b' : Bool) (tks : List CoTaskPtr)
    (hq : ex'.readyQueue b' = ex.readyQueue b' ++ tks)
    (hother : ex'.readyQueue (!b') = ex.readyQueue (!b'))
    (hrun : ex'.runningTask = ex.runningTask) : Stays b tk ex ex' := by
  refine of_prefix hmem (fun b'' => ?_) hrun
  by_cases hb : b'' = b'
  · rw [hb, hq]
    exact List.prefix_append _ _
  · rw [Bool.eq_not_of_ne hb, hother]

/-- A steal from the back of the runnable queue that spares the task. -/
lemma steal {kept block : List CoTaskPtr} (hmem : tk ∈ ex.readyQueue b)
    (hq : ex.runnableQueue = kept ++ block) (hspares : Spares b tk ex kept) :
    Stays b tk ex { ex with runnableQueue := kept } := by
  cases b with
  | true => exact ⟨rfl, ⟨_, hmem, List.prefix_rfl, List.prefix_rfl⟩, hspares⟩
  | false =>
    refine ⟨rfl, ⟨kept, hspares, ?_, List.prefix_rfl⟩, id⟩
    rw [CoExecutor.readyQueue_false, hq]
    exact List.prefix_append _ _

end Stays

/-- What the next queue call of the thread of executor `e` does. -/
inductive CallEffect (e : ℕ) (s s' : PickState) : Prop
  | faults (hs : s' = { s with fault := true })
  | tests (pc : PickPc) (hgoes : PickPc.Goes (s.executors e) (s.pc e) pc) (hs : s' = s.goto e pc)
  | reads (b : Bool) (t : CoTaskPtr) (hpc : s.pc e = .front b)
      (ht : ((s.executors e).readyQueue b).head? = some t)
      (hs : s' = (s.setExecutor e { s.executors e with runningTask := t }).goto e (.pop b))
  | pops (b : Bool) (t : CoTaskPtr) (ex : CoExecutor) (taken : List (CoTaskPtr × ℕ))
      (hpc : s.pc e = .pop b) (hq : (s.executors e).readyQueue b = t :: ex.readyQueue b)
      (hother : ex.readyQueue (!b) = (s.executors e).readyQueue (!b))
      (hs : s' = { (s.setExecutor e ex).goto e (.resumed b) with taken := taken })

/-- A call of another thread leaves the executor alone. -/
lemma CallEffect.frame {e' : ℕ} (hne : e ≠ e') (h : CallEffect e' s s') :
    s'.disp = s.disp ∧ s'.pc e = s.pc e ∧ s'.executors e = s.executors e := by
  cases h with
  | faults hs => simp [hs]
  | tests pc hgoes hs => simp [hs, goto, hne]
  | reads b t hpc ht hs => simp [hs, goto, setExecutor, hne]
  | pops b t ex taken hpc hq hother hs => simp [hs, goto, setExecutor, hne]

/-! ## The other steps -/

lemma fault_of_step (h : s.step size a = some s') : s.fault = false := by
  by_contra hf
  simp [step, hf] at h

/-- Another executor is replaced, or tasks are pushed onto queue `b'` of the same one. -/
lemma Due.push {e' : ℕ} {ex : CoExecutor} (b' : Bool) (tks : List CoTaskPtr) (hs : s.Due e b tk)
    (hq : ex.readyQueue b' = (s.executors e').readyQueue b' ++ tks)
    (hother : ex.readyQueue (!b') = (s.executors e').readyQueue (!b'))
    (hrun : ex.runningTask = (s.executors e').runningTask) :
    Stays b tk (s.executors e) (Function.update s.executors e' ex e) := by
  by_cases he : e = e'
  · subst he
    rw [Function.update_self]
    exact .push hs.mem b' tks hq hother hrun
  · rw [Function.update_of_ne he]
    exact .refl hs.mem

/-- The thread goes on without taking a task. -/
lemma Due.goes {pc : PickPc} (hs : s.Due e b tk) (hf : s.fault = false)
    (h : PickPc.Goes (s.executors e) (s.pc e) pc) :
    (s.goto e pc).Due e b tk ∧ (s.goto e pc).rank e b tk < s.rank e b tk := by
  have hlt := h.left_lt (List.ne_nil_of_mem hs.mem)
  have hpc : (s.goto e pc).pc e = pc := Function.update_self ..
  refine ⟨⟨hs.wf, ?_, hs.mem, fun hpop => ?_⟩, ?_⟩
  · rw [hpc]
    exact h.ne_outside
  · exact absurd (hpc ▸ hpop) (h.ne_pop b)
  · refine Nat.lt_of_le_of_lt (rank_le ..) ?_
    rw [rank, if_neg (by simp [hf]), hpc]
    exact Nat.add_lt_add_left hlt _

/-- `Front()` of the queue that the tests have found. -/
lemma Due.reads {b' : Bool} {t : CoTaskPtr} (hs : s.Due e b tk) (hf : s.fault = false)
    (hpc : s.pc e = .front b') (ht : ((s.executors e).readyQueue b').head? = some t)
    (hs' : s' = (s.setExecutor e { s.executors e with runningTask := t }).goto e (.pop b')) :
    s'.Due e b tk ∧ s'.rank e b tk < s.rank e b tk := by
  have hpc' : s'.pc e = .pop b' := by simp [hs', goto]
  have hex : s'.executors e = { s.executors e with runningTask := t } := by
    simp [hs', goto, setExecutor]
  have hq : ∀ b, (s'.executors e).readyQueue b = (s.executors e).readyQueue b := by
    intro b
    rw [hex]
    cases b <;> rfl
  refine ⟨⟨hs' ▸ hs.wf, by simp [hpc'], hq b ▸ hs.mem, fun hpop => ?_⟩, ?_⟩
  · obtain rfl : b' = b := by simpa [hpc'] using hpop
    rw [hq, ht, hex]
  · refine Nat.lt_of_le_of_lt (rank_le ..) ?_
    rw [rank, if_neg (by simp [hf]), hq, hq, hpc, hpc']
    simp [PickPc.left, PickPc.behind, PickPc.toPick]

/-- `PopFront()`, of a task that is not the one that waits. -/
lemma Due.pops {b' : Bool} {t : CoTaskPtr} {ex : CoExecutor} {taken : List (CoTaskPtr × ℕ)}
    (hs : s.Due e b tk) (hf : s.fault = false) (hpc : s.pc e = .pop b')
    (hq : (s.executors e).readyQueue b' = t :: ex.readyQueue b')
    (hother : ex.readyQueue (!b') = (s.executors e).readyQueue (!b')) (hne : b' = b → t ≠ tk)
    (hs' : s' = { (s.setExecutor e ex).goto e (.resumed b') with taken := taken }) :
    s'.Due e b tk ∧ s'.rank e b tk < s.rank e b tk := by
  have hpc' : s'.pc e = .resumed b' := by simp [hs', goto]
  have hex : s'.executors e = ex := by simp [hs', goto, setExecutor]
  have hahead : tk ∈ ex.readyQueue b ∧ 22 * (ex.readyQueue b).idxOf tk + 11 * PickPc.behind b
      (.resumed b') + 11 ≤ 22 * ((s.executors e).readyQueue b).idxOf tk +
        11 * PickPc.behind b (.pop b') := by
    have hmem := hs.mem
    by_cases hb : b' = b
    · subst hb
      rw [hq] at hmem ⊢
      rw [List.idxOf_cons_ne _ (hne rfl)]
      simp [PickPc.behind, Nat.mul_add, (hne rfl).symm] at hmem ⊢
      exact hmem
    · obtain rfl : b = !b' := Bool.eq_not_of_ne (Ne.symm hb)
      rw [hother]
      simp [PickPc.behind, hmem]
  refine ⟨⟨hs' ▸ hs.wf, by simp [hpc'], hex ▸ hahead.1, fun hpop => ?_⟩, ?_⟩
  · simp [hpc'] at hpop
  · refine Nat.lt_of_le_of_lt (rank_le ..) ?_
    rw [rank, if_neg (by simp [hf]), hex, hpc, hpc']
    have hle := PickPc.toPick_le b (!(ex.readyQueue (!b)).isEmpty) (.resumed b')
    have hahead := hahead.2
    simp only [PickPc.left] at hle ⊢
    simp only [PickPc.toPick] at hle ⊢
    omega

/-- A fault leaves everything in its place. -/
lemma Due.faults (hs : s.Due e b tk) (hf : s.fault = false) :
    Due e b tk { s with fault := true } ∧ rank e b tk { s with fault := true } < s.rank e b tk :=
  ⟨⟨hs.wf, hs.inside, hs.mem, hs.front⟩, by rw [rank_of_fault] <;> simp [hs.rank_pos hf]⟩

/-- In `Process`, out of `Resume` and of the wait, the thread can make its next queue call. -/
lemma exists_call (hpc : s.pc e ≠ .outside) (hresumed : ∀ last, s.pc e ≠ .resumed last)
    (hwaiting : ∀ last, s.pc e ≠ .waiting last) : ∃ s', s.call e = some s' := by
  unfold call
  cases hpc' : s.pc e with
  | outside => exact absurd hpc' hpc
  | resumed last => exact absurd hpc' (hresumed last)
  | waiting last => exact absurd hpc' (hwaiting last)
  | front fromAwoken =>
    dsimp only
    split <;> exact ⟨_, rfl⟩
  | pop fromAwoken => cases fromAwoken <;> dsimp only <;> split <;> exact ⟨_, rfl⟩
  | _ last => exact ⟨_, rfl⟩

/-- The thread can make its next move. -/
lemma exists_move (hf : s.fault = false) (hpc : s.pc e ≠ .outside) :
    ∃ a s', a.moves e = true ∧ s.Keeps e b tk a ∧ s.step size a = some s' := by
  by_cases hresumed : ∃ last, s.pc e = .resumed last
  · obtain ⟨last, hpc'⟩ := hresumed
    exact ⟨.return e false, s.goto e (.bothRunnable last), by simp [PickAct.moves], fun _ => rfl,
      by simp [step, hf, hpc']⟩
  by_cases hwaiting : ∃ last, s.pc e = .waiting last
  · obtain ⟨last, hpc'⟩ := hwaiting
    exact ⟨.wake e, s.goto e (.bothRunnable last), by simp [PickAct.moves], trivial,
      by simp [step, hf, hpc']⟩
  obtain ⟨s', h⟩ := exists_call hpc (fun last h => hresumed ⟨last, h⟩) fun last h =>
    hwaiting ⟨last, h⟩
  exact ⟨.call e, s', by simp [PickAct.moves], trivial, by simp [step, hf, h]⟩

end PickState

end CoroutineCpp
