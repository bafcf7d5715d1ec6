import CoroutineCpp.Model.Containers
import CoroutineCpp.Model.Coroutine
import Mathlib.Algebra.Ring.Nat
import Mathlib.Data.Int.Notation

/-!
# `CoExecutor`

The data of an executor and the pieces of its member functions that work on that data alone
(`src/coexecutor.h`, `src/coexecutor.cpp`).  What also touches the tasks, other executors or the
thread's control (`Process`, `Hold`, `Wakeup`) is put together from these pieces in
`Model/Sched.lean`.

A `CoTaskPtr` is the address of a task object, `0` being the null pointer; addresses are never
reused, as a `weak_ptr` looks at the control block and not at the address.  A read of the clock
is an argument.
-/

namespace CoroutineCpp

/-! ## Tasks -/

/-- `std::shared_ptr<CoTask>`, by the address it holds. -/
abbrev CoTaskPtr := ℕ

/-- The null task pointer. -/
abbrev nullptr : CoTaskPtr := 0

/-- `CoExecutor::CoTask`.  Each task owns its coroutine, as the constructors from a function make
it. -/
structure CoTask where
  /-- `co` -/
  co : Coroutine := {}
  /-- `proc`: left uninitialised by the constructors and set by `Process` -/
  proc : Option ℕ := none
  /-- A frame of `HoldThere` or `YieldCurrent` on the coroutine's own stack holds a `shared_ptr`
  to the task (the parameter or local `tk`). -/
  stackRef : Bool := false
  deriving DecidableEq, Repr

/-- `CoExecutor::RecoveryEntry`, the weak pointer by the address of its task. -/
structure RecoveryEntry where
  tk : CoTaskPtr
  id : ℤ
  deriving DecidableEq, Repr

/-! ## The executor's data -/

/-- `TRIGGER_GC_TASK_SIZE` -/
def triggerGcTaskSize : ℕ := 64

/-- `COROUTINE_TIMEDOUT_US` -/
def coroutineTimedoutUs : ℕ := 100 * 1000

/-- `GC_INTERVAL_MS` -/
def gcIntervalMs : ℕ := 2000

/-- The members of a `CoExecutor` its functions read or write. -/
structure CoExecutor where
  /-- `m_id`, an `int32_t` -/
  id : ℤ := 0
  /-- `m_runnable_queue` -/
  runnableQueue : ThreadSafeDeque CoTaskPtr := []
  /-- `m_waiting_queue` -/
  waitingQueue : ThreadSafeDeque CoTaskPtr := []
  /-- `m_finished_queue` -/
  finishedQueue : ThreadSafeDeque CoTaskPtr := []
  /-- `m_awoken_queue` -/
  awokenQueue : ThreadSafeDeque CoTaskPtr := []
  /-- `m_running_task` -/
  runningTask : CoTaskPtr := nullptr
  /-- `m_waiting`, set by the constructor -/
  waiting : Bool := true
  /-- `m_is_stopping` -/
  isStopping : Bool := false
  /-- `m_switch_cnt` -/
  switchCnt : ℕ := 0
  /-- `m_switched_cnt` -/
  switchedCnt : ℕ := 0
  /-- `m_tick` -/
  tick : ℕ := 0
  /-- `m_last_gc_tick` -/
  lastGcTick : ℕ := 0
  /-- `m_clean_right_now` -/
  cleanRightNow : Bool := false
  deriving DecidableEq, Repr

/-- Subtraction of two `size_t` or `uint64_t` values. -/
def wrapSub (a b : ℕ) : ℕ := if b ≤ a then a - b else a + 2 ^ 64 - b

lemma wrapSub_of_le {a b : ℕ} (h : b ≤ a) : wrapSub a b = a - b := if_pos h

namespace CoExecutor

/-- `GetRunnableCount` -/
def getRunnableCount (ex : CoExecutor) : ℕ := ex.runnableQueue.length

/-- `GetWaitingCount` -/
def getWaitingCount (ex : CoExecutor) : ℕ := ex.waitingQueue.length

/-- `GetValidTasksCount` -/
def getValidTasksCount (ex : CoExecutor) : ℕ := ex.runnableQueue.length + ex.waitingQueue.length

/-- `IsBlocking`, when the clock reads `now` microseconds. -/
def isBlocking (now : ℕ) (ex : CoExecutor) : Bool :=
  decide (coroutineTimedoutUs < wrapSub now ex.tick) && decide (ex.switchCnt ≠ ex.switchedCnt)

/-! ## Submission -/

/-- `AddTask(CoTaskPtr)`; the second component tells whether `m_cv.notify_all` was called. -/
def addTask (tk : CoTaskPtr) (ex : CoExecutor) : CoExecutor × Bool :=
  if tk = nullptr then (ex, false)
  else ({ ex with runnableQueue := ex.runnableQueue.pushBack tk }, ex.waiting)

/-- `AddTask(begin, end)`: one locked loop of unchecked pushes, then one notification. -/
def addTasks (tks : List CoTaskPtr) (ex : CoExecutor) : CoExecutor × Bool :=
  ({ ex with runnableQueue := tks.foldl ThreadSafeDeque.pushBack ex.runnableQueue }, ex.waiting)

/-- `GiveUpTasks`: the last `n` runnable tasks, or all of them for `n = 0`, go to `giveups`. -/
def giveUpTasks (giveups : ThreadSafeDeque CoTaskPtr) (n : ℕ) (ex : CoExecutor) :
    CoExecutor × ThreadSafeDeque CoTaskPtr :=
  let count := if n > 0 then n else ex.runnableQueue.length
  let r := ThreadSafeDeque.popBackAndAppend count ex.runnableQueue giveups
  ({ ex with runnableQueue := r.1 }, r.2)

/-! ## The pick -/

/-- The branch the loop of `Process` takes: `some true` for the awoken queue, `some false` for
the runnable queue, `none` to wait because both are empty.  `last` is
`last_retrieve_from_awoken`. -/
def chooseQueue (last : Bool) (ex : CoExecutor) : Option Bool :=
  if !ex.runnableQueue.isEmpty && !ex.awokenQueue.isEmpty then
    if last then some false else some true
  else if ex.runnableQueue.isEmpty && !ex.awokenQueue.isEmpty then some true
  else if !ex.runnableQueue.isEmpty && ex.awokenQueue.isEmpty then some false
  else none

/-- `AssignRunnableTask`; `none` where `Front` or `PopFront` meets an empty deque.  The returned
flag is the function's result. -/
def assignRunnableTask (fromAwoken : Bool) (ex : CoExecutor) : Option (CoExecutor × Bool) :=
  if fromAwoken then do
    let tk ← ex.awokenQueue.front
    let rest ← ex.awokenQueue.popFront
    some ({ ex with runningTask := tk, awokenQueue := rest }, true)
  else do
    let tk ← ex.runnableQueue.front
    let rest ← ex.runnableQueue.popFront
    some ({ ex with runningTask := tk, runnableQueue := rest }, false)

/-- The bookkeeping of `Process` between the pick and `Resume`. -/
def beforeResume (nowUs : ℕ) (ex : CoExecutor) : CoExecutor :=
  { ex with switchCnt := ex.switchCnt + 1, tick := nowUs }

/-! ## Waiting, waking and cleaning -/

/-- `Clean`; the second component lists the tasks the finished queue let go of. -/
def clean (nowMs : ℕ) (ex : CoExecutor) : CoExecutor × List CoTaskPtr :=
  ({ ex with lastGcTick := nowMs, finishedQueue := [] }, ex.finishedQueue)

/-- `Predicate`, when the clock reads `nowMs` milliseconds. -/
def predicate (nowMs : ℕ) (ex : CoExecutor) : Bool :=
  let hasTask := !ex.runnableQueue.isEmpty
  let hasDoneTask := !ex.finishedQueue.isEmpty
  let timeout := decide (gcIntervalMs < wrapSub nowMs ex.lastGcTick)
  let needGc := !hasTask && decide (ex.lastGcTick ≠ 0) && hasDoneTask && timeout
  hasTask || ex.isStopping || needGc || !ex.awokenQueue.isEmpty

/-- `WaitForCondition` and `WaitForConditionFor` up to the wait on `m_cv`. -/
def enterWait (ex : CoExecutor) : CoExecutor := { ex with waiting := true }

/-- `WaitForCondition` and `WaitForConditionFor` after the wait. -/
def leaveWait (nowMs : ℕ) (ex : CoExecutor) : CoExecutor :=
  { ex with
    waiting := false
    cleanRightNow := if gcIntervalMs < wrapSub nowMs ex.lastGcTick then true else ex.cleanRightNow }

/-- The rest of the idle branch of `Process`: clean where the wait asked for it. -/
def idleClean (nowMs : ℕ) (ex : CoExecutor) : CoExecutor × List CoTaskPtr :=
  if ex.cleanRightNow && !ex.finishedQueue.isEmpty then
    clean nowMs { ex with cleanRightNow := false }
  else (ex, [])

/-- The loop of `WakeupAllTasks` on the waiting and the awoken queue. -/
def wakeupLoop : ThreadSafeDeque CoTaskPtr → ThreadSafeDeque CoTaskPtr →
    ThreadSafeDeque CoTaskPtr × ThreadSafeDeque CoTaskPtr
  | [], awoken => ([], awoken)
  | tk :: waiting, awoken => wakeupLoop waiting (awoken.pushBack tk)

/-- `WakeupAllTasks`, run without interference. -/
def wakeupAllTasks (ex : CoExecutor) : CoExecutor :=
  let r := wakeupLoop ex.waitingQueue ex.awokenQueue
  { ex with waitingQueue := r.1, awokenQueue := r.2 }

/-- `~CoExecutor`: the body, then the destructors of the members that still hold task pointers. -/
def destroy (nowMs : ℕ) (ex : CoExecutor) : CoExecutor :=
  let ex := if !ex.finishedQueue.isEmpty then (ex.clean nowMs).1 else ex
  let ex := { ex with runnableQueue := [] }
  let ex := { ex with waitingQueue := [] }
  { ex with awokenQueue := [], finishedQueue := [], runningTask := nullptr }

/-- What `Process` has done when the code after `Resume` is through. -/
structure Resumed where
  ex : CoExecutor
  /-- the tasks dropped by `Clean` -/
  reclaimed : List CoTaskPtr
  /-- the exception `Process` rethrows, where it does -/
  rethrown : Option ExceptionPtr

/-- `Process` from the return of `Resume` to the end of the iteration, for the status and the
exception of the coroutine that was resumed. -/
def afterResume (status : Status) (exPtr : Option ExceptionPtr) (nowMs : ℕ) (ex : CoExecutor) :
    Resumed :=
  let ex := { ex with switchedCnt := ex.switchedCnt + 1 }
  let triggerGc (ex : CoExecutor) : Resumed :=
    if triggerGcTaskSize ≤ ex.finishedQueue.length then
      let r := ex.clean nowMs
      { ex := r.1, reclaimed := r.2, rethrown := none }
    else { ex := ex, reclaimed := [], rethrown := none }
  match status with
  | .finished =>
    triggerGc { ex with
      finishedQueue := ex.finishedQueue.pushBack ex.runningTask, runningTask := nullptr }
  | .except =>
    let ex := { ex with finishedQueue := ex.finishedQueue.pushBack ex.runningTask }
    match exPtr with
    | some e => { ex := { ex with runningTask := nullptr }, reclaimed := [], rethrown := some e }
    | none => triggerGc ex
  | _ => triggerGc ex

/-! ## What each function does -/

lemma foldl_pushBack (tks q : ThreadSafeDeque CoTaskPtr) :
    tks.foldl ThreadSafeDeque.pushBack q = q ++ tks := by
  induction tks generalizing q with
  | nil => simp
  | cons tk tks ih => simp [ih, ThreadSafeDeque.pushBack]

lemma addTask_fst (tk : CoTaskPtr) (ex : CoExecutor) :
    (ex.addTask tk).1 =
      { ex with runnableQueue := ex.runnableQueue ++ if tk = nullptr then [] else [tk] } := by
  unfold addTask
  split <;> simp [ThreadSafeDeque.pushBack]

@[simp] lemma addTasks_fst (tks : List CoTaskPtr) (ex : CoExecutor) :
    (ex.addTasks tks).1 = { ex with runnableQueue := ex.runnableQueue ++ tks } := by
  simp [addTasks, foldl_pushBack]

/-- `GiveUpTasks` cuts a block off the back of the runnable queue and appends it to `giveups`. -/
lemma giveUpTasks_split (giveups : ThreadSafeDeque CoTaskPtr) (n : ℕ) (ex : CoExecutor) :
    ∃ kept block, ex.runnableQueue = kept ++ block ∧
      ex.giveUpTasks giveups n = ({ ex with runnableQueue := kept }, giveups ++ block) ∧
      block.length =
        min (if n > 0 then n else ex.runnableQueue.length) ex.runnableQueue.length := by
  obtain ⟨block, hsplit, hout, hlen⟩ :=
    ThreadSafeDeque.popBackAndAppend_split (if n > 0 then n else ex.runnableQueue.length)
      ex.runnableQueue giveups
  refine ⟨_, block, hsplit, ?_, hlen⟩
  rw [← hout]
  rfl

lemma wakeupLoop_eq (waiting awoken : ThreadSafeDeque CoTaskPtr) :
    wakeupLoop waiting awoken = ([], awoken ++ waiting) := by
  induction waiting generalizing awoken with
  | nil => simp [wakeupLoop]
  | cons tk waiting ih => simp [wakeupLoop, ih, ThreadSafeDeque.pushBack]

lemma wakeupAllTasks_eq (ex : CoExecutor) :
    ex.wakeupAllTasks =
      { ex with waitingQueue := [], awokenQueue := ex.awokenQueue ++ ex.waitingQueue } := by
  simp [wakeupAllTasks, wakeupLoop_eq]

/-- The two ways a pick can go: the front of the awoken queue, or the front of the runnable
queue. -/
lemma assignRunnableTask_of_chooseQueue {last b : Bool} {ex : CoExecutor}
    (h : ex.chooseQueue last = some b) :
    (b = true ∧ ∃ tk rest, ex.awokenQueue = tk :: rest ∧
      ex.assignRunnableTask b = some ({ ex with runningTask := tk, awokenQueue := rest }, true)) ∨
    (b = false ∧ ∃ tk rest, ex.runnableQueue = tk :: rest ∧
      ex.assignRunnableTask b =
        some ({ ex with runningTask := tk, runnableQueue := rest }, false)) := by
  unfold chooseQueue at h
  cases hr : ex.runnableQueue <;> cases ha : ex.awokenQueue <;> cases last <;>
    simp [hr, ha] at h <;> subst h <;> simp [assignRunnableTask, hr, ha]

/-- `Process` goes to wait exactly when it finds both queues empty. -/
lemma chooseQueue_eq_none_iff {last : Bool} {ex : CoExecutor} :
    ex.chooseQueue last = none ↔ ex.runnableQueue = [] ∧ ex.awokenQueue = [] := by
  unfold chooseQueue
  cases ex.runnableQueue <;> cases ex.awokenQueue <;> cases last <;> simp

/-- The tasks an iteration adds to the finished queue. -/
def justFinished (status : Status) (tk : CoTaskPtr) : List CoTaskPtr :=
  if status = .finished ∨ status = .except then [tk] else []

/-- The end of an iteration leaves the three queues of pending tasks alone. -/
lemma afterResume_frame (status : Status) (exPtr : Option ExceptionPtr) (nowMs : ℕ)
    (ex : CoExecutor) :
    let r := ex.afterResume status exPtr nowMs
    r.ex.runnableQueue = ex.runnableQueue ∧ r.ex.waitingQueue = ex.waitingQueue ∧
      r.ex.awokenQueue = ex.awokenQueue ∧ r.ex.id = ex.id ∧ r.ex.isStopping = ex.isStopping := by
  cases status <;> cases exPtr <;> simp only [afterResume] <;> (try split) <;> simp [clean]

/-- Whether or not `Clean` ran, what was finished and what has just finished is now in the
finished queue or reclaimed, in order. -/
lemma afterResume_finishedQueue (status : Status) (exPtr : Option ExceptionPtr) (nowMs : ℕ)
    (ex : CoExecutor) :
    let r := ex.afterResume status exPtr nowMs
    r.reclaimed ++ r.ex.finishedQueue =
      ex.finishedQueue ++ justFinished status ex.runningTask := by
  cases status <;> cases exPtr <;> simp only [afterResume] <;> (try split) <;>
    simp [clean, justFinished, ThreadSafeDeque.pushBack]

/-- `Process` rethrows exactly the exception of a coroutine that ended by throwing. -/
lemma afterResume_rethrown (status : Status) (exPtr : Option ExceptionPtr) (nowMs : ℕ)
    (ex : CoExecutor) :
    (ex.afterResume status exPtr nowMs).rethrown = if status = .except then exPtr else none := by
  cases status <;> cases exPtr <;> simp only [afterResume] <;> (try split) <;> simp_all

/-- The end of an iteration counts one `Resume` that has returned. -/
lemma afterResume_counts (status : Status) (exPtr : Option ExceptionPtr) (nowMs : ℕ)
    (ex : CoExecutor) :
    (ex.afterResume status exPtr nowMs).ex.switchCnt = ex.switchCnt ∧
      (ex.afterResume status exPtr nowMs).ex.switchedCnt = ex.switchedCnt + 1 := by
  cases status <;> cases exPtr <;> simp only [afterResume] <;> (try split) <;> simp [clean]

lemma idleClean_frame (nowMs : ℕ) (ex : CoExecutor) :
    let r := ex.idleClean nowMs
    r.1.runnableQueue = ex.runnableQueue ∧ r.1.waitingQueue = ex.waitingQueue ∧
      r.1.awokenQueue = ex.awokenQueue ∧ r.1.id = ex.id ∧ r.1.isStopping = ex.isStopping ∧
      r.1.runningTask = ex.runningTask := by
  unfold idleClean
  split <;> simp [clean]

lemma idleClean_finishedQueue (nowMs : ℕ) (ex : CoExecutor) :
    (ex.idleClean nowMs).2 ++ (ex.idleClean nowMs).1.finishedQueue = ex.finishedQueue := by
  unfold idleClean
  split <;> simp [clean]

lemma idleClean_counts (nowMs : ℕ) (ex : CoExecutor) :
    (ex.idleClean nowMs).1.switchCnt = ex.switchCnt ∧
      (ex.idleClean nowMs).1.switchedCnt = ex.switchedCnt := by
  unfold idleClean
  split <;> simp [clean]

end CoExecutor

end CoroutineCpp
