import CoroutineCpp.Framework.TransitionSystem
import CoroutineCpp.Model.CoExecutor
import CoroutineCpp.Model.Sched

/-!
# One executor, one access at a time

`Model/Sched.lean` takes a round of `Process` as one step.  Here a single executor runs at the
granularity at which its thread and the threads around it meet: the thread in `Process` and its
wait on `m_cv`, the callers of `AddTask`, `WakeupFromEntry` and `WakeupAllTasks`, the dispatcher's
`GiveUpTasks`, `Stop`, and any number of evaluations of `IsBlocking`, all interleaved.

A step is one access of a shared member, one call on a queue, one evaluation of `Predicate`, one
notification, one block, or one move of a coroutine body.  Four steps of the thread are more than
that: `choose` makes all tests of the two queues at one instant, `assign` is `Front` and `PopFront`,
and `gcTest` and `idleClean` go with the `Clean` that follows them.  What is counted in moves of the
thread is counted in these steps; `Model/PickSteps.lean` has the tests and the pick call by call.

A queue call that takes the lock of the runnable queue is enabled while no batch `AddTask` holds
that lock.  `m_mtx` is locked by the thread in `Process` only (nothing calls `NotifyCondition`), so
that locking it is no step of its own.  A waiting thread may come back at any time (`spurious`).

The microsecond clock is part of the state and never goes back; a reading of the millisecond clock
is part of the label.  What the coroutine bodies do is in the labels too, and where a body calls
the executor it is a caller like any other.
-/

namespace CoroutineCpp

open Framework

/-! ## The state -/

/-- Where the thread stands in `Process`. -/
inductive LoopPc
  /-- not in `Process` -/
  | outside
  /-- `while (!IsStopped())` -/
  | test
  /-- the tests of the runnable and the awoken queue -/
  | choose
  /-- `AssignRunnableTask(fromAwoken)`, `m_running_task->proc = this` -/
  | assign (fromAwoken : Bool)
  /-- `++m_switch_cnt` -/
  | count
  /-- `m_tick = GetCurrentUs()` -/
  | stamp
  /-- `m_running_task->co->Resume()` -/
  | resume
  /-- the coroutine runs -/
  | inside
  /-- the coroutine is in `HoldThere`, between the push and `GiveUp` -/
  | holding
  /-- `Resume` has returned: `++m_switched_cnt` -/
  | counted
  /-- the switch over the status -/
  | settle
  /-- `m_finished_queue.Size() >= TRIGGER_GC_TASK_SIZE` -/
  | gcTest
  /-- `WaitForCondition` or, for a non-zero time-out, `WaitForConditionFor`: `m_waiting = true` -/
  | setWaiting
  /-- the predicate of the wait, for the last time where the time is over -/
  | evaluate (timedOut : Bool)
  /-- the predicate was false: the wait is about to release `m_mtx` and block -/
  | block
  /-- blocked on `m_cv` -/
  | blocked (notified : Bool)
  /-- after the wait: `m_clean_right_now` and `m_waiting = false` -/
  | leave
  /-- `if (m_clean_right_now && !m_finished_queue.Empty())` -/
  | idleClean
  deriving DecidableEq, Repr

/-- Where another thread stands that calls the executor. -/
inductive ClientPc
  | idle
  /-- `AddTask(tk)`: `m_runnable_queue.PushBack(tk)` -/
  | push (tk : CoTaskPtr)
  /-- `AddTask(begin, end)`: the pushes, under the lock of the runnable queue -/
  | pushAll (tks : List CoTaskPtr)
  /-- `if (m_waiting)`; `locked` tells whether the caller holds the lock of the runnable queue -/
  | readWaiting (locked : Bool)
  /-- `m_cv.notify_all()` -/
  | notify (locked : Bool)
  /-- the end of the scope of `lk` in `AddTask(begin, end)` -/
  | unlock
  /-- `WakeupFromEntry`: the search in and the removal from the waiting queue; `kept` tells whether
  user code keeps a pointer to the task -/
  | eraseWaiting (tk : CoTaskPtr) (kept : Bool)
  /-- `m_awoken_queue.PushBack(entry.tk.lock())` -/
  | pushAwoken (tk : CoTaskPtr) (kept : Bool)
  /-- `WakeupAllTasks`: `!m_waiting_queue.Empty()` -/
  | testWaiting
  /-- `m_waiting_queue.Front()` -/
  | frontWaiting
  /-- `m_awoken_queue.PushBack(tk)` -/
  | pushFront (tk : CoTaskPtr)
  /-- `m_waiting_queue.PopFront()` -/
  | popWaiting
  deriving DecidableEq, Repr

/-- An evaluation of `IsBlocking`, by what it has read so far.  The operands of `-` and of `!=` may
be read in either order. -/
structure Evaluation where
  /-- history: the number of `Resume` calls that had returned when the evaluation began -/
  returnedBefore : ℕ
  /-- `GetCurrentUs()` -/
  clock : Option ℕ := none
  /-- `m_tick` -/
  tick : Option ℕ := none
  /-- history: the number of values that had been stored in `m_tick` when it was read -/
  stamps : ℕ := 0
  /-- `m_switch_cnt` -/
  switchCnt : Option ℕ := none
  /-- `m_switched_cnt` -/
  switchedCnt : Option ℕ := none
  /-- the value of `IsBlocking` and the time at which it was known -/
  result : Option (Bool × ℕ) := none
  deriving DecidableEq, Repr

namespace Evaluation

/-- After an operand of `GetCurrentUs() - m_tick > COROUTINE_TIMEDOUT_US` has been read: with the
second one, a comparison that fails ends the evaluation. -/
def compareElapsed (nowUs : ℕ) (v : Evaluation) : Evaluation :=
  match v.clock, v.tick with
  | some clock, some tick =>
    if coroutineTimedoutUs < wrapSub clock tick then v else { v with result := some (false, nowUs) }
  | _, _ => v

/-- After an operand of `m_switch_cnt != m_switched_cnt` has been read. -/
def compareCounts (nowUs : ℕ) (v : Evaluation) : Evaluation :=
  match v.switchCnt, v.switchedCnt with
  | some switchCnt, some switchedCnt =>
    { v with result := some (decide (switchCnt ≠ switchedCnt), nowUs) }
  | _, _ => v

/-- The first comparison has been made and did not end the evaluation. -/
def elapsed (v : Evaluation) : Bool := v.clock.isSome && v.tick.isSome && v.result.isNone

end Evaluation

/-- An executor with its thread, its callers and the evaluations of its `IsBlocking`. -/
structure LoopState where
  ex : CoExecutor := {}
  pc : LoopPc := .outside
  /-- the argument of `Process` -/
  timeoutMs : ℕ := 0
  /-- `last_retrieve_from_awoken` -/
  last : Bool := false
  /-- the coroutine of each task -/
  tasks : CoTaskPtr → Coroutine := fun _ => {}
  clients : ℕ → ClientPc := fun _ => .idle
  /-- the client that holds the lock of the runnable queue -/
  queueLock : Option ℕ := none
  /-- the microsecond clock -/
  nowUs : ℕ := 0
  evaluations : ℕ → Option Evaluation := fun _ => none
  fault : Option Fault := none
  /-- history: the number of values stored in `m_tick` -/
  stamps : ℕ := 0
  /-- history: the times of the calls of `Resume` -/
  resumes : List ℕ := []
  /-- history: the number of calls of `Resume` that have returned -/
  returned : ℕ := 0
  /-- history: the exceptions that left `Process` -/
  thrown : List ExceptionPtr := []

/-- The steps. -/
inductive LoopAct
  /-- the owner calls `Process` -/
  | process (timeoutMs : ℕ)
  /-- the next step of the thread in `Process` -/
  | thread (nowMs : ℕ)
  /-- the wait comes back, notified or not -/
  | spurious
  /-- the time of `WaitForConditionFor` is over -/
  | timeout
  /-- the body calls `Hold`: the push onto the waiting queue -/
  | holdPush
  /-- the body goes on in `HoldThere`: the switch back to `Process` -/
  | holdSwitch
  /-- the body calls `Yield` -/
  | yield
  /-- the body returns -/
  | finish
  /-- the body throws -/
  | throw (ex : ExceptionPtr)
  | addTask (c : ℕ) (tk : CoTaskPtr)
  | addTasks (c : ℕ) (tks : List CoTaskPtr)
  | wakeupFromEntry (c : ℕ) (tk : CoTaskPtr) (kept : Bool)
  | wakeupAllTasks (c : ℕ)
  /-- the next step of client `c` -/
  | client (c : ℕ)
  /-- the dispatcher's `GiveUpTasks` -/
  | giveUpTasks (n : ℕ)
  /-- `m_is_stopping = true` in `CoScheduler::Stop` -/
  | stop
  /-- evaluation `v` of `IsBlocking` begins -/
  | isBlocking (v : ℕ)
  | readClock (v : ℕ)
  | readTick (v : ℕ)
  | readSwitchCnt (v : ℕ)
  | readSwitchedCnt (v : ℕ)
  /-- time passes -/
  | elapse (us : ℕ)
  deriving DecidableEq

namespace LoopState

/-! ## Updates -/

/-- Move client `c`. -/
def setClient (s : LoopState) (c : ℕ) (pc : ClientPc) : LoopState :=
  { s with clients := Function.update s.clients c pc }

/-- Replace evaluation `v`. -/
def setEvaluation (s : LoopState) (v : ℕ) (ev : Evaluation) : LoopState :=
  { s with evaluations := Function.update s.evaluations v (some ev) }

/-- Record a fault. -/
def fail (s : LoopState) (f : Fault) : LoopState := { s with fault := some f }

/-- `m_cv.notify_all()` -/
def notifyAll : LoopPc → LoopPc
  | .blocked _ => .blocked true
  | pc => pc

/-- Some `shared_ptr` to the task `tk` is left inside the executor, the stack of a suspended
coroutine included. -/
def owned (s : LoopState) (tk : CoTaskPtr) : Bool :=
  s.ex.runnableQueue.contains tk || s.ex.waitingQueue.contains tk || s.ex.awokenQueue.contains tk ||
    s.ex.finishedQueue.contains tk || s.ex.runningTask = tk || (s.tasks tk).status = .hold

/-! ## The thread in `Process` -/

/-- `Resume` on the running task, up to the switch into it. -/
def resumeTask (s : LoopState) : LoopState :=
  let called := { s with resumes := s.resumes ++ [s.nowUs] }
  match (s.tasks s.ex.runningTask).resume 0 with
  | .aborted => s.fail .assertion
  | .inert => { called with pc := .counted, returned := s.returned + 1 }
  | .switched co =>
    { called with pc := .inside, tasks := Function.update s.tasks s.ex.runningTask co }

/-- The switch over the status of the task that was resumed. -/
def settle (s : LoopState) : LoopState :=
  let co := s.tasks s.ex.runningTask
  let finished := { s.ex with finishedQueue := s.ex.finishedQueue.pushBack s.ex.runningTask }
  match co.status with
  | .finished => { s with pc := .gcTest, ex := { finished with runningTask := nullptr } }
  | .except =>
    match co.exPtr with
    | some ex =>
      { s with
        pc := .outside, ex := { finished with runningTask := nullptr }, thrown := s.thrown ++ [ex] }
    | none => { s with pc := .gcTest, ex := finished }
  | _ => { s with pc := .gcTest }

/-- The next step of the thread in `Process`. -/
def threadStep (s : LoopState) (nowMs : ℕ) : Option LoopState :=
  match s.pc with
  | .outside => none
  | .test => some { s with pc := if s.ex.isStopping then .outside else .choose }
  | .choose =>
    if s.queueLock = none then
      match s.ex.chooseQueue s.last with
      | none => some { s with pc := .setWaiting }
      | some fromAwoken => some { s with pc := .assign fromAwoken }
    else none
  | .assign fromAwoken =>
    if fromAwoken = true ∨ s.queueLock = none then
      match s.ex.assignRunnableTask fromAwoken with
      | none => some (s.fail .emptyDeque)
      | some (ex, last) =>
        if ex.runningTask = nullptr then some (s.fail .nullTask)
        else some { s with pc := .count, ex := ex, last := last }
    else none
  | .count => some { s with pc := .stamp, ex := { s.ex with switchCnt := s.ex.switchCnt + 1 } }
  | .stamp =>
    some { s with pc := .resume, ex := { s.ex with tick := s.nowUs }, stamps := s.stamps + 1 }
  | .resume => some s.resumeTask
  | .inside => none
  | .holding => none
  | .counted =>
    some { s with pc := .settle, ex := { s.ex with switchedCnt := s.ex.switchedCnt + 1 } }
  | .settle => some s.settle
  | .gcTest =>
    if triggerGcTaskSize ≤ s.ex.finishedQueue.length then
      some { s with pc := .test, ex := (s.ex.clean nowMs).1 }
    else some { s with pc := .test }
  | .setWaiting => some { s with pc := .evaluate false, ex := s.ex.enterWait }
  | .evaluate timedOut =>
    if s.queueLock = none then
      if s.ex.predicate nowMs then some { s with pc := .leave }
      else if timedOut then some { s with pc := .leave, ex := { s.ex with isStopping := true } }
      else some { s with pc := .block }
    else none
  | .block => some { s with pc := .blocked false }
  | .blocked notified => if notified then some { s with pc := .evaluate false } else none
  | .leave => some { s with pc := .idleClean, ex := s.ex.leaveWait nowMs }
  | .idleClean => some { s with pc := .test, ex := (s.ex.idleClean nowMs).1 }

/-- The running coroutine leaves the CPU, changed by `f`: `Resume` returns. -/
def switchOut (s : LoopState) (f : Coroutine → Coroutine) : LoopState :=
  { s with
    pc := .counted, returned := s.returned + 1
    tasks := Function.update s.tasks s.ex.runningTask (f (s.tasks s.ex.runningTask)) }

/-! ## The other threads -/

/-- The next step of client `c`. -/
def clientStep (s : LoopState) (c : ℕ) : Option LoopState :=
  match s.clients c with
  | .idle => none
  | .push tk =>
    if s.queueLock = none then
      some { s.setClient c (.readWaiting false) with
        ex := { s.ex with runnableQueue := s.ex.runnableQueue.pushBack tk } }
    else none
  | .pushAll tks =>
    if s.queueLock = none then
      some { s.setClient c (.readWaiting true) with
        queueLock := some c
        ex := { s.ex with
          runnableQueue := tks.foldl ThreadSafeDeque.pushBack s.ex.runnableQueue } }
    else none
  | .readWaiting locked =>
    some (s.setClient c
      (if s.ex.waiting then .notify locked else if locked then .unlock else .idle))
  | .notify locked =>
    some { s.setClient c (if locked then .unlock else .idle) with pc := notifyAll s.pc }
  | .unlock => some { s.setClient c .idle with queueLock := none }
  | .eraseWaiting tk kept =>
    if tk ∈ s.ex.waitingQueue then
      some { s.setClient c (.pushAwoken tk kept) with
        ex := { s.ex with waitingQueue := s.ex.waitingQueue.erase tk } }
    else some (s.setClient c .idle)
  | .pushAwoken tk kept =>
    some { s.setClient c .idle with
      ex := { s.ex with
        awokenQueue := s.ex.awokenQueue.pushBack (if s.owned tk || kept then tk else nullptr) } }
  | .testWaiting =>
    some (s.setClient c (if s.ex.waitingQueue.isEmpty then .idle else .frontWaiting))
  | .frontWaiting =>
    match s.ex.waitingQueue.front with
    | none => some (s.fail .emptyDeque)
    | some tk => some (s.setClient c (.pushFront tk))
  | .pushFront tk =>
    some { s.setClient c .popWaiting with
      ex := { s.ex with awokenQueue := s.ex.awokenQueue.pushBack tk } }
  | .popWaiting =>
    match s.ex.waitingQueue.popFront with
    | none => some (s.fail .emptyDeque)
    | some rest =>
      some { s.setClient c .testWaiting with ex := { s.ex with waitingQueue := rest } }

/-- A call begins on a client that is idle. -/
def begin (s : LoopState) (c : ℕ) (pc : ClientPc) : Option LoopState :=
  if s.clients c = .idle then some (s.setClient c pc) else none

/-- Evaluation `v` reads an operand, where `ready` holds of it: `read` stores what it has read. -/
def readOperand (s : LoopState) (v : ℕ) (ready : Evaluation → Bool)
    (read : Evaluation → Evaluation) : Option LoopState :=
  match s.evaluations v with
  | none => none
  | some ev => if ready ev then some (s.setEvaluation v (read ev)) else none

/-- One step, `none` where the label is not enabled. -/
def act (s : LoopState) : LoopAct → Option LoopState
  | .process timeoutMs =>
    if s.pc = .outside then some { s with pc := .test, timeoutMs := timeoutMs, last := false }
    else none
  | .thread nowMs => s.threadStep nowMs
  | .spurious =>
    match s.pc with
    | .blocked _ => some { s with pc := .evaluate false }
    | _ => none
  | .timeout =>
    match s.pc with
    | .blocked _ => if s.timeoutMs ≠ 0 then some { s with pc := .evaluate true } else none
    | _ => none
  | .holdPush =>
    if s.pc = .inside then
      some { s with
        pc := .holding
        ex := { s.ex with waitingQueue := s.ex.waitingQueue.pushBack s.ex.runningTask } }
    else none
  | .holdSwitch => if s.pc = .holding then some (s.switchOut Coroutine.giveUp) else none
  | .yield => if s.pc = .inside then some (s.switchOut Coroutine.giveUp) else none
  | .finish => if s.pc = .inside then some (s.switchOut Coroutine.runReturned) else none
  | .throw ex => if s.pc = .inside then some (s.switchOut (Coroutine.runThrew ex)) else none
  | .addTask c tk => s.begin c (if tk = nullptr then .idle else .push tk)
  | .addTasks c tks => s.begin c (.pushAll tks)
  | .wakeupFromEntry c tk kept => s.begin c (.eraseWaiting tk kept)
  | .wakeupAllTasks c => s.begin c .testWaiting
  | .client c => s.clientStep c
  | .giveUpTasks n =>
    if s.queueLock = none then some { s with ex := (s.ex.giveUpTasks [] n).1 } else none
  | .stop => some { s with ex := { s.ex with isStopping := true } }
  | .isBlocking v =>
    if s.evaluations v = none then some (s.setEvaluation v { returnedBefore := s.returned })
    else none
  | .readClock v =>
    s.readOperand v (fun ev => ev.clock.isNone) fun ev =>
      { ev with clock := some s.nowUs }.compareElapsed s.nowUs
  | .readTick v =>
    s.readOperand v (fun ev => ev.tick.isNone) fun ev =>
      { ev with tick := some s.ex.tick, stamps := s.stamps }.compareElapsed s.nowUs
  | .readSwitchCnt v =>
    s.readOperand v (fun ev => ev.elapsed && ev.switchCnt.isNone) fun ev =>
      { ev with switchCnt := some s.ex.switchCnt }.compareCounts s.nowUs
  | .readSwitchedCnt v =>
    s.readOperand v (fun ev => ev.elapsed && ev.switchedCnt.isNone) fun ev =>
      { ev with switchedCnt := some s.ex.switchedCnt }.compareCounts s.nowUs
  | .elapse us => some { s with nowUs := s.nowUs + us }

/-- Nothing moves after a fault. -/
def step (s : LoopState) (a : LoopAct) : Option LoopState :=
  if s.fault.isSome then none else s.act a

end LoopState

/-- A new executor with any id, at any time. -/
def loopSystem : TransitionSystem LoopState LoopAct where
  init s := ∃ (id : ℤ) (nowUs : ℕ), s = { ex := { id := id }, nowUs := nowUs }
  step := LoopState.step

end CoroutineCpp
