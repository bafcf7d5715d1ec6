import CoroutineCpp.Framework.TransitionSystem
import CoroutineCpp.Model.Containers
import Mathlib.Logic.Function.Basic

/-!
# `ThreadPoolExecutor`

The thread pool (`src/threadpool.h`, `src/threadpool.cpp`) as one step function: the workers in
`Runnable`, any number of threads that call `SchedulerTask`, `Start` and `Stop`, the mutex `m_mtx`
with its condition variable, and the lock of the task queue.

A step is an access of a flag, the acquisition or release of a lock, an evaluation of the
predicate of the wait, a block, a notification, or one call on the queue.  A queue call that takes
the lock of the queue itself is one step, enabled while no worker holds that lock through
`LockRef`.  A waiting worker may come back at any time (`spurious`).  Tasks are opaque and may
take any time to run; what they call is a caller like any other.

`Start` makes a thread and puts it into `m_threads` in one step, and the loops of `Stop` over
`m_threads` read its size at each turn; both differ from the source only where a `Stop` goes through
the threads while a `Start` still adds some.
-/

namespace CoroutineCpp

open Framework

/-- `std::function<void()>`, by name. -/
abbrev TaskF := ℕ

/-- Where a worker stands in `Runnable`. -/
inductive WorkerPc
  /-- not created yet -/
  | unborn
  /-- `while (m_started && !m_is_stopping)` -/
  | loop
  /-- `UniLock lk(m_mtx)` in `WaitForCondition`, or the wait takes the mutex back -/
  | acquire
  /-- the predicate of the wait, under `m_mtx` -/
  | evaluate
  /-- the predicate was false: the wait is about to release `m_mtx` and block -/
  | block
  /-- blocked on `m_cv` -/
  | blocked (notified : Bool)
  /-- the predicate was true: `WaitForCondition` is about to release `m_mtx` and return -/
  | release
  /-- `if (!m_tasks_queue.Empty())` -/
  | test
  /-- `UniLock lk(m_tasks_queue.LockRef())` -/
  | lockQueue
  /-- `auto fn = m_tasks_queue.FrontNoLock()` -/
  | front
  /-- `m_tasks_queue.PopFrontUnsafe()` -/
  | pop (fn : TaskF)
  /-- `lk.unlock()` -/
  | unlockQueue (fn : TaskF)
  /-- `fn()` -/
  | run (fn : TaskF)
  /-- `Runnable` has returned -/
  | done
  deriving DecidableEq, Repr

/-- On whose behalf `NotifyCondition` runs. -/
inductive Notifier
  | schedulerTask
  | stop (join : Bool)
  deriving DecidableEq, Repr

/-- Where a caller stands. -/
inductive CallerPc
  | idle
  /-- `SchedulerTask`: `!m_stopped && !m_is_stopping` -/
  | schedulerTest (task : TaskF)
  /-- `m_tasks_queue.PushBack(task)` -/
  | push (task : TaskF)
  /-- `NotifyCondition`: `!m_tasks_queue.Empty()` -/
  | notifyTest (k : Notifier)
  /-- `UniLock lk(m_mtx)` -/
  | notifyAcquire (k : Notifier)
  /-- `m_cv.notify_all()` -/
  | notifyAll (k : Notifier)
  /-- the end of the scope of `lk` -/
  | notifyRelease (k : Notifier)
  /-- `Start`: `!m_started && m_stopped` -/
  | startTest
  /-- `m_started = true` -/
  | startSetStarted
  /-- `m_stopped = false` -/
  | startSetStopped
  /-- `m_threads.emplace_back`, with so many threads to go -/
  | spawn (left : ℕ)
  /-- `Stop`: `!m_stopped && m_started` -/
  | stopTest (join : Bool)
  /-- `m_is_stopping = true` -/
  | stopSet (join : Bool)
  /-- `WaitForTaskDone`, at thread `i` -/
  | join (i : ℕ)
  /-- `DetachAllThreads`, at thread `i` -/
  | detach (i : ℕ)
  deriving DecidableEq, Repr

/-- The threads that lock `m_mtx`. -/
inductive Party
  | worker (w : ℕ)
  | caller (c : ℕ)
  deriving DecidableEq, Repr

/-- Why a step could not be carried out. -/
inductive PoolFault
  /-- `FrontNoLock` or `PopFrontUnsafe` on an empty deque -/
  | emptyDeque
  /-- `detach` on a thread that is not joinable -/
  | notJoinable
  deriving DecidableEq, Repr

/-- A pool with its workers and callers. -/
structure ThreadPool where
  /-- `m_thread_count` -/
  threadCount : ℕ
  /-- `m_tasks_queue` -/
  tasks : ThreadSafeDeque TaskF := []
  /-- `m_stopped` -/
  stopped : Bool := true
  /-- `m_is_stopping` -/
  isStopping : Bool := false
  /-- `m_started` -/
  started : Bool := false
  /-- the holder of `m_mtx` -/
  mtx : Option Party := none
  /-- the worker that holds the lock of `m_tasks_queue` through `LockRef` -/
  queueLock : Option ℕ := none
  /-- `m_threads.size()` -/
  threads : ℕ := 0
  /-- `m_threads[w].joinable()` -/
  joinable : ℕ → Bool := fun _ => false
  workers : ℕ → WorkerPc := fun _ => .unborn
  callers : ℕ → CallerPc := fun _ => .idle
  fault : Option PoolFault := none
  /-- history: the tasks accepted by `SchedulerTask`, in the order of their pushes -/
  accepted : List TaskF := []
  /-- history: the tasks taken by workers, in order -/
  taken : List TaskF := []

/-- The steps of the threads. -/
inductive PoolAct
  | schedulerTask (c : ℕ) (task : TaskF)
  | start (c : ℕ)
  | stop (c : ℕ) (join : Bool)
  /-- the next step of caller `c` -/
  | caller (c : ℕ)
  /-- the next step of worker `w` -/
  | worker (w : ℕ)
  /-- worker `w` comes back from its wait, notified or not -/
  | spurious (w : ℕ)
  deriving DecidableEq

namespace ThreadPool

/-- Move worker `w`. -/
def setWorker (s : ThreadPool) (w : ℕ) (pc : WorkerPc) : ThreadPool :=
  { s with workers := Function.update s.workers w pc }

/-- Move caller `c`. -/
def setCaller (s : ThreadPool) (c : ℕ) (pc : CallerPc) : ThreadPool :=
  { s with callers := Function.update s.callers c pc }

/-- A worker that waits un-notified is notified. -/
def notified : WorkerPc → WorkerPc
  | .blocked _ => .blocked true
  | pc => pc

/-- Where a caller goes on after `NotifyCondition`. -/
def afterNotify : Notifier → CallerPc
  | .schedulerTask => .idle
  | .stop true => .join 0
  | .stop false => .detach 0

/-- The next step of worker `w`. -/
def workerStep (s : ThreadPool) (w : ℕ) : Option ThreadPool :=
  match s.workers w with
  | .unborn => none
  | .loop => some (s.setWorker w (if s.started && !s.isStopping then .acquire else .done))
  | .acquire =>
    if s.mtx = none then some { s.setWorker w .evaluate with mtx := some (.worker w) } else none
  | .evaluate =>
    if s.queueLock = none then
      some (s.setWorker w (if !s.tasks.isEmpty || s.isStopping then .release else .block))
    else none
  | .block => some { s.setWorker w (.blocked false) with mtx := none }
  | .blocked notified => if notified then some (s.setWorker w .acquire) else none
  | .release => some { s.setWorker w .test with mtx := none }
  | .test =>
    if s.queueLock = none then
      some (s.setWorker w (if s.tasks.isEmpty then .loop else .lockQueue))
    else none
  | .lockQueue =>
    if s.queueLock = none then some { s.setWorker w .front with queueLock := some w } else none
  | .front =>
    match s.tasks.front with
    | none => some { s with fault := some .emptyDeque }
    | some fn => some (s.setWorker w (.pop fn))
  | .pop fn =>
    match s.tasks.popFront with
    | none => some { s with fault := some .emptyDeque }
    | some rest =>
      some { s.setWorker w (.unlockQueue fn) with tasks := rest, taken := s.taken ++ [fn] }
  | .unlockQueue fn => some { s.setWorker w (.run fn) with queueLock := none }
  | .run _ => some (s.setWorker w .loop)
  | .done => none

/-- The next step of caller `c`. -/
def callerStep (s : ThreadPool) (c : ℕ) : Option ThreadPool :=
  match s.callers c with
  | .idle => none
  | .schedulerTest task =>
    some (s.setCaller c (if !s.stopped && !s.isStopping then .push task else .idle))
  | .push task =>
    if s.queueLock = none then
      some { s.setCaller c (.notifyTest .schedulerTask) with
        tasks := s.tasks.pushBack task, accepted := s.accepted ++ [task] }
    else none
  | .notifyTest k =>
    if s.queueLock = none then
      some (s.setCaller c (if s.tasks.isEmpty then afterNotify k else .notifyAcquire k))
    else none
  | .notifyAcquire k =>
    if s.mtx = none then some { s.setCaller c (.notifyAll k) with mtx := some (.caller c) }
    else none
  | .notifyAll k =>
    some { s.setCaller c (.notifyRelease k) with workers := fun w => notified (s.workers w) }
  | .notifyRelease k => some { s.setCaller c (afterNotify k) with mtx := none }
  | .startTest => some (s.setCaller c (if !s.started && s.stopped then .startSetStarted else .idle))
  | .startSetStarted => some { s.setCaller c .startSetStopped with started := true }
  | .startSetStopped => some { s.setCaller c (.spawn s.threadCount) with stopped := false }
  | .spawn 0 => some (s.setCaller c .idle)
  | .spawn (left + 1) =>
    some { (s.setCaller c (.spawn left)).setWorker s.threads .loop with
      threads := s.threads + 1, joinable := Function.update s.joinable s.threads true }
  | .stopTest join =>
    some (s.setCaller c (if !s.stopped && s.started then .stopSet join else .idle))
  | .stopSet join => some { s.setCaller c (.notifyTest (.stop join)) with isStopping := true }
  | .join i =>
    if s.threads ≤ i then some (s.setCaller c .idle)
    else if !s.joinable i then some (s.setCaller c (.join (i + 1)))
    else if s.workers i = .done then
      some { s.setCaller c (.join (i + 1)) with joinable := Function.update s.joinable i false }
    else none
  | .detach i =>
    if s.threads ≤ i then some (s.setCaller c .idle)
    else if s.joinable i then
      some { s.setCaller c (.detach (i + 1)) with joinable := Function.update s.joinable i false }
    else some { s with fault := some .notJoinable }

/-- A call begins on a caller that is idle. -/
def begin (s : ThreadPool) (c : ℕ) (pc : CallerPc) : Option ThreadPool :=
  if s.callers c = .idle then some (s.setCaller c pc) else none

/-- One step; nothing moves after a fault. -/
def step (s : ThreadPool) (a : PoolAct) : Option ThreadPool :=
  if s.fault.isSome then none
  else match a with
  | .schedulerTask c task => s.begin c (.schedulerTest task)
  | .start c => s.begin c .startTest
  | .stop c join => s.begin c (.stopTest join)
  | .caller c => s.callerStep c
  | .worker w => s.workerStep w
  | .spurious w =>
    match s.workers w with
    | .blocked _ => some (s.setWorker w .acquire)
    | _ => none

end ThreadPool

/-- A pool with any number of threads, not started yet. -/
def poolSystem : TransitionSystem ThreadPool PoolAct where
  init s := ∃ n : ℕ, s = { threadCount := n }
  step := ThreadPool.step

end CoroutineCpp
