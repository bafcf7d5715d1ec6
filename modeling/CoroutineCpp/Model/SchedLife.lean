import CoroutineCpp.Framework.TransitionSystem
import CoroutineCpp.Model.SchedCalls

/-!
# Starting and stopping a `CoScheduler`

`Start`, `Begin`, `CreateNewExecutor` and `Stop` (`src/coscheduler.cpp`), called by any number of
threads, with the threads they create: one for each further executor, and the dispatcher.  Of an
executor only its id and `m_is_stopping` matter here, and whether a thread is in its `Process`; what
happens in `Process` is the subject of the other models.

A step of `Start` is one access of a shared member, the test and the construction in
`CreateNewExecutor`, or the construction of a thread, which returns when the new thread runs.
`Stop` is one step, as in `Model/Sched.lean`.  The number of hardware threads comes with the label;
it fits an `int`.  An exception that leaves the function of a thread ends the program
(`terminated`).
-/

namespace CoroutineCpp

open Framework

/-- Where a call of `Start` stands. -/
inductive StartPc
  /-- no call -/
  | idle
  /-- `if (m_stopping)` -/
  | testStopping (nMin nMax : ℤ)
  /-- `m_started_mtx.try_lock()` -/
  | tryLock (nMin nMax : ℤ)
  /-- the defaults, the stores of `m_min_thread_cnt` and `m_max_thread_cnt`, and `reserve` -/
  | settle (nMin nMax : ℤ)
  /-- the loop that calls `CreateNewExecutor`, at `i` -/
  | create (i : ℕ)
  /-- `CreateNewExecutor`: `Thread t(…)` and `t.Detach()`, for the executor `x` it has made -/
  | launch (i x : ℕ)
  /-- `m_executors.push_back(co_executor)` -/
  | pushBack (i x : ℕ)
  /-- `if (m_max_thread_cnt > 1)`, with the thread of the dispatcher -/
  | dispatcher
  /-- `m_executors.front()` -/
  | front
  /-- in `Process(DEBUG_TIMEOUT_MS)` of executor `x` -/
  | process (x : ℕ)
  deriving DecidableEq, Repr

/-- Where the thread of an executor stands that `CreateNewExecutor` has made. -/
inductive ExecutorPc
  /-- not created -/
  | unborn
  /-- about to call `Process(DEBUG_TIMEOUT_MS)` -/
  | ready
  | processing
  | returned
  deriving DecidableEq, Repr

/-- Where the dispatcher stands in `DispatcherThreadFunc`. -/
inductive DispatcherPc
  /-- `while (!m_stopping)` -/
  | test
  /-- `usleep` and `DispatchTasksEqually` -/
  | pass
  | returned
  deriving DecidableEq, Repr

/-- A scheduler with its callers and its threads. -/
structure SchedLife where
  /-- `m_min_thread_cnt` -/
  minThreadCnt : ℤ := 1
  /-- `m_max_thread_cnt` -/
  maxThreadCnt : ℤ := 1
  /-- `m_started_mtx` is locked -/
  startedMtx : Bool := false
  /-- `m_stopping` -/
  stopping : Bool := false
  /-- the number of executors that have been made -/
  made : ℕ := 1
  /-- the executors, in the order in which they were made -/
  objects : Executors := fun _ => { id := 0 }
  /-- `m_executors` -/
  table : List ℕ := [0]
  /-- the threads of the executors -/
  threads : ℕ → ExecutorPc := fun _ => .unborn
  /-- the dispatcher threads -/
  dispatchers : List DispatcherPc := []
  /-- the calls of `Start`, by thread -/
  callers : ℕ → StartPc := fun _ => .idle
  /-- the thread was made by `Begin` -/
  begun : ℕ → Bool := fun _ => false
  fault : Option Undefined := none
  /-- an exception has left the function of a thread -/
  terminated : Bool := false
  /-- history: the threads whose `Start` got past the lock -/
  entered : List ℕ := []

/-- The steps. -/
inductive LifeAct
  /-- thread `c` calls `Start` -/
  | start (c : ℕ) (nMin nMax : ℤ)
  /-- some thread calls `Begin`, which makes thread `c` -/
  | begin (c : ℕ) (nMin nMax : ℤ)
  /-- the next step of thread `c` in `Start`, on a machine with `hardware` threads -/
  | caller (c hardware : ℕ)
  /-- `try_lock` fails although the mutex is free -/
  | tryLockFails (c : ℕ)
  /-- a coroutine exception leaves the `Process` that thread `c` called in `Start` -/
  | throw (c : ℕ)
  /-- the next step of the thread of executor `x` -/
  | executor (x : ℕ)
  /-- a coroutine exception leaves the `Process` of that thread -/
  | executorThrow (x : ℕ)
  /-- the wait in the `Process` that thread `c` called in `Start` times out:
  `m_is_stopping = true` -/
  | timeout (c : ℕ)
  /-- the wait in the `Process` of the thread of executor `x` times out -/
  | executorTimeout (x : ℕ)
  /-- the next step of dispatcher `d` -/
  | dispatcher (d : ℕ)
  | stop
  deriving DecidableEq

namespace SchedLife

/-- Move thread `c` in `Start`. -/
def setCaller (s : SchedLife) (c : ℕ) (pc : StartPc) : SchedLife :=
  { s with callers := Function.update s.callers c pc }

/-- Move the thread of executor `x`. -/
def setThread (s : SchedLife) (x : ℕ) (pc : ExecutorPc) : SchedLife :=
  { s with threads := Function.update s.threads x pc }

/-- `n_min_thread` after its default. -/
def minThreads (nMin : ℤ) (hardware : ℕ) : ℤ := if nMin < 1 then hardware else nMin

/-- `n_max_thread` after its default. -/
def maxThreads (nMin nMax : ℤ) : ℤ := if nMax = 0 ∨ nMax < nMin then nMin else nMax

/-- An exception leaves the `Start` of thread `c`. -/
def escape (s : SchedLife) (c : ℕ) : SchedLife :=
  { s.setCaller c .idle with terminated := s.terminated || s.begun c }

/-- The next step of thread `c` in `Start`. -/
def callerStep (s : SchedLife) (c hardware : ℕ) : Option SchedLife :=
  match s.callers c with
  | .idle => none
  | .testStopping nMin nMax =>
    some (s.setCaller c (if s.stopping then .idle else .tryLock nMin nMax))
  | .tryLock nMin nMax =>
    if s.startedMtx then some (s.escape c)
    else
      some { s.setCaller c (.settle nMin nMax) with startedMtx := true, entered := c :: s.entered }
  | .settle nMin nMax =>
    let nMin := minThreads nMin hardware
    some { s.setCaller c (.create 0) with
      minThreadCnt := nMin, maxThreadCnt := maxThreads nMin nMax }
  | .create i =>
    if (i : ℤ) < s.minThreadCnt - 1 then
      if (s.table.length : ℤ) < s.maxThreadCnt then
        some { s.setCaller c (.launch i s.made) with
          made := s.made + 1
          objects := Function.update s.objects s.made { id := s.table.length } }
      else some (s.setCaller c (.create (i + 1)))
    else some (s.setCaller c .dispatcher)
  | .launch i x => some ((s.setCaller c (.pushBack i x)).setThread x .ready)
  | .pushBack i x => some { s.setCaller c (.create (i + 1)) with table := s.table ++ [x] }
  | .dispatcher =>
    some { s.setCaller c .front with
      dispatchers := if 1 < s.maxThreadCnt then s.dispatchers ++ [.test] else s.dispatchers }
  | .front =>
    match s.table with
    | [] => some { s with fault := some .outOfBounds }
    | x :: _ => some (s.setCaller c (.process x))
  | .process x => if (s.objects x).isStopping then some (s.setCaller c .idle) else none

/-- The next step of the thread of executor `x`. -/
def executorStep (s : SchedLife) (x : ℕ) : Option SchedLife :=
  match s.threads x with
  | .unborn => none
  | .ready => some (s.setThread x .processing)
  | .processing => if (s.objects x).isStopping then some (s.setThread x .returned) else none
  | .returned => none

/-- The next step of dispatcher `d`. -/
def dispatcherStep (s : SchedLife) (d : ℕ) : Option SchedLife :=
  match s.dispatchers[d]? with
  | some .test =>
    some { s with dispatchers := s.dispatchers.set d (if s.stopping then .returned else .pass) }
  | some .pass => some { s with dispatchers := s.dispatchers.set d .test }
  | _ => none

/-- `m_is_stopping = true` in executor `x`. -/
def setStopping (s : SchedLife) (x : ℕ) : SchedLife :=
  { s with objects := Function.update s.objects x { s.objects x with isStopping := true } }

/-- `Stop` -/
def stop (s : SchedLife) : SchedLife :=
  { s with
    stopping := true
    objects := fun x =>
      if x ∈ s.table then { s.objects x with isStopping := true } else s.objects x
    table := [] }

/-- One step; nothing moves after a fault or at the end of the program. -/
def step (s : SchedLife) (a : LifeAct) : Option SchedLife :=
  if s.fault.isSome || s.terminated then none
  else match a with
  | .start c nMin nMax =>
    if s.callers c = .idle ∧ s.begun c = false then
      some (s.setCaller c (.testStopping nMin nMax))
    else none
  | .begin c nMin nMax =>
    if s.callers c = .idle then
      some { s.setCaller c (.testStopping nMin nMax) with
        begun := Function.update s.begun c true }
    else none
  | .caller c hardware => s.callerStep c hardware
  | .tryLockFails c =>
    match s.callers c with
    | .tryLock _ _ => some (s.escape c)
    | _ => none
  | .throw c =>
    match s.callers c with
    | .process _ => some (s.escape c)
    | _ => none
  | .executor x => s.executorStep x
  | .executorThrow x =>
    if s.threads x = .processing then some { s with terminated := true } else none
  | .timeout c =>
    match s.callers c with
    | .process x => some (s.setStopping x)
    | _ => none
  | .executorTimeout x => if s.threads x = .processing then some (s.setStopping x) else none
  | .dispatcher d => s.dispatcherStep d
  | .stop => some s.stop

/-- What the calls on a running scheduler see of it. -/
def scheduler (s : SchedLife) : CoScheduler :=
  { size := s.table.length, executors := s.objects, stopping := s.stopping }

end SchedLife

/-- A scheduler as `GetSched` makes it, with one executor. -/
def lifeSystem : TransitionSystem SchedLife LifeAct where
  init s := s = {}
  step := SchedLife.step

end CoroutineCpp
