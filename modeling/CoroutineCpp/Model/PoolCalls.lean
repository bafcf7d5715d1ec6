import CoroutineCpp.Model.ThreadPool

/-!
# `ThreadPoolExecutor`, one call at a time

The pool as its owner sees it who makes one call after the other and then destroys it: each member
function (`src/threadpool.cpp`) is one function on the flags and on `m_threads`, a `std::thread`
being known by its `joinable()`.  What a call comes to is a result or the exception it throws;
the destruction of a joinable thread is `std::terminate`.

The contents of the task queue are not here.  They depend on how far the workers are, and no call
lets them decide what it does to the threads.  `Properties/PoolLifetime.lean` shows that a pool of
`Model/ThreadPool.lean` with one caller goes through these functions.
-/

namespace CoroutineCpp

/-- How a call ends that does not return. -/
inductive StdError
  /-- `std::system_error`: `join` or `detach` on a thread that is not joinable -/
  | systemError
  /-- `std::terminate`: the destructor of a joinable thread -/
  | terminate
  deriving DecidableEq, Repr

/-- The members of a `ThreadPoolExecutor` that do not depend on the workers. -/
structure ThreadPoolExecutor where
  /-- `m_thread_count` -/
  threadCount : ℕ
  /-- `m_stopped` -/
  stopped : Bool := true
  /-- `m_is_stopping` -/
  isStopping : Bool := false
  /-- `m_started` -/
  started : Bool := false
  /-- `m_threads`, each thread by its `joinable()` -/
  threads : List Bool := []
  /-- history: the tasks accepted by `SchedulerTask` -/
  accepted : List TaskF := []
  deriving DecidableEq, Repr

namespace ThreadPoolExecutor

/-- The constructor; `hardwareConcurrency` is what `std::thread::hardware_concurrency()` answers,
which may be 0. -/
def construct (nThreads hardwareConcurrency : ℕ) : ThreadPoolExecutor :=
  { threadCount := if nThreads = 0 then hardwareConcurrency else nThreads }

/-- `SchedulerTask` -/
def schedulerTask (task : TaskF) (p : ThreadPoolExecutor) : ThreadPoolExecutor :=
  if !p.stopped && !p.isStopping then { p with accepted := p.accepted ++ [task] } else p

/-- `Start` -/
def start (p : ThreadPoolExecutor) : ThreadPoolExecutor :=
  if !p.started && p.stopped then
    { p with
      started := true, stopped := false
      threads := p.threads ++ List.replicate p.threadCount true }
  else p

/-- `DetachAllThreads` -/
def detachAllThreads : List Bool → Except StdError (List Bool)
  | [] => .ok []
  | true :: threads => (detachAllThreads threads).map (false :: ·)
  | false :: _ => .error .systemError

/-- `WaitForTaskDone`, once all workers have come to their end -/
def waitForTaskDone : List Bool → List Bool
  | [] => []
  | joinable :: threads => (if joinable then false else joinable) :: waitForTaskDone threads

/-- `Stop` -/
def stop (join : Bool) (p : ThreadPoolExecutor) : Except StdError ThreadPoolExecutor :=
  if !p.stopped && p.started then
    let p := { p with isStopping := true }
    if join then .ok { p with threads := waitForTaskDone p.threads }
    else (detachAllThreads p.threads).map fun threads => { p with threads := threads }
  else .ok p

/-- The destructors of the elements of `m_threads` -/
def clearThreads (threads : List Bool) : Except StdError (List Bool) :=
  if threads.any id then .error .terminate else .ok []

/-- `~ThreadPoolExecutor`: the body, then the destructor of `m_threads` -/
def destroy (p : ThreadPoolExecutor) : Except StdError Unit :=
  let body : Except StdError (List Bool) :=
    if p.isStopping && !p.threads.isEmpty then clearThreads p.threads else .ok p.threads
  (body.bind clearThreads).map fun _ => ()

end ThreadPoolExecutor

/-- The calls an owner makes. -/
inductive PoolCall
  | start
  | schedulerTask (task : TaskF)
  | stop (join : Bool)
  deriving DecidableEq, Repr

namespace ThreadPoolExecutor

/-- One call. -/
def call (p : ThreadPoolExecutor) : PoolCall → Except StdError ThreadPoolExecutor
  | .start => .ok p.start
  | .schedulerTask task => .ok (p.schedulerTask task)
  | .stop join => p.stop join

/-- A sequence of calls, ended by the first that throws. -/
def calls : List PoolCall → ThreadPoolExecutor → Except StdError ThreadPoolExecutor
  | [], p => .ok p
  | c :: cs, p => (p.call c).bind (calls cs)

/-- The life of a pool: the calls, then the destruction. -/
def lifetime (p : ThreadPoolExecutor) (cs : List PoolCall) : Except StdError Unit :=
  (p.calls cs).bind destroy

lemma calls_append (cs cs' : List PoolCall) (p : ThreadPoolExecutor) :
    p.calls (cs ++ cs') = (p.calls cs).bind (calls cs') := by
  induction cs generalizing p with
  | nil => rfl
  | cons c cs ih =>
    simp only [List.cons_append, calls]
    cases p.call c with
    | error e => rfl
    | ok p' => exact ih p'

lemma calls_concat (cs : List PoolCall) (c : PoolCall) (p : ThreadPoolExecutor) :
    p.calls (cs ++ [c]) = (p.calls cs).bind fun p => p.call c := by
  rw [calls_append]
  congr 1
  funext p
  simp only [calls]
  cases p.call c <;> rfl

end ThreadPoolExecutor

end CoroutineCpp
