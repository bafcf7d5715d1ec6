import CoroutineCpp.Framework.TransitionSystem
import CoroutineCpp.Model.Dispatch

/-!
# The pick of `Process`, one queue call at a time

`Process` tests its two queues up to three times before it decides which to take from, and then
reads the front and removes it in two more calls (`AssignRunnableTask`).  Each of these calls takes
and releases the lock of its queue.  `Process` holds `m_mtx` across them, but neither `AddTask` nor
`GiveUpTasks` takes that lock, so producers and the dispatcher may move between any two of them.

The threads of all executors of a fixed table run this way here, with the dispatcher passes of
`Model/Dispatch.lean`, one queue operation at a time, and the producers among them.  Wakeups push
arbitrary tasks onto the awoken queues; what else a body does is not visible to the runnable
queues.
-/

namespace CoroutineCpp

open Framework

/-- Where the thread of an executor stands.  `last` is `last_retrieve_from_awoken`. -/
inductive PickPc
  /-- not in `Process` -/
  | outside
  /-- first condition: `!m_runnable_queue.Empty()` -/
  | bothRunnable (last : Bool)
  /-- first condition: `!m_awoken_queue.Empty()` -/
  | bothAwoken (last : Bool)
  /-- second condition: `m_runnable_queue.Empty()` -/
  | onlyAwokenRunnable (last : Bool)
  /-- second condition: `!m_awoken_queue.Empty()` -/
  | onlyAwokenAwoken (last : Bool)
  /-- third condition: `!m_runnable_queue.Empty()` -/
  | onlyRunnableRunnable (last : Bool)
  /-- third condition: `m_awoken_queue.Empty()` -/
  | onlyRunnableAwoken (last : Bool)
  /-- `AssignRunnableTask(fromAwoken)`: `Front()` -/
  | front (fromAwoken : Bool)
  /-- `AssignRunnableTask(fromAwoken)`: `PopFront()` -/
  | pop (fromAwoken : Bool)
  /-- `m_running_task->co->Resume()` -/
  | resumed (last : Bool)
  /-- both queues were found empty: `WaitForCondition` or `WaitForConditionFor` -/
  | waiting (last : Bool)
  deriving DecidableEq, Repr

/-- The executors, their threads and the dispatcher. -/
structure PickState where
  executors : Executors := fun _ => {}
  pc : ℕ → PickPc := fun _ => .outside
  disp : DispatchState := {}
  /-- `Front` or `PopFront` was called on an empty deque -/
  fault : Bool := false
  /-- history: the tasks submitted -/
  submitted : List CoTaskPtr := []
  /-- history: the tasks taken to run for the first time, each with the executor that runs it -/
  taken : List (CoTaskPtr × ℕ) := []

/-- The steps of the threads. -/
inductive PickAct
  | addTask (e : ℕ) (tk : CoTaskPtr)
  | addTasks (e : ℕ) (tks : List CoTaskPtr)
  /-- the owner of executor `e` calls `Process` -/
  | process (e : ℕ)
  /-- `Process` finds the executor stopped and returns -/
  | exitLoop (e : ℕ)
  /-- the next queue call in the loop of `Process` -/
  | call (e : ℕ)
  /-- `Resume` has returned and the iteration is over; with an exception it leaves `Process` -/
  | return (e : ℕ) (thrown : Bool)
  /-- the wait is over -/
  | wake (e : ℕ)
  /-- a wakeup pushes `tk` onto the awoken queue of executor `e` -/
  | awaken (e : ℕ) (tk : CoTaskPtr)
  | passStart
  /-- the next queue operation of the pass, with the answer of `IsBlocking()` where it asks -/
  | passStep (blocking : Bool)
  deriving DecidableEq

namespace PickState

/-- Replace executor `e`. -/
def setExecutor (s : PickState) (e : ℕ) (ex : CoExecutor) : PickState :=
  { s with executors := Function.update s.executors e ex }

/-- Move the thread of executor `e`. -/
def goto (s : PickState) (e : ℕ) (pc : PickPc) : PickState :=
  { s with pc := Function.update s.pc e pc }

/-- The next queue call of the thread of executor `e` in the loop of `Process`. -/
def call (s : PickState) (e : ℕ) : Option PickState :=
  let ex := s.executors e
  match s.pc e with
  | .bothRunnable last =>
    some (s.goto e (if ex.runnableQueue.isEmpty then .onlyAwokenRunnable last
      else .bothAwoken last))
  | .bothAwoken last =>
    some (s.goto e (if ex.awokenQueue.isEmpty then .onlyAwokenRunnable last
      else if last then .front false else .front true))
  | .onlyAwokenRunnable last =>
    some (s.goto e (if ex.runnableQueue.isEmpty then .onlyAwokenAwoken last
      else .onlyRunnableRunnable last))
  | .onlyAwokenAwoken last =>
    some (s.goto e (if ex.awokenQueue.isEmpty then .onlyRunnableRunnable last else .front true))
  | .onlyRunnableRunnable last =>
    some (s.goto e (if ex.runnableQueue.isEmpty then .waiting last else .onlyRunnableAwoken last))
  | .onlyRunnableAwoken last =>
    some (s.goto e (if ex.awokenQueue.isEmpty then .front false else .waiting last))
  | .front fromAwoken =>
    match (if fromAwoken then ex.awokenQueue else ex.runnableQueue).front with
    | none => some { s with fault := true }
    | some tk => some ((s.setExecutor e { ex with runningTask := tk }).goto e (.pop fromAwoken))
  | .pop true =>
    match ex.awokenQueue.popFront with
    | none => some { s with fault := true }
    | some rest => some ((s.setExecutor e { ex with awokenQueue := rest }).goto e (.resumed true))
  | .pop false =>
    match ex.runnableQueue.popFront with
    | none => some { s with fault := true }
    | some rest =>
      some { (s.setExecutor e { ex with runnableQueue := rest }).goto e (.resumed false) with
        taken := s.taken ++ [(ex.runningTask, e)] }
  | _ => none

/-- One step on a fixed table of `size` executors; nothing moves after a fault. -/
def step (size : ℕ) (s : PickState) (a : PickAct) : Option PickState :=
  if s.fault then none
  else match a with
  | .addTask e tk =>
    if e < size then
      some { s.setExecutor e ((s.executors e).addTask tk).1 with
        submitted := s.submitted ++ if tk = nullptr then [] else [tk] }
    else none
  | .addTasks e tks =>
    if e < size then
      some { s.setExecutor e ((s.executors e).addTasks tks).1 with submitted := s.submitted ++ tks }
    else none
  | .process e =>
    if e < size ∧ s.pc e = .outside then some (s.goto e (.bothRunnable false)) else none
  | .exitLoop e =>
    match s.pc e with
    | .bothRunnable _ => some (s.goto e .outside)
    | _ => none
  | .call e => s.call e
  | .return e thrown =>
    match s.pc e with
    | .resumed last => some (s.goto e (if thrown then .outside else .bothRunnable last))
    | _ => none
  | .wake e =>
    match s.pc e with
    | .waiting last => some (s.goto e (.bothRunnable last))
    | _ => none
  | .awaken e tk =>
    some (s.setExecutor e
      { s.executors e with awokenQueue := (s.executors e).awokenQueue.pushBack tk })
  | .passStart => if s.disp.pc = .idle then some { s with disp := .start size } else none
  | .passStep blocking =>
    (s.disp.step size blocking s.executors).map fun r =>
      { s with disp := r.1, executors := r.2 }

/-- The thread of executor `e` will take from its runnable queue without testing it again, or may do
so if a task is woken in time. -/
def committed (s : PickState) (e : ℕ) : Bool :=
  match s.pc e with
  | .bothAwoken last => last
  | .onlyRunnableAwoken _ => (s.executors e).awokenQueue.isEmpty
  | .front fromAwoken => !fromAwoken
  | .pop fromAwoken => !fromAwoken
  | _ => false

end PickState

/-- The system over a fixed table of `size` executors, all empty and outside `Process` at first. -/
def pickSystem (size : ℕ) : TransitionSystem PickState PickAct where
  init s := s = {}
  step := PickState.step size

/-- Where the step is a `GiveUpTasks(n)` of an executor that is committed to its runnable queue,
it leaves a task there. -/
def PickState.leavesOne (s : PickState) : PickAct → Bool
  | .passStep blocking =>
    match s.disp.pc with
    | .giveUp idx load =>
      let n := if blocking then 0 else wrapSub load s.disp.avgLoad
      !s.committed idx || decide (0 < n ∧ n < (s.executors idx).runnableQueue.length)
    | _ => true
  | _ => true

/-- The steps that do so. -/
def LeavesOne (s : PickState) (a : PickAct) : Prop := s.leavesOne a = true

instance (s : PickState) (a : PickAct) : Decidable (LeavesOne s a) :=
  inferInstanceAs (Decidable (_ = true))

end CoroutineCpp
