import CoroutineCpp.Framework.TransitionSystem
import CoroutineCpp.Model.Dispatch

/-!
# The executors, their threads and the scheduler, step by step

The whole system as one step function: any number of executors, each with its own thread in
`Process`, the coroutine bodies they run, the producers, the wakers and the dispatcher.

A label (`Act`) says who moves and carries what the step does not decide itself: the readings of
the clocks, the value of `rand()`, whether a body holds, yields, returns or throws next.  Between
two steps any other thread may move.  Three operations come at two granularities, so that a
property can choose its own:

* `hold` is a whole `Hold`; `holdPush` and `holdSwitch` are its push onto the waiting queue and its
  switch back to `Process`, with a window between them.
* `wakeupAllTasks` is the whole loop of `WakeupAllTasks`; `wakerStart` and `wakerStep` run it one
  queue call at a time.
* `dispatch` is a whole dispatcher pass; `passStart` and `passStep` run it one queue operation at
  a time.

A step that would be undefined in C++ or fail an assertion records the fault instead of moving
tasks, and nothing moves after a fault.
-/

namespace CoroutineCpp

open Framework

/-! ## The state -/

/-- Why a step could not be carried out. -/
inductive Fault
  /-- an `AHRI_ASSERT` failed -/
  | assertion
  /-- a null `CoTaskPtr` was dereferenced -/
  | nullTask
  /-- the uninitialised `proc` of a task was used -/
  | uninitialisedProc
  /-- `Front` or `PopFront` on an empty deque -/
  | emptyDeque
  /-- a switch to the master context of another thread -/
  | foreignContext
  /-- `m_executors` was indexed out of bounds -/
  | outOfBounds
  /-- `rand() % 0` -/
  | divisionByZero
  deriving DecidableEq, Repr

/-- Where the thread of an executor stands.  `timeoutMs` is the argument of `Process`, `last` its
local `last_retrieve_from_awoken`. -/
inductive ProcessPc
  /-- not in `Process` -/
  | outside
  /-- at the head of the loop -/
  | loop (timeoutMs : ℕ) (last : Bool)
  /-- asleep in `WaitForCondition` or, for a non-zero time-out, `WaitForConditionFor` -/
  | waiting (timeoutMs : ℕ) (last : Bool)
  /-- inside `Resume`: the body of `m_running_task` runs -/
  | resumed (timeoutMs : ℕ) (last : Bool)
  /-- the body is in `HoldThere` of executor `proc`, between the push and `GiveUp` -/
  | holding (timeoutMs : ℕ) (last : Bool) (proc : ℕ)
  deriving DecidableEq, Repr

namespace ProcessPc

/-- The thread runs a coroutine body. -/
def onCpu : ProcessPc → Bool
  | .resumed .. => true
  | .holding .. => true
  | _ => false

/-- The thread runs a coroutine body that is not about to be held. -/
def isResumed : ProcessPc → Bool
  | .resumed .. => true
  | _ => false

end ProcessPc

/-- Where a caller of `WakeupAllTasks` stands in its loop over the queues of executor `e`. -/
inductive WakerPc
  | idle
  /-- `!m_waiting_queue.Empty()` -/
  | test (e : ℕ)
  /-- `m_waiting_queue.Front()` -/
  | front (e : ℕ)
  /-- `m_awoken_queue.PushBack(tk)`; the reference returned by `Front` is read by then -/
  | push (e : ℕ) (tk : CoTaskPtr)
  /-- `m_waiting_queue.PopFront()` -/
  | pop (e : ℕ)
  deriving DecidableEq, Repr

/-- The executor whose tasks are being woken. -/
def WakerPc.target : WakerPc → Option ℕ
  | .idle => none
  | .test e => some e
  | .front e => some e
  | .push e _ => some e
  | .pop e => some e

/-- The state of the system.  The executors `0, …, n - 1` exist throughout; `m_executors` refers
to the first `size` of them, all or, once stopped, none. -/
structure Sched where
  n : ℕ
  /-- `m_executors.size()` -/
  size : ℕ
  executors : Executors
  /-- the thread of each executor -/
  pc : ℕ → ProcessPc := fun _ => .outside
  tasks : CoTaskPtr → CoTask := fun _ => {}
  /-- the dispatcher -/
  disp : DispatchState := {}
  /-- the callers of `WakeupAllTasks` -/
  wakers : ℕ → WakerPc := fun _ => .idle
  /-- the task pointers user code keeps -/
  userRefs : List CoTaskPtr := []
  fault : Option Fault := none
  /-- history: the tasks submitted, in order -/
  submitted : List CoTaskPtr := []
  /-- history: the tasks dropped by `Clean` -/
  reclaimed : List CoTaskPtr := []
  /-- history: the calls of `Resume`, each with the executor that made it -/
  resumes : List (CoTaskPtr × ℕ) := []
  /-- history: the pointers pushed onto awoken queues by wakeups, in order of the pushes -/
  wakes : List CoTaskPtr := []
  /-- history: the tasks that called `Yield` -/
  yielded : List CoTaskPtr := []
  /-- history: the entries written by `Hold` -/
  entries : List RecoveryEntry := []
  /-- history: the exceptions that left `Process`, each with its executor -/
  thrown : List (ℕ × ExceptionPtr) := []

namespace Sched

/-! ## Updates -/

/-- Replace executor `e`. -/
def setExecutor (s : Sched) (e : ℕ) (ex : CoExecutor) : Sched :=
  { s with executors := Function.update s.executors e ex }

/-- Move the thread of executor `e`. -/
def setPc (s : Sched) (e : ℕ) (pc : ProcessPc) : Sched :=
  { s with pc := Function.update s.pc e pc }

/-- Replace the task object at `tk`. -/
def setTask (s : Sched) (tk : CoTaskPtr) (task : CoTask) : Sched :=
  { s with tasks := Function.update s.tasks tk task }

/-- Record a fault. -/
def fail (s : Sched) (f : Fault) : Sched := { s with fault := some f }

/-! ## Submission -/

/-- `m_executors[e]->AddTask(tk)` -/
def addTask (s : Sched) (e : ℕ) (tk : CoTaskPtr) : Sched :=
  { s.setExecutor e ((s.executors e).addTask tk).1 with
    submitted := s.submitted ++ if tk = nullptr then [] else [tk] }

/-- `m_executors[e]->AddTask(begin, end)` -/
def addTasks (s : Sched) (e : ℕ) (tks : List CoTaskPtr) : Sched :=
  { s.setExecutor e ((s.executors e).addTasks tks).1 with submitted := s.submitted ++ tks }

/-- `CoScheduler::AddTask`, for the value of `rand()`. -/
def schedulerTask (s : Sched) (rand : ℕ) (tk : CoTaskPtr) : Sched :=
  if s.size = 0 then s.fail .divisionByZero
  else if s.size = 1 then s.addTask 0 tk
  else s.addTask (rand % s.size) tk

/-! ## `Process` -/

/-- `Process` from the return of `Resume` on: the switch over the status, the garbage collection,
and back to the head of the loop, or out of `Process` with an exception. -/
def endIteration (s : Sched) (e timeoutMs : ℕ) (last : Bool) (nowMs : ℕ) : Sched :=
  let ex := s.executors e
  let co := (s.tasks ex.runningTask).co
  let r := ex.afterResume co.status co.exPtr nowMs
  match r.rethrown with
  | none =>
    { (s.setExecutor e r.ex).setPc e (.loop timeoutMs last) with
      reclaimed := s.reclaimed ++ r.reclaimed }
  | some ex =>
    { (s.setExecutor e r.ex).setPc e .outside with
      reclaimed := s.reclaimed ++ r.reclaimed, thrown := s.thrown ++ [(e, ex)] }

/-- `Process` after `AssignRunnableTask` has produced `ex`, up to the switch into the body or, for
a coroutine that is over, to the end of the iteration. -/
def runTask (s : Sched) (e timeoutMs : ℕ) (last : Bool) (nowUs nowMs : ℕ) (ex : CoExecutor) :
    Sched :=
  let tk := ex.runningTask
  if tk = nullptr then s.fail .nullTask
  else
    let task := { s.tasks tk with proc := some e }
    let s' :=
      { s.setExecutor e (ex.beforeResume nowUs) with resumes := s.resumes ++ [(tk, e)] }
    match task.co.resume e with
    | .aborted => s.fail .assertion
    | .inert => (s'.setTask tk task).endIteration e timeoutMs last nowMs
    | .switched co =>
      -- the frame of `HoldThere` or `YieldCurrent` returns and drops its reference
      (s'.setTask tk { task with co := co, stackRef := false }).setPc e (.resumed timeoutMs last)

/-- One round of the loop of `Process` from its head: pick a task and resume it, or go to wait. -/
def pick (s : Sched) (e timeoutMs : ℕ) (last : Bool) (nowUs nowMs : ℕ) : Sched :=
  match (s.executors e).chooseQueue last with
  | none => (s.setExecutor e (s.executors e).enterWait).setPc e (.waiting timeoutMs last)
  | some fromAwoken =>
    match (s.executors e).assignRunnableTask fromAwoken with
    | none => s.fail .emptyDeque
    | some (ex, last) => s.runTask e timeoutMs last nowUs nowMs ex

/-- The thread comes back from the wait with `ex` and goes on to the head of the loop. -/
def resumeLoop (s : Sched) (e timeoutMs : ℕ) (last : Bool) (nowMs nowMs' : ℕ) (ex : CoExecutor) :
    Sched :=
  let r := (ex.leaveWait nowMs).idleClean nowMs'
  { (s.setExecutor e r.1).setPc e (.loop timeoutMs last) with reclaimed := s.reclaimed ++ r.2 }

/-! ## What a running body does -/

/-- The running coroutine of thread `e` leaves the CPU: `f` is the change of the coroutine, `ctx`
selects the context it switches to, and `stackRef` tells whether a frame on its stack keeps the
task.  Control can only go back to where `Process` of this thread called `Resume`. -/
def switchOut (s : Sched) (e timeoutMs : ℕ) (last : Bool) (nowMs : ℕ)
    (ctx : Coroutine → Option ThreadId) (f : Coroutine → Coroutine) (stackRef : Bool) : Sched :=
  let tk := (s.executors e).runningTask
  let task := s.tasks tk
  if ctx task.co = some e then
    (s.setTask tk { task with co := f task.co, stackRef := stackRef }).endIteration
      e timeoutMs last nowMs
  else s.fail .foreignContext

/-- `YieldCurrent` -/
def yieldCurrent (s : Sched) (e timeoutMs : ℕ) (last : Bool) (nowMs : ℕ) : Sched :=
  let tk := (s.executors e).runningTask
  if tk = nullptr then s.fail .assertion
  else
    { s with yielded := s.yielded ++ [tk] }.switchOut e timeoutMs last nowMs
      Coroutine.masterCo Coroutine.giveUp true

/-- `Hold` up to the switch in `HoldThere`.  The executor it works on is the `proc` of the current
task; without one, `Hold` returns and the body goes on. -/
def holdPush (s : Sched) (e timeoutMs : ℕ) (last : Bool) : Sched :=
  match (s.tasks (s.executors e).runningTask).proc with
  | none => s
  | some p =>
    let tk := (s.executors p).runningTask
    if tk = nullptr then s.fail .nullTask
    else if (s.tasks tk).co.status ≠ .running then s.fail .assertion
    else
      { (s.setExecutor p
          { s.executors p with
            waitingQueue := (s.executors p).waitingQueue.pushBack tk }).setPc e
              (.holding timeoutMs last p) with
        entries := s.entries ++ [{ tk := tk, id := (s.executors p).id }] }

/-- The switch in `HoldThere` of executor `p`: `m_running_task->co->GiveUp()`. -/
def holdSwitch (s : Sched) (e timeoutMs : ℕ) (last : Bool) (p nowMs : ℕ) : Sched :=
  if p = e then s.switchOut e timeoutMs last nowMs Coroutine.masterCo Coroutine.giveUp true
  else s.fail .foreignContext

/-- `Hold`, run without interference. -/
def hold (s : Sched) (e timeoutMs : ℕ) (last : Bool) (nowMs : ℕ) : Sched :=
  let s := s.holdPush e timeoutMs last
  match s.pc e with
  | .holding timeoutMs last p => s.holdSwitch e timeoutMs last p nowMs
  | _ => s

/-! ## Weak pointers and wakeups -/

/-- Some `shared_ptr` to the task `tk` is left.  The deque `stolen` of a pass keeps its elements
until the pass is over. -/
def alive (s : Sched) (tk : CoTaskPtr) : Bool :=
  (List.range s.n).any (fun e =>
    let ex := s.executors e
    ex.runnableQueue.contains tk || ex.waitingQueue.contains tk || ex.awokenQueue.contains tk ||
      ex.finishedQueue.contains tk || ex.runningTask = tk) ||
    s.disp.pc ≠ .idle && s.disp.stolen.contains tk ||
    s.userRefs.contains tk || (s.tasks tk).stackRef

/-- `lock()` on a weak pointer to `tk` -/
def lock (s : Sched) (tk : CoTaskPtr) : CoTaskPtr := if s.alive tk then tk else nullptr

/-- `RecoveryEntry::operator bool` -/
def entryValid (s : Sched) (entry : RecoveryEntry) : Bool :=
  s.lock entry.tk ≠ nullptr && entry.id ≠ 0

/-- `RecoveryEntry::Expired` -/
def expired (s : Sched) (entry : RecoveryEntry) : Bool :=
  if s.lock entry.tk = nullptr then false else true

/-- `operator==` on entries -/
def entryEq (s : Sched) (one oth : RecoveryEntry) : Bool :=
  s.lock one.tk = s.lock oth.tk && one.id = oth.id

/-- `operator<` on entries -/
def entryLt (s : Sched) (one oth : RecoveryEntry) : Bool :=
  s.lock one.tk < s.lock oth.tk && one.id < oth.id

/-- `WakeupFromEntry` on executor `e`.  Between the removal and the push the waiting queue has
given up its reference, so the weak pointer is locked a second time. -/
def wakeupFromEntry (s : Sched) (e : ℕ) (entry : RecoveryEntry) : Sched × Bool :=
  if s.lock entry.tk ∈ (s.executors e).waitingQueue then
    let s := s.setExecutor e
      { s.executors e with waitingQueue := (s.executors e).waitingQueue.erase (s.lock entry.tk) }
    let tk := s.lock entry.tk
    ({ s.setExecutor e
        { s.executors e with awokenQueue := (s.executors e).awokenQueue.pushBack tk } with
      wakes := s.wakes ++ [tk] }, true)
  else (s, false)

/-- `Wakeup`, the static member; `none` where it reads the uninitialised `proc` of a task. -/
def wakeup (s : Sched) (entry : RecoveryEntry) : Option (Sched × Bool) :=
  if s.entryValid entry then
    (s.tasks (s.lock entry.tk)).proc.map fun p => s.wakeupFromEntry p entry
  else some (s, false)

/-- The next call of the loop of `WakeupAllTasks` that waker `w` makes. -/
def wakerStep (s : Sched) (w : ℕ) : Option Sched :=
  let goto (s : Sched) (pc : WakerPc) : Sched := { s with wakers := Function.update s.wakers w pc }
  match s.wakers w with
  | .idle => none
  | .test e =>
    if (s.executors e).waitingQueue.isEmpty then some (goto s .idle) else some (goto s (.front e))
  | .front e =>
    match (s.executors e).waitingQueue.front with
    | none => some (s.fail .emptyDeque)
    | some tk => some (goto s (.push e tk))
  | .push e tk =>
    some (goto { s.setExecutor e { s.executors e with
      awokenQueue := (s.executors e).awokenQueue.pushBack tk } with wakes := s.wakes ++ [tk] }
        (.pop e))
  | .pop e =>
    match (s.executors e).waitingQueue.popFront with
    | none => some (s.fail .emptyDeque)
    | some rest =>
      some (goto (s.setExecutor e { s.executors e with waitingQueue := rest }) (.test e))

/-! ## The end of an executor -/

/-- The owner of executor `e` destroys it. -/
def destroyExecutor (s : Sched) (e nowMs : ℕ) : Sched :=
  s.setExecutor e ((s.executors e).destroy nowMs)

/-! ## The dispatcher and the end -/

/-- The next queue operation of the dispatcher pass, when the clock reads `nowUs`. -/
def passStep (s : Sched) (nowUs : ℕ) : Option Sched :=
  let blocking :=
    match s.disp.pc with
    | .giveUp idx _ => (s.executors idx).isBlocking nowUs
    | _ => false
  (s.disp.step s.size blocking s.executors).map fun r =>
    if r.1.pc = .outOfBounds then s.fail .outOfBounds
    else { s with disp := r.1, executors := r.2 }

/-- `CoScheduler::Stop` -/
def stop (s : Sched) : Sched :=
  { s with
    executors := fun e =>
      if e < s.size then { s.executors e with isStopping := true } else s.executors e
    size := 0 }

end Sched

/-! ## The steps -/

/-- The labels of the steps. -/
inductive Act
  | addTask (e : ℕ) (tk : CoTaskPtr)
  | addTasks (e : ℕ) (tks : List CoTaskPtr)
  | schedulerTask (rand : ℕ) (tk : CoTaskPtr)
  /-- the owner of executor `e` calls `Process` -/
  | process (e timeoutMs : ℕ)
  /-- `Process` finds the executor stopped and returns -/
  | exitLoop (e : ℕ)
  | pick (e nowUs nowMs : ℕ)
  /-- the wait ends because `Predicate()` holds; the three readings are those of `Predicate`, of
  the test after the wait, and of `Clean` -/
  | wake (e nowMs nowMs' nowMs'' : ℕ)
  /-- the wait ends because its time is over and `Predicate()` does not hold -/
  | timeout (e nowMs nowMs' nowMs'' : ℕ)
  /-- the body that runs on `e` calls `Hold` -/
  | hold (e nowMs : ℕ)
  | holdPush (e : ℕ)
  | holdSwitch (e nowMs : ℕ)
  /-- the body that runs on `e` calls `Yield` -/
  | yield (e nowMs : ℕ)
  /-- the body that runs on `e` returns -/
  | finish (e nowMs : ℕ)
  /-- the body that runs on `e` throws -/
  | throw (e : ℕ) (ex : ExceptionPtr) (nowMs : ℕ)
  | wakeupFromEntry (e : ℕ) (entry : RecoveryEntry)
  | wakeup (entry : RecoveryEntry)
  | wakeupAllTasks (e : ℕ)
  | wakerStart (w e : ℕ)
  | wakerStep (w : ℕ)
  | dispatch (nowUs : ℕ → ℕ)
  | passStart
  | passStep (nowUs : ℕ)
  | clean (e nowMs : ℕ)
  /-- user code copies a task pointer -/
  | keepRef (tk : CoTaskPtr)
  /-- user code drops a task pointer -/
  | dropRef (tk : CoTaskPtr)
  | stop

namespace Sched

/-- The step with the given label, `none` where it is not enabled. -/
def act (s : Sched) : Act → Option Sched
  | .addTask e tk => if e < s.n then some (s.addTask e tk) else none
  | .addTasks e tks => if e < s.n then some (s.addTasks e tks) else none
  | .schedulerTask rand tk => some (s.schedulerTask rand tk)
  | .process e timeoutMs =>
    if e < s.n ∧ s.pc e = .outside then some (s.setPc e (.loop timeoutMs false)) else none
  | .exitLoop e =>
    match s.pc e with
    | .loop _ _ => if (s.executors e).isStopping then some (s.setPc e .outside) else none
    | _ => none
  | .pick e nowUs nowMs =>
    match s.pc e with
    | .loop timeoutMs last =>
      if (s.executors e).isStopping then none else some (s.pick e timeoutMs last nowUs nowMs)
    | _ => none
  | .wake e nowMs nowMs' nowMs'' =>
    match s.pc e with
    | .waiting timeoutMs last =>
      if (s.executors e).predicate nowMs then
        some (s.resumeLoop e timeoutMs last nowMs' nowMs'' (s.executors e))
      else none
    | _ => none
  | .timeout e nowMs nowMs' nowMs'' =>
    match s.pc e with
    | .waiting timeoutMs last =>
      if timeoutMs ≠ 0 ∧ (s.executors e).predicate nowMs = false then
        some (s.resumeLoop e timeoutMs last nowMs' nowMs''
          { s.executors e with isStopping := true })
      else none
    | _ => none
  | .hold e nowMs =>
    match s.pc e with
    | .resumed timeoutMs last => some (s.hold e timeoutMs last nowMs)
    | _ => none
  | .holdPush e =>
    match s.pc e with
    | .resumed timeoutMs last => some (s.holdPush e timeoutMs last)
    | _ => none
  | .holdSwitch e nowMs =>
    match s.pc e with
    | .holding timeoutMs last p => some (s.holdSwitch e timeoutMs last p nowMs)
    | _ => none
  | .yield e nowMs =>
    match s.pc e with
    | .resumed timeoutMs last => some (s.yieldCurrent e timeoutMs last nowMs)
    | _ => none
  | .finish e nowMs =>
    match s.pc e with
    | .resumed timeoutMs last =>
      some (s.switchOut e timeoutMs last nowMs Coroutine.ucLink Coroutine.runReturned false)
    | _ => none
  | .throw e ex nowMs =>
    match s.pc e with
    | .resumed timeoutMs last =>
      some (s.switchOut e timeoutMs last nowMs Coroutine.ucLink (Coroutine.runThrew ex) false)
    | _ => none
  | .wakeupFromEntry e entry =>
    if e < s.n then some (s.wakeupFromEntry e entry).1 else none
  | .wakeup entry =>
    match s.wakeup entry with
    | none => some (s.fail .uninitialisedProc)
    | some r => some r.1
  | .wakeupAllTasks e =>
    if e < s.n then
      some { s.setExecutor e (s.executors e).wakeupAllTasks with
        wakes := s.wakes ++ (s.executors e).waitingQueue }
    else none
  | .wakerStart w e =>
    if e < s.n ∧ s.wakers w = .idle then
      some { s with wakers := Function.update s.wakers w (.test e) }
    else none
  | .wakerStep w => s.wakerStep w
  | .dispatch nowUs =>
    if s.disp.pc = .idle then
      some { s with
        executors := (dispatchTasksEqually s.size
          (fun e => (s.executors e).isBlocking (nowUs e)) s.executors).2 }
    else none
  | .passStart => if s.disp.pc = .idle then some { s with disp := .start s.size } else none
  | .passStep nowUs => s.passStep nowUs
  | .clean e nowMs =>
    if e < s.n then
      let r := (s.executors e).clean nowMs
      some { s.setExecutor e r.1 with reclaimed := s.reclaimed ++ r.2 }
    else none
  | .keepRef tk => if s.alive tk then some { s with userRefs := tk :: s.userRefs } else none
  | .dropRef tk => some { s with userRefs := s.userRefs.erase tk }
  | .stop => some s.stop

/-- Nothing moves after a fault. -/
def step (s : Sched) (a : Act) : Option Sched := if s.fault.isSome then none else s.act a

end Sched

/-- The system: `n` executors with any ids, nothing submitted, no thread in `Process`. -/
def schedSystem : TransitionSystem Sched Act where
  init s := ∃ n : ℕ, ∃ id : ℕ → ℤ,
    s = { n := n, size := n, executors := fun e => { id := id e } }
  step := Sched.step

/-- The tasks a step submits. -/
def Act.submits : Act → List CoTaskPtr
  | .addTask _ tk => [tk]
  | .addTasks _ tks => tks
  | .schedulerTask _ tk => [tk]
  | _ => []

/-- A step submits new tasks only: not null, not submitted before, not twice in one batch. -/
def Fresh (s : Sched) (a : Act) : Prop :=
  a.submits.Nodup ∧ ∀ tk ∈ a.submits, tk ≠ nullptr ∧ tk ∉ s.submitted

instance (s : Sched) (a : Act) : Decidable (Fresh s a) := inferInstanceAs (Decidable (_ ∧ _))

/-- The body calls `Yield`. -/
def Act.isYield : Act → Bool
  | .yield .. => true
  | _ => false

/-- `WakeupAllTasks` runs one queue call at a time. -/
def Act.isWakerStep : Act → Bool
  | .wakerStart .. => true
  | .wakerStep .. => true
  | _ => false

/-- A whole `Hold`, a whole `WakeupAllTasks` or a whole dispatcher pass. -/
def Act.isWhole : Act → Bool
  | .hold .. => true
  | .wakeupAllTasks .. => true
  | .dispatch .. => true
  | _ => false

/-- `Hold` or a dispatcher pass runs in parts. -/
def Act.isPart : Act → Bool
  | .holdPush .. => true
  | .holdSwitch .. => true
  | .passStart => true
  | .passStep .. => true
  | _ => false

end CoroutineCpp
