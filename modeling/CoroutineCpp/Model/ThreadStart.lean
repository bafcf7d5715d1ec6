import CoroutineCpp.Model.ThreadNames

/-!
# The start of a thread, one access at a time

`Model/ThreadNames.lean` takes the constructor of `Thread` and the part of `Run` that it waits for
as one step.  Here they are two threads that share the object under construction: the constructor
creates the new thread, which reads and writes the object while the constructor waits for it on
`m_semaphore` (`src/thread.cpp`, `src/mutexes.cpp`).  Any number of threads construct objects at
the same time, among them threads that were started in this way and run their callbacks.

A step is one access of a member or of a thread-local variable, one `Wait` or `Post`, or one
pthread call; `SetName`, `Swap`, and what the constructor does before it writes `t_thread_name` are
one step each.  A callback is known by its name; while it runs, its thread may do what any thread
does.  An object is swapped when it has been constructed, and none is joined, detached or destroyed
(`Model/Thread.lean`).

The callbacks given to the constructor are not empty, and the calls succeed: `sem_init`,
`pthread_create`, `sem_wait` and `sem_post`.  Where one fails, the constructor or `Run` throws, and
what comes after that is not here.
-/

namespace CoroutineCpp

open Framework

/-- History: how far the construction of an object has come. -/
inductive ObjectStage
  /-- thread `p` constructs it, and its own thread has not been created -/
  | fresh (p : Pthread)
  /-- thread `p` constructs it, and its own thread is the one with the handle `h` -/
  | made (p : Pthread) (h : ℕ)
  /-- the constructor has returned -/
  | constructed
  deriving DecidableEq, Repr

/-- A `Thread` object with the members that serve its construction. -/
structure ThreadObject extends Thread where
  /-- `m_cb` -/
  cb : Option ℕ := none
  /-- the counter of `m_semaphore` -/
  semaphore : ℕ := 0
  stage : ObjectStage := .constructed
  deriving DecidableEq, Repr

/-- Where a thread stands in the constructor, for the object at `x`. -/
inductive CtorPc
  /-- not in the constructor -/
  | idle
  /-- `t_thread_name = m_name` -/
  | setName (x : ℕ)
  /-- `pthread_create`; `old` is the value that `t_thread_name` had before (history) -/
  | create (x : ℕ) (old : String)
  /-- `pthread_create` writes `m_thread` -/
  | store (x h : ℕ)
  /-- `m_semaphore.Wait()` -/
  | wait (x : ℕ)
  deriving DecidableEq, Repr

/-- Where a thread stands in `Run`, for the object at `x`. -/
inductive RunPc
  /-- not created -/
  | unborn
  /-- `t_thread = self` -/
  | setThis (x : ℕ)
  /-- `t_thread_name = t_thread->m_name` -/
  | setThreadName (x : ℕ)
  /-- `t_thread->m_id = GetThreadId()` -/
  | setId (x : ℕ)
  /-- `cb.swap(self->m_cb)` -/
  | takeCb (x : ℕ)
  /-- `t_thread->m_semaphore.Post()` -/
  | post (x : ℕ) (cb : Option ℕ)
  /-- `cb()` -/
  | call (cb : Option ℕ)
  /-- the callback runs -/
  | running (cb : ℕ)
  /-- `Run` has returned -/
  | returned
  deriving DecidableEq, Repr

/-- What went wrong. -/
inductive StartFault
  /-- the object that `Run` works on is not there -/
  | noObject
  /-- `cb()` of an empty function -/
  | badFunctionCall
  deriving DecidableEq, Repr

/-- A program with its `Thread` objects and its threads. -/
structure ThreadStart where
  /-- the objects, by address -/
  objects : ℕ → Option ThreadObject := fun _ => none
  /-- the number of handles `pthread_create` has handed out -/
  created : ℕ := 0
  ctors : Pthread → CtorPc := fun _ => .idle
  runs : ℕ → RunPc := fun _ => .unborn
  /-- `t_thread` of each thread -/
  tThread : Pthread → Option ℕ := fun _ => none
  /-- `t_thread_name` of each thread -/
  tThreadName : Pthread → String := fun _ => "UNKNOWN"
  /-- what `GetThreadId()` answers to the thread with the handle `h` -/
  threadId : ℕ → ℤ := fun _ => -1
  fault : Option StartFault := none
  /-- history: the callback that was given to the constructor of the thread `h` -/
  given : ℕ → Option ℕ := fun _ => none
  /-- history: the callbacks called, each with its thread -/
  called : List (ℕ × ℕ) := []

/-- The steps. -/
inductive StartAct
  /-- thread `p` constructs `Thread()` at address `x` -/
  | constructDefault (p : Pthread) (x : ℕ)
  /-- thread `p` constructs `Thread(cb, name)` at address `x`, for a `cb` that is not empty -/
  | construct (p : Pthread) (x : ℕ) (name : String) (cb : ℕ)
  | setName (p : Pthread) (name : String)
  | getName (p : Pthread)
  | swap (p : Pthread) (x y : ℕ)
  /-- the next step of thread `p` in the constructor; a new thread will find itself to be `tid` -/
  | ctor (p : Pthread) (tid : ℤ)
  /-- the next step of thread `h` in `Run` -/
  | run (h : ℕ)
  /-- the callback of thread `h` returns -/
  | finish (h : ℕ)
  deriving DecidableEq

namespace ThreadStart

/-- Replace the object at address `x`. -/
def setObject (s : ThreadStart) (x : ℕ) (o : ThreadObject) : ThreadStart :=
  { s with objects := Function.update s.objects x (some o) }

/-- Move thread `p` in the constructor. -/
def setCtor (s : ThreadStart) (p : Pthread) (pc : CtorPc) : ThreadStart :=
  { s with ctors := Function.update s.ctors p pc }

/-- Move thread `h` in `Run`. -/
def setRun (s : ThreadStart) (h : ℕ) (pc : RunPc) : ThreadStart :=
  { s with runs := Function.update s.runs h pc }

/-- The thread executes code of the program: it exists, and is neither in the constructor nor in
`Run` outside of the callback. -/
def free (s : ThreadStart) (p : Pthread) : Bool :=
  s.ctors p = .idle &&
    match p with
    | .outside _ => true
    | .started h =>
      match s.runs h with
      | .running _ => true
      | _ => false

/-- The members of a `Thread` at the beginning of the body of its constructor. -/
def init (p : Pthread) (name : String) (cb : ℕ) : ThreadObject where
  name := if name.isEmpty then "UNKNOWN" else name
  cb := some cb
  stage := .fresh p

/-- `m_name = name` for the object at address `x`. -/
def rename (s : ThreadStart) (x : ℕ) (name : String) : ThreadStart :=
  match s.objects x with
  | none => s
  | some o => s.setObject x { o with name := name }

/-- `SetName(name)`, called by thread `p`. -/
def setName (s : ThreadStart) (p : Pthread) (name : String) : ThreadStart :=
  if name.isEmpty then s
  else
    let s := match s.tThread p with
      | none => s
      | some x => s.rename x name
    { s with tThreadName := Function.update s.tThreadName p name }

/-- `Swap`; it leaves `m_cb` where it is. -/
def swap (s : ThreadStart) (x y : ℕ) (o o' : ThreadObject) : ThreadStart :=
  (s.setObject x { o' with cb := o.cb }).setObject y { o with cb := o'.cb }

/-- The next step of thread `p` in the constructor; `pthread_create` and `sem_wait` succeed. -/
def ctorStep (s : ThreadStart) (p : Pthread) (tid : ℤ) : Option ThreadStart :=
  match s.ctors p with
  | .idle => none
  | .setName x =>
    (s.objects x).map fun o =>
      { s.setCtor p (.create x (s.tThreadName p)) with
        tThreadName := Function.update s.tThreadName p o.name }
  | .create x _ =>
    (s.objects x).map fun o =>
      let h := s.created + 1
      { ((s.setCtor p (.store x h)).setRun h (.setThis x)).setObject x
          { o with stage := .made p h } with
        created := h
        threadId := Function.update s.threadId h tid
        given := Function.update s.given h o.cb }
  | .store x h =>
    (s.objects x).map fun o => (s.setCtor p (.wait x)).setObject x { o with thread := h }
  | .wait x =>
    (s.objects x).bind fun o =>
      if 0 < o.semaphore then
        some ((s.setCtor p .idle).setObject x
          { o with semaphore := o.semaphore - 1, stage := .constructed })
      else none

/-- Thread `h` does something with the object at `x`, and moves on. -/
def withObject (s : ThreadStart) (x : ℕ) (f : ThreadObject → ThreadStart) : ThreadStart :=
  match s.objects x with
  | none => { s with fault := some .noObject }
  | some o => f o

/-- The next step of thread `h` in `Run`; `sem_post` succeeds. -/
def runStep (s : ThreadStart) (h : ℕ) : Option ThreadStart :=
  match s.runs h with
  | .unborn => none
  | .setThis x =>
    some { s.setRun h (.setThreadName x) with
      tThread := Function.update s.tThread (.started h) (some x) }
  | .setThreadName x =>
    some <| s.withObject x fun o =>
      { s.setRun h (.setId x) with
        tThreadName := Function.update s.tThreadName (.started h) o.name }
  | .setId x =>
    some <| s.withObject x fun o =>
      (s.setRun h (.takeCb x)).setObject x { o with id := s.threadId h }
  | .takeCb x =>
    some <| s.withObject x fun o =>
      (s.setRun h (.post x o.cb)).setObject x { o with cb := none }
  | .post x cb =>
    some <| s.withObject x fun o =>
      (s.setRun h (.call cb)).setObject x { o with semaphore := o.semaphore + 1 }
  | .call none => some { s with fault := some .badFunctionCall }
  | .call (some cb) => some { s.setRun h (.running cb) with called := s.called ++ [(h, cb)] }
  | .running _ => none
  | .returned => none

/-- One step, `none` where it is not enabled; nothing moves after a fault. -/
def step (s : ThreadStart) (a : StartAct) : Option ThreadStart :=
  if s.fault.isSome then none
  else match a with
  | .constructDefault p x =>
    if s.free p ∧ s.objects x = none then some (s.setObject x {}) else none
  | .construct p x name cb =>
    if s.free p ∧ s.objects x = none then
      some ((s.setCtor p (.setName x)).setObject x (init p name cb))
    else none
  | .setName p name => if s.free p then some (s.setName p name) else none
  | .getName p => if s.free p then some s else none
  | .swap p x y =>
    match s.objects x, s.objects y with
    | some o, some o' =>
      if s.free p ∧ o.stage = .constructed ∧ o'.stage = .constructed then some (s.swap x y o o')
      else none
    | _, _ => none
  | .ctor p tid => s.ctorStep p tid
  | .run h => s.runStep h
  | .finish h =>
    match s.runs h with
    | .running _ => if s.free (.started h) then some (s.setRun h .returned) else none
    | _ => none

end ThreadStart

/-- A program that starts without `Thread` objects. -/
def startSystem : TransitionSystem ThreadStart StartAct where
  init s := s = {}
  step := ThreadStart.step

end CoroutineCpp
