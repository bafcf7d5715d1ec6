import CoroutineCpp.Model.Thread

/-!
# The names of threads

The two thread-local variables of `src/thread.cpp`, `t_thread` and `t_thread_name`, beside the
`Thread` objects of `Model/Thread.lean`, and a program whose threads construct and swap objects and
get and set their names.

The constructor writes `t_thread_name` of the thread that calls it and returns only when `Run` has
set the variables of the new thread (`m_semaphore`), so that the two together are one step.
-/

namespace CoroutineCpp

open Framework

/-- A thread of the program. -/
inductive Pthread
  /-- one that was not started through `Thread`, as the main thread -/
  | outside (k : ℕ)
  /-- the one with the pthread handle `h`, started by a constructor of `Thread` -/
  | started (h : ℕ)
  deriving DecidableEq, Repr

/-- What a thread does. -/
inductive NameAct
  /-- `Thread()` at address `x` -/
  | constructDefault (x : ℕ)
  /-- `Thread(cb, name)` at address `x` -/
  | construct (x : ℕ) (name : String) (tid : ℤ)
  /-- `SetName(name)` -/
  | setName (name : String)
  /-- `GetName()` -/
  | getName
  /-- `Swap` of the objects at `x` and `y` -/
  | swap (x y : ℕ)
  deriving DecidableEq

/-- A program with its `Thread` objects and the thread-local variables. -/
structure ThreadNames where
  threads : Threads := {}
  /-- `t_thread` of each thread, `none` being the null pointer -/
  tThread : Pthread → Option ℕ := fun _ => none
  /-- `t_thread_name` of each thread -/
  tThreadName : Pthread → String := fun _ => "UNKNOWN"

/-- `m_name = name` for the object at address `x`. -/
def Threads.rename (s : Threads) (x : ℕ) (name : String) : Threads :=
  s.setObject x ((s.objects x).map fun t => { t with name := name })

namespace ThreadNames

/-- The thread exists. -/
def Alive (s : ThreadNames) : Pthread → Prop
  | .outside _ => True
  | .started h => h ≠ 0 ∧ h ≤ s.threads.created

instance (s : ThreadNames) (p : Pthread) : Decidable (s.Alive p) := by
  cases p <;> unfold Alive <;> infer_instance

/-- `GetName()`, called by thread `p`. -/
def getName (s : ThreadNames) (p : Pthread) : String := s.tThreadName p

/-- `SetName(name)`, called by thread `p`. -/
def setName (p : Pthread) (name : String) (s : ThreadNames) : ThreadNames :=
  if name.isEmpty then s
  else
    let s := match s.tThread p with
      | none => s
      | some x => { s with threads := s.threads.rename x name }
    { s with tThreadName := Function.update s.tThreadName p name }

/-- `Run` of the thread with handle `h` up to `m_semaphore.Post()`, on the object at `x` with the
name `mName`. -/
def run (h x : ℕ) (mName : String) (s : ThreadNames) : ThreadNames :=
  { s with
    tThread := Function.update s.tThread (.started h) (some x)
    tThreadName := Function.update s.tThreadName (.started h) mName }

/-- The body of `Thread(cb, name)`, called by thread `p`, for the object it has made. -/
def construct (p : Pthread) (x : ℕ) (name : String) (threads : Threads) (s : ThreadNames) :
    ThreadNames :=
  let mName := if name.isEmpty then "UNKNOWN" else name
  let s := { s with tThreadName := Function.update s.tThreadName p mName }
  run threads.created x mName { s with threads := threads }

/-- One operation of one thread. -/
def step (s : ThreadNames) (act : Pthread × NameAct) : Option ThreadNames :=
  if s.Alive act.1 then
    match act.2 with
    | .constructDefault x =>
      (s.threads.step (.constructDefault x)).map fun threads => { s with threads := threads }
    | .construct x name tid =>
      (s.threads.step (.construct x name tid)).map fun threads =>
        s.construct act.1 x name threads
    | .setName name => some (s.setName act.1 name)
    | .getName => some s
    | .swap x y => (s.threads.step (.swap x y)).map fun threads => { s with threads := threads }
  else none

end ThreadNames

/-- A program that starts without `Thread` objects. -/
def nameSystem : TransitionSystem ThreadNames (Pthread × NameAct) where
  init s := s = {}
  step := ThreadNames.step

end CoroutineCpp
