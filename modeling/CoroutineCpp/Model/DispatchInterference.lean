import CoroutineCpp.Framework.TransitionSystem
import CoroutineCpp.Model.Dispatch

/-!
# One dispatcher pass among other threads

The pass of `Model/Dispatch.lean`, one queue operation at a time, interleaved with whatever other
threads do to the executors of the table between two of its operations: producers call `AddTask`,
executors take tasks from the front of their runnable queues, and the waiting queues change in
any way (tasks are held and woken).  The executors start with any contents, and every answer of
`IsBlocking()` is allowed.
-/

namespace CoroutineCpp

open Framework

/-- The executors, the pass, and what the other threads have added and taken since it began. -/
structure PassState where
  executors : Executors
  disp : DispatchState
  /-- history: the tasks added by `AddTask` -/
  added : List CoTaskPtr := []
  /-- history: the tasks taken by executors -/
  taken : List CoTaskPtr := []

/-- The steps of the pass and of the threads around it. -/
inductive PassAct
  /-- the next queue operation of the pass, with the answer of `IsBlocking()` where it asks -/
  | pass (blocking : Bool)
  /-- `m_executors[e]->AddTask(tk)` -/
  | addTask (e : ℕ) (tk : CoTaskPtr)
  /-- `m_executors[e]->AddTask(begin, end)` -/
  | addTasks (e : ℕ) (tks : List CoTaskPtr)
  /-- executor `e` takes the front of its runnable queue -/
  | take (e : ℕ)
  /-- the waiting queue of executor `e` becomes `tks` -/
  | setWaiting (e : ℕ) (tks : List CoTaskPtr)
  deriving DecidableEq

namespace PassState

/-- Replace executor `e`. -/
def setExecutor (s : PassState) (e : ℕ) (ex : CoExecutor) : PassState :=
  { s with executors := Function.update s.executors e ex }

/-- One step on a fixed table of `size` executors. -/
def step (size : ℕ) (s : PassState) : PassAct → Option PassState
  | .pass blocking =>
    (s.disp.step size blocking s.executors).map fun r =>
      { s with disp := r.1, executors := r.2 }
  | .addTask e tk =>
    if e < size then
      some { s.setExecutor e ((s.executors e).addTask tk).1 with
        added := s.added ++ if tk = nullptr then [] else [tk] }
    else none
  | .addTasks e tks =>
    if e < size then
      some { s.setExecutor e ((s.executors e).addTasks tks).1 with added := s.added ++ tks }
    else none
  | .take e =>
    match (s.executors e).runnableQueue with
    | [] => none
    | tk :: rest =>
      if e < size then
        some { s.setExecutor e { s.executors e with runnableQueue := rest } with
          taken := s.taken ++ [tk] }
      else none
  | .setWaiting e tks =>
    if e < size then some (s.setExecutor e { s.executors e with waitingQueue := tks }) else none

end PassState

/-- A pass over `size` executors that hold what `t₀` says when it begins. -/
def interferedPass (size : ℕ) (t₀ : Executors) : TransitionSystem PassState PassAct where
  init s := s = { executors := t₀, disp := .start size }
  step := PassState.step size

end CoroutineCpp
