import CoroutineCpp.Framework.TransitionSystem
import CoroutineCpp.Model.CoExecutor

/-!
# The two ready queues of an executor

One executor seen through the two queues `Process` picks from, the runnable and the awoken one.  A
step is a pick, as `Process` makes it at the head of its loop, or what can happen to an executor
between two picks: `AddTask`, a push of `WakeupFromEntry` or `WakeupAllTasks`, `GiveUpTasks`, a new
call of `Process`, and anything that leaves the two queues alone.  Nothing is said about who does
it and when, so the runs here include those of the whole system
(`Properties/ReadyRuns.lean`).

A queue is named by the argument of `AssignRunnableTask`: `true` for the awoken queue.
-/

namespace CoroutineCpp

open Framework

/-- The queue `AssignRunnableTask(fromAwoken)` takes from. -/
def CoExecutor.readyQueue (ex : CoExecutor) (fromAwoken : Bool) : List CoTaskPtr :=
  if fromAwoken then ex.awokenQueue else ex.runnableQueue

@[simp] lemma CoExecutor.readyQueue_true (ex : CoExecutor) :
    ex.readyQueue true = ex.awokenQueue := rfl

@[simp] lemma CoExecutor.readyQueue_false (ex : CoExecutor) :
    ex.readyQueue false = ex.runnableQueue := rfl

/-- An executor and the local of `Process`. -/
structure ReadyState where
  ex : CoExecutor
  /-- `last_retrieve_from_awoken` -/
  last : Bool
  /-- history: the tasks picked, each with the queue it was taken from -/
  picks : List (Bool × CoTaskPtr) := []
  /-- history: the pushes onto each of the two queues -/
  arrived : Bool → List CoTaskPtr := fun _ => []
  /-- history: the tasks `GiveUpTasks` took from the runnable queue -/
  stolen : List CoTaskPtr := []

/-- The labels of the steps. -/
inductive ReadyAct
  | addTask (tk : CoTaskPtr)
  | addTasks (tks : List CoTaskPtr)
  /-- pushes of `WakeupFromEntry` or `WakeupAllTasks` onto the awoken queue -/
  | awaken (tks : List CoTaskPtr)
  | giveUpTasks (n : ℕ)
  /-- `Process` finds the executor not stopped and a queue not empty -/
  | pick
  /-- `Process` is called -/
  | process
  /-- the executor becomes `ex'`, with the same tasks in the two queues -/
  | rest (ex' : CoExecutor)
  deriving DecidableEq

namespace ReadyState

/-- The step with the given label, `none` where it is not enabled. -/
def step (s : ReadyState) : ReadyAct → Option ReadyState
  | .addTask tk =>
    some { s with
      ex := (s.ex.addTask tk).1
      arrived := Function.update s.arrived false
        (s.arrived false ++ if tk = nullptr then [] else [tk]) }
  | .addTasks tks =>
    some { s with
      ex := (s.ex.addTasks tks).1
      arrived := Function.update s.arrived false (s.arrived false ++ tks) }
  | .awaken tks =>
    some { s with
      ex := { s.ex with awokenQueue := tks.foldl ThreadSafeDeque.pushBack s.ex.awokenQueue }
      arrived := Function.update s.arrived true (s.arrived true ++ tks) }
  | .giveUpTasks n =>
    let r := s.ex.giveUpTasks s.stolen n
    some { s with ex := r.1, stolen := r.2 }
  | .pick =>
    if s.ex.isStopping then none
    else
      match s.ex.chooseQueue s.last with
      | none => none
      | some fromAwoken =>
        (s.ex.assignRunnableTask fromAwoken).map fun r =>
          { s with
            ex := r.1
            last := r.2
            picks := s.picks ++ [(fromAwoken, r.1.runningTask)] }
  | .process => some { s with last := false }
  | .rest ex' =>
    if ∀ b, ex'.readyQueue b = s.ex.readyQueue b then some { s with ex := ex' } else none

end ReadyState

/-- The runs from any executor and any value of `last_retrieve_from_awoken`. -/
def readySystem (ex : CoExecutor) (last : Bool) : TransitionSystem ReadyState ReadyAct where
  init s := s = { ex := ex, last := last }
  step := ReadyState.step

/-- A new call of `Process`. -/
def ReadyAct.isProcess : ReadyAct → Bool
  | .process => true
  | _ => false

/-- A removal from the back of the runnable queue. -/
def ReadyAct.isGiveUp : ReadyAct → Bool
  | .giveUpTasks _ => true
  | _ => false

end CoroutineCpp
