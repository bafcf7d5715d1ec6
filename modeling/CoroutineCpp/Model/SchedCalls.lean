import CoroutineCpp.Model.Dispatch

/-!
# `CoScheduler`, one call at a time

The executor table with its size, and the member functions that divide by the size or index the
table (`Stop`, `SchedulerTask` with `AddTask`, `DispatchTasksEqually`; `src/coscheduler.cpp`), each
taken as one step.  Here every division and every `m_executors[i]` is checked: what C++ leaves
undefined is an error that ends the call.

`dispatchChecked` is the pass of `Model/Dispatch.lean` with those checks put in.  Between two calls
the executors' own threads may do anything to the executors (`SchedCall.others`).
-/

namespace CoroutineCpp

/-- What C++ leaves undefined. -/
inductive Undefined
  | divisionByZero
  | outOfBounds
  deriving DecidableEq, Repr

/-- The members of a `CoScheduler` these functions use. -/
structure CoScheduler where
  /-- `m_executors.size()` -/
  size : ℕ
  /-- `m_executors` -/
  executors : Executors
  /-- `m_stopping` -/
  stopping : Bool := false

/-! ## Checked operations -/

/-- `m_executors[i]` -/
def executorAt (size : ℕ) (t : Executors) (i : ℕ) : Except Undefined CoExecutor :=
  if i < size then .ok (t i) else .error .outOfBounds

/-- `a / b` -/
def checkedDiv (a b : ℕ) : Except Undefined ℕ :=
  if b = 0 then .error .divisionByZero else .ok (a / b)

/-- `a % b` -/
def checkedMod (a b : ℕ) : Except Undefined ℕ :=
  if b = 0 then .error .divisionByZero else .ok (a % b)

/-! ## The pass, checked -/

/-- The loop that sums the loads, over the indices it has still to visit. -/
def countLoopChecked (size : ℕ) (t : Executors) : List ℕ → ℕ × ℕ → Except Undefined (ℕ × ℕ)
  | [], totals => .ok totals
  | i :: indices, (runnables, waitings) => do
    let ex ← executorAt size t i
    countLoopChecked size t indices
      (runnables + ex.getRunnableCount, waitings + ex.getWaitingCount)

/-- `stealLoop`, checked. -/
def stealLoopChecked (size : ℕ) (blocking : ℕ → Bool) :
    List ℕ → DispatchState × Executors → Except Undefined (DispatchState × Executors)
  | [], p => .ok p
  | idx :: indices, (d, t) => do
    let ex ← executorAt size t idx
    let load := ex.getRunnableCount
    let d := d.noteMin idx load
    if load > d.avgLoad then
      stealLoopChecked size blocking indices (d.stealFrom idx load (blocking idx) t)
    else stealLoopChecked size blocking indices (d.noteLowLoad idx load, t)

/-- `handOutLoop`, checked. -/
def handOutLoopChecked (size : ℕ) :
    List (ℕ × ℕ) → DispatchState × Executors → Except Undefined (DispatchState × Executors)
  | [], p => .ok p
  | (idx, load) :: items, (d, t) =>
    if wrapSub d.avgLoad load = 0 then handOutLoopChecked size items (d, t)
    else do
      let _ ← executorAt size t idx
      let r := d.handTo idx (d.supplyEnd load) t
      if r.1.first ≥ d.stolen.length then .ok r else handOutLoopChecked size items r

/-- `handOutRest`, checked. -/
def handOutRestChecked (size : ℕ) (p : DispatchState × Executors) :
    Except Undefined (DispatchState × Executors) :=
  if p.1.first < p.1.stolen.length then do
    let _ ← executorAt size p.2 p.1.minLoadIdx
    .ok (p.1.handTo p.1.minLoadIdx p.1.stolen.length p.2)
  else .ok p

/-- `DispatchTasksEqually`, checked. -/
def dispatchChecked (size : ℕ) (blocking : ℕ → Bool) (t : Executors) :
    Except Undefined (DispatchState × Executors) := do
  let totals ← countLoopChecked size t (List.range size) (0, 0)
  let d : DispatchState :=
    { executorCount := size, totalRunnables := totals.1, totalWaitings := totals.2 }
  let totalLoads := d.totalRunnables + d.totalWaitings
  if totalLoads = 0 then .ok (d, t)
  else do
    let avgLoad ← checkedDiv totalLoads size
    let first ← executorAt size t 0
    let d := { d with avgLoad := avgLoad, minLoad := first.getRunnableCount }
    let p ← stealLoopChecked size blocking (List.range size) (d, t)
    if p.1.stolen = [] then .ok p
    else do
      let p ← handOutLoopChecked size p.1.lowLoad p
      handOutRestChecked size p

/-! ## The calls -/

namespace CoScheduler

/-- The loop of `Stop`, over the indices it has still to visit. -/
def stopLoop (size : ℕ) : List ℕ → Executors → Except Undefined Executors
  | [], t => .ok t
  | i :: indices, t => do
    let ex ← executorAt size t i
    stopLoop size indices (Function.update t i { ex with isStopping := true })

/-- `Stop`: set the flags, then empty the table. -/
def stop (s : CoScheduler) : Except Undefined CoScheduler := do
  let t ← stopLoop s.size (List.range s.size) s.executors
  .ok { size := 0, executors := t, stopping := true }

/-- `AddTask`, for the number `random` that `rand()` answers. -/
def addTask (tk : CoTaskPtr) (random : ℕ) (s : CoScheduler) : Except Undefined CoScheduler :=
  if s.size = 1 then do
    let ex ← executorAt s.size s.executors 0
    .ok { s with executors := Function.update s.executors 0 (ex.addTask tk).1 }
  else do
    let id ← checkedMod random s.size
    let ex ← executorAt s.size s.executors id
    .ok { s with executors := Function.update s.executors id (ex.addTask tk).1 }

/-- `SchedulerTask`, for the task `tk` it makes. -/
def schedulerTask (tk : CoTaskPtr) (random : ℕ) (s : CoScheduler) :
    Except Undefined CoScheduler := s.addTask tk random

/-- One pass of the dispatcher thread. -/
def dispatchTasksEqually (blocking : ℕ → Bool) (s : CoScheduler) :
    Except Undefined CoScheduler := do
  let p ← dispatchChecked s.size blocking s.executors
  .ok { s with executors := p.2 }

end CoScheduler

/-- What happens to a scheduler. -/
inductive SchedCall
  /-- a producer calls `SchedulerTask` -/
  | schedulerTask (tk : CoTaskPtr) (random : ℕ)
  /-- `Stop` -/
  | stop
  /-- the dispatcher makes a pass -/
  | pass (blocking : ℕ → Bool)
  /-- the executors' own threads, and whoever calls the executors directly, have changed them -/
  | others (t : Executors)

/-- A producer's call. -/
def SchedCall.IsSchedulerTask : SchedCall → Prop
  | .schedulerTask _ _ => True
  | _ => False

/-- A call of `Stop`. -/
def SchedCall.IsStop : SchedCall → Prop
  | .stop => True
  | _ => False

namespace CoScheduler

/-- One call. -/
def call (s : CoScheduler) : SchedCall → Except Undefined CoScheduler
  | .schedulerTask tk random => s.schedulerTask tk random
  | .stop => s.stop
  | .pass blocking => s.dispatchTasksEqually blocking
  | .others t => .ok { s with executors := t }

/-- A sequence of calls, ended by the first that is undefined. -/
def calls : List SchedCall → CoScheduler → Except Undefined CoScheduler
  | [], s => .ok s
  | c :: cs, s => (s.call c).bind (calls cs)

/-- A scheduler after its constructor, which makes one executor, and after `Start`, which adds
`more`. -/
def started (more : ℕ) (t : Executors) : CoScheduler := { size := more + 1, executors := t }

end CoScheduler

end CoroutineCpp
