import CoroutineCpp.Model.CoExecutor

/-!
# `CoScheduler::DispatchTasksEqually`

One pass of the dispatcher (`src/coscheduler.cpp`), at two granularities that share the bodies of
its loops.

* `DispatchState.step` performs one queue operation of the pass at a time: a size read, a
  `GiveUpTasks`, a batch `AddTask`.  Between two steps other threads may do anything to the
  executors, so the loads, the average and the map of low-load executors may disagree.
* `dispatchTasksEqually` is the whole pass run without interference.

The table `m_executors` is a function of the index together with its size; an access at or beyond
the size is recorded as `DispatchPc.outOfBounds`.  The vectors `runnables_counts` and
`waitings_counts` are filled and never read; of the repeated size reads of the first loop the
model keeps the two that feed the totals.

`handed` is a history variable: which executor was pushed which stolen task, in order.
-/

namespace CoroutineCpp

/-- The executors of the table `m_executors`, by index. -/
abbrev Executors := ℕ → CoExecutor

/-- The points between the queue operations of one pass. -/
inductive DispatchPc
  /-- no pass is running -/
  | idle
  /-- `total_runnables += m_executors[i]->GetRunnableCount()` -/
  | countRunnable (i : ℕ)
  /-- `total_waitings += m_executors[i]->GetWaitingCount()` -/
  | countWaiting (i : ℕ)
  /-- `min_load = m_executors[0]->GetRunnableCount()` -/
  | readMin
  /-- `load = m_executors[idx]->GetRunnableCount()` in the stealing loop -/
  | readLoad (idx : ℕ)
  /-- `load > avg_load`: `IsBlocking()` and `GiveUpTasks` of executor `idx` -/
  | giveUp (idx load : ℕ)
  /-- the hand-out loop, with the items of `low_load_executors` it has not reached -/
  | handOut (items : List (ℕ × ℕ))
  /-- the batch left over goes to executor `min_load_idx` -/
  | rest
  /-- `m_executors` was indexed out of bounds -/
  | outOfBounds
  deriving DecidableEq, Repr

/-- The local variables of a pass. -/
structure DispatchState where
  pc : DispatchPc := .idle
  /-- `executor_count` -/
  executorCount : ℕ := 0
  /-- `total_runnables` -/
  totalRunnables : ℕ := 0
  /-- `total_waitings` -/
  totalWaitings : ℕ := 0
  /-- `avg_load` -/
  avgLoad : ℕ := 0
  /-- `stolen` -/
  stolen : ThreadSafeDeque CoTaskPtr := []
  /-- `low_load_executors`, in key order -/
  lowLoad : List (ℕ × ℕ) := []
  /-- `min_load_idx` -/
  minLoadIdx : ℕ := 0
  /-- `min_load` -/
  minLoad : ℕ := 0
  /-- the position of the iterator `first` in `stolen` -/
  first : ℕ := 0
  /-- history: the pushes of the hand-out so far -/
  handed : List (ℕ × CoTaskPtr) := []
  deriving DecidableEq, Repr

namespace DispatchState

/-- The tasks the pass has stolen and not yet handed out. -/
def outstanding (d : DispatchState) : List CoTaskPtr := d.stolen.drop d.first

/-! ## The bodies of the loops -/

/-- The update of `min_load` and `min_load_idx` in the stealing loop. -/
def noteMin (idx load : ℕ) (d : DispatchState) : DispatchState :=
  if d.minLoad > load then { d with minLoad := load, minLoadIdx := idx } else d

/-- `low_load_executors[idx] = load`; the keys come in increasing order. -/
def noteLowLoad (idx load : ℕ) (d : DispatchState) : DispatchState :=
  { d with lowLoad := d.lowLoad ++ [(idx, load)] }

/-- The donor branch of the stealing loop, for the answer of `IsBlocking()`. -/
def stealFrom (idx load : ℕ) (blocking : Bool) (d : DispatchState) (t : Executors) :
    DispatchState × Executors :=
  let n := if blocking then 0 else wrapSub load d.avgLoad
  let r := (t idx).giveUpTasks d.stolen n
  ({ d with stolen := r.2 }, Function.update t idx r.1)

/-- `m_executors[idx]->AddTask(first, last); first = last`. -/
def handTo (idx last : ℕ) (d : DispatchState) (t : Executors) : DispatchState × Executors :=
  let batch := (d.stolen.drop d.first).take (last - d.first)
  ({ d with first := last, handed := d.handed ++ batch.map fun tk => (idx, tk) },
    Function.update t idx ((t idx).addTasks batch).1)

/-- `last = std::min(first + n_supply, stolen.end())` for `n_supply = avg_load - load`. -/
def supplyEnd (load : ℕ) (d : DispatchState) : ℕ :=
  min (d.first + wrapSub d.avgLoad load) d.stolen.length

/-! ## One queue operation at a time -/

/-- A new pass over a table of `size` executors, at its first queue operation. -/
def start (size : ℕ) : DispatchState :=
  { executorCount := size, pc := if 0 < size then .countRunnable 0 else .idle }

/-- The end of the first loop: nothing to do for a total load of zero. -/
def afterCount (d : DispatchState) : DispatchState :=
  let totalLoads := d.totalRunnables + d.totalWaitings
  if totalLoads = 0 then { d with pc := .idle }
  else { d with avgLoad := totalLoads / d.executorCount, pc := .readMin }

/-- The head of the stealing loop, and what follows it. -/
def nextLoad (idx : ℕ) (d : DispatchState) : DispatchState :=
  if idx < d.executorCount then { d with pc := .readLoad idx }
  else if d.stolen = [] then { d with pc := .idle }
  else { d with pc := .handOut d.lowLoad }

/-- What follows the hand-out loop. -/
def afterHandOut (d : DispatchState) : DispatchState :=
  if d.first < d.stolen.length then { d with pc := .rest } else { d with pc := .idle }

/-- The next queue operation of the pass on a table that holds `size` executors now; `blocking`
answers `IsBlocking()` where the step asks. -/
def step (size : ℕ) (blocking : Bool) (d : DispatchState) (t : Executors) :
    Option (DispatchState × Executors) :=
  let outOfBounds := some ({ d with pc := .outOfBounds }, t)
  match d.pc with
  | .idle => none
  | .outOfBounds => none
  | .countRunnable i =>
    if i < size then
      some ({ d with
        totalRunnables := d.totalRunnables + (t i).getRunnableCount, pc := .countWaiting i }, t)
    else outOfBounds
  | .countWaiting i =>
    if i < size then
      let d := { d with totalWaitings := d.totalWaitings + (t i).getWaitingCount }
      if i + 1 < d.executorCount then some ({ d with pc := .countRunnable (i + 1) }, t)
      else some (d.afterCount, t)
    else outOfBounds
  | .readMin =>
    if 0 < size then
      some (nextLoad 0 { d with minLoadIdx := 0, minLoad := (t 0).getRunnableCount }, t)
    else outOfBounds
  | .readLoad idx =>
    if idx < size then
      let load := (t idx).getRunnableCount
      let d := d.noteMin idx load
      if load > d.avgLoad then some ({ d with pc := .giveUp idx load }, t)
      else some ((d.noteLowLoad idx load).nextLoad (idx + 1), t)
    else outOfBounds
  | .giveUp idx load =>
    if idx < size then
      let r := d.stealFrom idx load blocking t
      some (r.1.nextLoad (idx + 1), r.2)
    else outOfBounds
  | .handOut [] => some (d.afterHandOut, t)
  | .handOut ((idx, load) :: items) =>
    if wrapSub d.avgLoad load = 0 then some ({ d with pc := .handOut items }, t)
    else if idx < size then
      let r := d.handTo idx (d.supplyEnd load) t
      if r.1.first ≥ d.stolen.length then some (r.1.afterHandOut, r.2)
      else some ({ r.1 with pc := .handOut items }, r.2)
    else outOfBounds
  | .rest =>
    if d.minLoadIdx < size then
      let r := d.handTo d.minLoadIdx d.stolen.length t
      some ({ r.1 with pc := .idle }, r.2)
    else outOfBounds

end DispatchState

/-! ## The whole pass, undisturbed -/

/-- The stealing loop over the indices it has still to visit. -/
def stealLoop (blocking : ℕ → Bool) :
    List ℕ → DispatchState × Executors → DispatchState × Executors
  | [], p => p
  | idx :: indices, (d, t) =>
    let load := (t idx).getRunnableCount
    let d := d.noteMin idx load
    if load > d.avgLoad then stealLoop blocking indices (d.stealFrom idx load (blocking idx) t)
    else stealLoop blocking indices (d.noteLowLoad idx load, t)

/-- The hand-out loop over the items of `low_load_executors` it has still to visit. -/
def handOutLoop : List (ℕ × ℕ) → DispatchState × Executors → DispatchState × Executors
  | [], p => p
  | (idx, load) :: items, (d, t) =>
    if wrapSub d.avgLoad load = 0 then handOutLoop items (d, t)
    else
      let r := d.handTo idx (d.supplyEnd load) t
      if r.1.first ≥ d.stolen.length then r else handOutLoop items r

/-- The batch left over, if any, for the executor that was least loaded at first. -/
def handOutRest (p : DispatchState × Executors) : DispatchState × Executors :=
  if p.1.first < p.1.stolen.length then p.1.handTo p.1.minLoadIdx p.1.stolen.length p.2 else p

/-- `DispatchTasksEqually` on `size` executors, the answers of `IsBlocking()` given by index. -/
def dispatchTasksEqually (size : ℕ) (blocking : ℕ → Bool) (t : Executors) :
    DispatchState × Executors :=
  let d : DispatchState :=
    { executorCount := size
      totalRunnables := ((List.range size).map fun i => (t i).getRunnableCount).sum
      totalWaitings := ((List.range size).map fun i => (t i).getWaitingCount).sum }
  let totalLoads := d.totalRunnables + d.totalWaitings
  if totalLoads = 0 then (d, t)
  else
    let d := { d with avgLoad := totalLoads / size, minLoad := (t 0).getRunnableCount }
    let p := stealLoop blocking (List.range size) (d, t)
    if p.1.stolen = [] then p else handOutRest (handOutLoop p.1.lowLoad p)

/-! ## The iterators of the hand-out

An iterator into `stolen` is its distance from `stolen.begin()`; `stolen.end()` is the length. -/

/-- The positions the hand-out loop forms: `first + n_supply` and what `std::min` makes of it. -/
def handOutPositions : List (ℕ × ℕ) → DispatchState × Executors → List ℕ
  | [], _ => []
  | (idx, load) :: items, (d, t) =>
    if wrapSub d.avgLoad load = 0 then handOutPositions items (d, t)
    else
      let r := d.handTo idx (d.supplyEnd load) t
      (d.first + wrapSub d.avgLoad load) :: d.supplyEnd load ::
        if r.1.first ≥ d.stolen.length then [] else handOutPositions items r

/-- The positions formed in a pass of `DispatchTasksEqually`, `stolen.begin()` first. -/
def dispatchPositions (size : ℕ) (blocking : ℕ → Bool) (t : Executors) : List ℕ :=
  let d : DispatchState :=
    { executorCount := size
      totalRunnables := ((List.range size).map fun i => (t i).getRunnableCount).sum
      totalWaitings := ((List.range size).map fun i => (t i).getWaitingCount).sum }
  let totalLoads := d.totalRunnables + d.totalWaitings
  if totalLoads = 0 then []
  else
    let d := { d with avgLoad := totalLoads / size, minLoad := (t 0).getRunnableCount }
    let p := stealLoop blocking (List.range size) (d, t)
    if p.1.stolen = [] then [] else 0 :: handOutPositions p.1.lowLoad p

end CoroutineCpp
