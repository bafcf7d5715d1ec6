import CoroutineCpp.Framework.TransitionSystem
import CoroutineCpp.Model.Coroutine
import Mathlib.Algebra.Ring.Nat
import Mathlib.Data.Int.Notation

/-!
# The counters of `coroutine_meta` and the coroutines' stacks

The constructors and the destructor of `Coroutine` and the set-up in `Resume`
(`src/coroutine.cpp`), as the threads of a program run them side by side: each access to one of the
atomic counters `s_co_id` and `s_co_count` is a step, and so is `getcontext`, which may fail.  Then
the constructor throws, or for a master coroutine ends the thread, and there is no object.

A coroutine is resumed and destroyed by one thread at a time, and a master coroutine is never
resumed.  `MemAllocator::alloc` succeeds.
-/

namespace CoroutineCpp

open Framework

/-- How far a coroutine object has come. -/
inductive CoStage
  /-- in the constructor, with `m_id` from `++s_co_id` -/
  | numbered
  /-- behind `getcontext` -/
  | captured
  /-- behind `++s_co_count` -/
  | alive
  /-- in the destructor, before `--s_co_count` -/
  | leaving
  deriving DecidableEq, Repr

/-- A coroutine object. -/
structure CoObject where
  /-- `m_id` -/
  id : ℤ
  stage : CoStage := .numbered
  /-- the other members, as `Model/Coroutine.lean` has them -/
  co : Coroutine := {}
  deriving DecidableEq, Repr

/-- The counters, the objects there are, and what was allocated for them. -/
structure CoMeta where
  /-- `s_co_id` -/
  coId : ℤ := -1
  /-- `s_co_count` -/
  coCount : ℤ := 0
  objects : List CoObject := []
  /-- history: the calls of `MemAllocator::alloc` -/
  allocs : ℕ := 0
  /-- history: the calls of `MemAllocator::dealloc` -/
  deallocs : ℕ := 0
  /-- history: the ids handed out -/
  ids : List ℤ := []
  /-- an assertion has failed -/
  aborted : Bool := false
  deriving DecidableEq, Repr

/-- How control leaves a running coroutine. -/
inductive CoLeave
  | giveUp
  | returned
  | threw (ex : ExceptionPtr)
  deriving DecidableEq, Repr

/-- The steps of the threads, each with the index of the object it is about. -/
inductive MetaAct
  | construct (isMaster : Bool)
  | getcontext (i : ℕ) (ok : Bool)
  | count (i : ℕ)
  | resume (i : ℕ) (p : ThreadId)
  | leave (i : ℕ) (how : CoLeave)
  /-- the destructor, up to `--s_co_count` -/
  | destroy (i : ℕ)
  | uncount (i : ℕ)
  deriving DecidableEq, Repr

namespace CoMeta

/-- `GetCoCount` -/
def getCoCount (s : CoMeta) : ℤ := s.coCount

/-- The status that a running coroutine leaves with. -/
def leave (how : CoLeave) (co : Coroutine) : Coroutine :=
  match how with
  | .giveUp => co.giveUp
  | .returned => co.runReturned
  | .threw ex => co.runThrew ex

/-- `Resume`, up to the switch. -/
def resume (i : ℕ) (p : ThreadId) (o : CoObject) (s : CoMeta) : CoMeta :=
  match o.co.resume p with
  | .inert => s
  | .aborted => { s with aborted := true }
  | .switched co =>
    { s with
      objects := s.objects.set i { o with co := co }
      allocs := if o.co.stack then s.allocs else s.allocs + 1 }

/-- `~Coroutine`, up to `--s_co_count`. -/
def destroy (i : ℕ) (o : CoObject) (s : CoMeta) : CoMeta :=
  if o.co.stack then
    if o.co.canDestroy then
      { s with
        objects := s.objects.set i { o with stage := .leaving, co := { o.co with stack := false } }
        deallocs := s.deallocs + 1 }
    else { s with aborted := true }
  else { s with objects := s.objects.set i { o with stage := .leaving } }

/-- A step about the object `o` at index `i`. -/
def objectStep (s : CoMeta) (i : ℕ) (o : CoObject) : MetaAct → Option CoMeta
  | .construct _ => none
  | .getcontext _ ok =>
    if o.stage = .numbered then
      if ok then some { s with objects := s.objects.set i { o with stage := .captured } }
      else some { s with objects := s.objects.eraseIdx i }
    else none
  | .count _ =>
    if o.stage = .captured then
      some { s with
        objects := s.objects.set i { o with stage := .alive }
        coCount := s.coCount + 1 }
    else none
  | .resume _ p =>
    if o.stage = .alive ∧ o.co.isMaster = false then some (s.resume i p o) else none
  | .leave _ how =>
    if o.stage = .alive ∧ o.co.status = .running then
      some { s with objects := s.objects.set i { o with co := leave how o.co } }
    else none
  | .destroy _ => if o.stage = .alive then some (s.destroy i o) else none
  | .uncount _ =>
    if o.stage = .leaving then
      some { s with objects := s.objects.eraseIdx i, coCount := s.coCount - 1 }
    else none

/-- The object that a step is about. -/
def index : MetaAct → ℕ
  | .construct _ => 0
  | .getcontext i _ | .count i | .resume i _ | .leave i _ | .destroy i | .uncount i => i

/-- One step of one thread; none once an assertion has failed. -/
def step (s : CoMeta) (a : MetaAct) : Option CoMeta :=
  if s.aborted then none
  else
    match a with
    | .construct isMaster =>
      some { s with
        coId := s.coId + 1
        objects := { id := s.coId + 1, co := { isMaster := isMaster } } :: s.objects
        ids := (s.coId + 1) :: s.ids }
    | a => (s.objects[index a]?).bind fun o => s.objectStep (index a) o a

/-- The program from its start. -/
def metaSystem : TransitionSystem CoMeta MetaAct where
  init s := s = {}
  step := step

end CoMeta

end CoroutineCpp
