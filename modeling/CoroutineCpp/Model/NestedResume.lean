import CoroutineCpp.Framework.TransitionSystem
import CoroutineCpp.Model.Coroutine

/-!
# Contexts of one thread

`Resume`, `GiveUp` and the ends of `StaticRun` as switches of contexts (`src/coroutine.cpp`), on one
thread on which any code may call `Resume`: the code of the thread itself or the body of a
coroutine.  A context is whose code it runs and the place where that code goes on;
`swapcontext` saves the context that runs and loads another one, `uc_link` loads one when a body
ends.  What the bodies do next is in the label of a step.

A context is good for one load: then the call that saved it returns, and its frame, in which the
context goes on, is no more.  Loading it again is undefined, and nothing moves after that.
-/

namespace CoroutineCpp

/-- A coroutine object of the thread. -/
abbrev CoId := ℕ

/-- A place at which code goes on. -/
inductive CodePoint
  /-- the thread's code before its first `Resume` -/
  | start
  /-- the beginning of `StaticRun` -/
  | entry
  /-- right after the call of `GiveUp` that made `m_yield_cnt` what it says -/
  | afterGiveUp (yieldCnt : ℕ)
  /-- right after the call of `Resume` with this number, of those that switched on the thread -/
  | afterResume (call : ℕ)
  deriving DecidableEq, Repr

/-- A `ucontext_t`.  The code of the thread itself has no coroutine as its owner. -/
structure UContext where
  owner : Option CoId
  point : CodePoint
  deriving DecidableEq, Repr

/-- A call of `Resume` that switched. -/
structure ResumeCall where
  caller : Option CoId
  target : CoId
  deriving DecidableEq, Repr

/-- A thread, its coroutines, and what runs. -/
structure SwitchState where
  thread : ThreadId
  coroutines : CoId → Coroutine := fun _ => {}
  /-- `m_ctx` of the coroutines; `none` as `getcontext` filled it in the constructor -/
  ctx : CoId → Option UContext := fun _ => none
  /-- `m_ctx` of the master coroutines of the threads; `none` as the constructor left it -/
  masterCtx : ThreadId → Option UContext := fun _ => none
  /-- the context that was loaded last, which runs -/
  current : UContext := { owner := none, point := .start }
  /-- an assertion has failed -/
  aborted : Bool := false
  /-- a context was loaded whose frame is no more -/
  undefined : Bool := false
  /-- history: the contexts that were loaded -/
  loaded : List UContext := []
  /-- history: the calls of `Resume` that switched, the latest first -/
  calls : List ResumeCall := []

namespace SwitchState

/-- `m_ctx` of coroutine `c` when `Resume` is about to switch: `makecontext` has set it up if there
was no stack. -/
def madeContext (s : SwitchState) (c : CoId) : Option UContext :=
  if !(s.coroutines c).isMaster && !(s.coroutines c).stack then
    some { owner := some c, point := .entry }
  else s.ctx c

/-- Load a context. -/
def load (s : SwitchState) (context : UContext) : SwitchState :=
  if context ∈ s.loaded then { s with undefined := true }
  else { s with current := context, loaded := context :: s.loaded }

/-- `Resume` of coroutine `c`, called by the code that runs. -/
def resume (s : SwitchState) (c : CoId) : Option SwitchState :=
  match (s.coroutines c).resume s.thread with
  | .inert => some s
  | .aborted => some { s with aborted := true }
  | .switched co =>
    -- `swapcontext(&m_master_co->m_ctx, &m_ctx)`
    match co.masterCo, s.madeContext c with
    | some master, some context =>
      some (load { s with
        coroutines := Function.update s.coroutines c co
        ctx := Function.update s.ctx c (some context)
        masterCtx := Function.update s.masterCtx master
          (some { owner := s.current.owner, point := .afterResume s.calls.length })
        calls := { caller := s.current.owner, target := c } :: s.calls } context)
    | _, _ => none

/-- `GiveUp`, called by the body of coroutine `c`. -/
def giveUp (s : SwitchState) (c : CoId) : Option SwitchState :=
  let co := (s.coroutines c).giveUp
  -- `swapcontext(&m_ctx, &m_master_co->m_ctx)`
  (co.masterCo.bind s.masterCtx).map fun context =>
    load { s with
      coroutines := Function.update s.coroutines c co
      ctx := Function.update s.ctx c
        (some { owner := some c, point := .afterGiveUp co.yieldCnt }) } context

/-- The end of `StaticRun` of coroutine `c`, whose `Run` leaves the object as `f` says; the context
`uc_link` is loaded. -/
def finish (s : SwitchState) (f : Coroutine → Coroutine) (c : CoId) : Option SwitchState :=
  let co := f (s.coroutines c)
  (co.ucLink.bind s.masterCtx).map fun context =>
    load { s with coroutines := Function.update s.coroutines c co } context

end SwitchState

/-- What the code that runs does next. -/
inductive SwitchAct
  /-- it calls `Resume` of coroutine `c` -/
  | resume (c : CoId)
  /-- the body calls `GiveUp` -/
  | giveUp
  /-- the body returns -/
  | returned
  /-- the body throws -/
  | threw (ex : ExceptionPtr)
  deriving DecidableEq, Repr

/-- The body gives up, returns or throws. -/
def SwitchAct.leaves : SwitchAct → Bool
  | resume _ => false
  | _ => true

namespace SwitchState

/-- One step of the thread.  Only the body of a coroutine gives up, and when it ends `StaticRun`
ends. -/
def step (s : SwitchState) (a : SwitchAct) : Option SwitchState :=
  if s.aborted || s.undefined then none else
  match a, s.current.owner with
  | .resume c, _ => s.resume c
  | .giveUp, some c => s.giveUp c
  | .returned, some c => s.finish Coroutine.runReturned c
  | .threw ex, some c => s.finish (Coroutine.runThrew ex) c
  | _, none => none

end SwitchState

/-- A thread that runs its own code, and coroutines that were only constructed. -/
def switchSystem : Framework.TransitionSystem SwitchState SwitchAct where
  init s := ∃ thread, s = { thread := thread }
  step := SwitchState.step

end CoroutineCpp
