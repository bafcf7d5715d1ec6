import CoroutineCpp.Framework.TransitionSystem
import Mathlib.Data.Int.Notation
import Mathlib.Logic.Function.Basic

/-!
# `Thread` and its pthread handle

The wrapper of a POSIX thread (`src/thread.h`, `src/thread.cpp`) and a program that constructs,
joins, detaches, swaps and destroys any number of `Thread` objects.

The system numbers the handles `1, 2, …` as `pthread_create` hands them out, so that `0`, the value
that stands for "no handle" in `m_thread`, is none of them.  All pthread calls succeed.  `calls` is
the history of the calls that release a handle.  The callback and the semaphore that the
constructor and `Run` use between them are gone when the constructor returns.
-/

namespace CoroutineCpp

open Framework

/-- The members of a `Thread` that outlive its construction. -/
structure Thread where
  /-- `m_name` -/
  name : String := ""
  /-- `m_id` -/
  id : ℤ := -1
  /-- `m_thread`, a `pthread_t` -/
  thread : ℕ := 0
  /-- `m_joinable` -/
  joinable : Bool := true
  deriving DecidableEq, Repr

/-- The pthread calls that release a handle. -/
inductive PthreadCall
  | join (h : ℕ)
  | detach (h : ℕ)
  deriving DecidableEq, Repr

/-- The handle that is released. -/
def PthreadCall.handle : PthreadCall → ℕ
  | .join h => h
  | .detach h => h

namespace Thread

/-- `Thread(cb, name)`, when `pthread_create` hands out `h` and the thread finds itself to be
`tid`. -/
def construct (name : String) (h : ℕ) (tid : ℤ) : Thread where
  name := if name.isEmpty then "UNKNOWN" else name
  id := tid
  thread := h

/-- `Join`, with the pthread call it makes. -/
def join (t : Thread) : Thread × List PthreadCall :=
  if t.thread ≠ 0 then ({ t with joinable := false, thread := 0 }, [.join t.thread]) else (t, [])

/-- `Detach`, with the pthread call it makes. -/
def detach (t : Thread) : Thread × List PthreadCall :=
  if t.thread ≠ 0 then ({ t with joinable := false }, [.detach t.thread]) else (t, [])

/-- `~Thread` -/
def destroy (t : Thread) : List PthreadCall := if t.thread ≠ 0 then [.detach t.thread] else []

end Thread

/-- A program with its `Thread` objects. -/
structure Threads where
  /-- the `Thread` objects, by address -/
  objects : ℕ → Option Thread := fun _ => none
  /-- the number of handles `pthread_create` has handed out -/
  created : ℕ := 0
  /-- history: the pthread calls that release a handle, in order -/
  calls : List PthreadCall := []

/-- What the program does. -/
inductive ThreadAct
  /-- `Thread()` at address `x` -/
  | constructDefault (x : ℕ)
  /-- `Thread(cb, name)` at address `x` -/
  | construct (x : ℕ) (name : String) (tid : ℤ)
  | join (x : ℕ)
  | detach (x : ℕ)
  | swap (x y : ℕ)
  | destroy (x : ℕ)
  deriving DecidableEq

namespace Threads

/-- Replace the object at address `x`. -/
def setObject (s : Threads) (x : ℕ) (t : Option Thread) : Threads :=
  { s with objects := Function.update s.objects x t }

/-- One operation, `none` where an object it needs is not there, or one is in its place. -/
def step (s : Threads) : ThreadAct → Option Threads
  | .constructDefault x =>
    match s.objects x with
    | none => some (s.setObject x (some {}))
    | some _ => none
  | .construct x name tid =>
    match s.objects x with
    | none =>
      some { s.setObject x (some (.construct name (s.created + 1) tid)) with
        created := s.created + 1 }
    | some _ => none
  | .join x =>
    match s.objects x with
    | none => none
    | some t => some { s.setObject x (some t.join.1) with calls := s.calls ++ t.join.2 }
  | .detach x =>
    match s.objects x with
    | none => none
    | some t => some { s.setObject x (some t.detach.1) with calls := s.calls ++ t.detach.2 }
  | .swap x y =>
    match s.objects x, s.objects y with
    | some t, some t' => some ((s.setObject x (some t')).setObject y (some t))
    | _, _ => none
  | .destroy x =>
    match s.objects x with
    | none => none
    | some t => some { s.setObject x none with calls := s.calls ++ t.destroy }

/-- The handles released so far, in order. -/
def released (s : Threads) : List ℕ := s.calls.map PthreadCall.handle

end Threads

/-- A program that starts without `Thread` objects. -/
def threadSystem : TransitionSystem Threads ThreadAct where
  init s := s = {}
  step := Threads.step

end CoroutineCpp
