import Mathlib.Data.Nat.Notation
import Mathlib.Logic.Basic

/-!
# `Coroutine`

The state of a coroutine object and what `Resume`, `GiveUp` and the two ends of `Run` do to it
(`src/coroutine.h`, `src/coroutine.cpp`).  The context switch itself is not a function here:
`resume` stops where `swapcontext` enters the coroutine, and the functions for giving up,
returning and throwing start from there.  The bodies are arbitrary, so which of the three
happens, and when, is chosen by the label of a step in the modules above.

Threads are numbered; the master coroutine of a thread is named by that number.
-/

namespace CoroutineCpp

/-- A thread, and with it that thread's master coroutine `st_master_co`. -/
abbrev ThreadId := ℕ

/-- The value of a non-null `std::exception_ptr`. -/
abbrev ExceptionPtr := ℕ

/-- `Coroutine::Status`. -/
inductive Status
  | idle
  | running
  | finished
  | hold
  | except
  deriving DecidableEq, Repr

/-- The members of a `Coroutine` its functions read or write. -/
structure Coroutine where
  /-- `m_status` -/
  status : Status := .idle
  /-- `m_stack != nullptr` -/
  stack : Bool := false
  /-- `m_ctx.uc_link`: the thread whose master context is resumed when the body ends -/
  ucLink : Option ThreadId := none
  /-- `m_master_co`: the thread whose master context `GiveUp` switches to -/
  masterCo : Option ThreadId := none
  /-- `m_ex_ptr` -/
  exPtr : Option ExceptionPtr := none
  /-- `m_yield_cnt` -/
  yieldCnt : ℕ := 0
  /-- `m_is_master` -/
  isMaster : Bool := false
  deriving DecidableEq, Repr

namespace Coroutine

/-- `CanResume`. -/
def canResume (co : Coroutine) : Bool := co.status = .idle || co.status = .hold

/-- `CanDestroy`. -/
def canDestroy (co : Coroutine) : Bool :=
  co.status = .idle || co.status = .finished || co.status = .except

/-- What a call of `Resume` comes to. -/
inductive ResumeOutcome
  /-- the coroutine is over: `Resume` returns at once -/
  | inert
  /-- the assertion `CanResume()` fails -/
  | aborted
  /-- the coroutine is switched in -/
  | switched (co : Coroutine)
  deriving DecidableEq, Repr

/-- The lazy set-up of the first `Resume`: allocate the stack and capture the master coroutine of
the calling thread, once and for all. -/
def prepare (thread : ThreadId) (co : Coroutine) : Coroutine :=
  if !co.isMaster && !co.stack then
    { co with stack := true, ucLink := some thread, masterCo := some thread }
  else co

/-- `Resume` on `thread`, up to the switch into the coroutine. -/
def resume (thread : ThreadId) (co : Coroutine) : ResumeOutcome :=
  if co.status = .finished ∨ co.status = .except then .inert
  else if !co.canResume then .aborted
  else .switched { co.prepare thread with status := .running }

/-- `GiveUp`, up to the switch back to the master coroutine. -/
def giveUp (co : Coroutine) : Coroutine :=
  { co with status := .hold, yieldCnt := co.yieldCnt + 1 }

/-- `Run` after `m_func()` has returned. -/
def runReturned (co : Coroutine) : Coroutine := { co with status := .finished }

/-- `Run` after `m_func()` has thrown `ex`. -/
def runThrew (ex : ExceptionPtr) (co : Coroutine) : Coroutine :=
  { co with status := .except, exPtr := some ex }

/-! ## What `Resume` can do -/

lemma resume_eq_switched {thread : ThreadId} {co co' : Coroutine}
    (h : co.resume thread = .switched co') :
    (co.status = .idle ∨ co.status = .hold) ∧
      co' = { co.prepare thread with status := .running } := by
  unfold resume at h
  split at h
  · cases h
  · split at h
    next => cases h
    next hcan =>
      refine ⟨?_, by simpa using h.symm⟩
      simpa [canResume, Classical.or_iff_not_imp_left] using hcan

lemma resume_eq_inert {thread : ThreadId} {co : Coroutine} (h : co.resume thread = .inert) :
    co.status = .finished ∨ co.status = .except := by
  unfold resume at h
  split at h
  next hover => exact hover
  next => split at h <;> cases h

/-- The assertion in `Resume` fails exactly on a coroutine that is running. -/
lemma resume_eq_aborted_iff {thread : ThreadId} {co : Coroutine} :
    co.resume thread = .aborted ↔ co.status = .running := by
  unfold resume canResume
  cases co.status <;> simp

lemma prepare_of_stack {thread : ThreadId} {co : Coroutine} (h : co.stack = true) :
    co.prepare thread = co := by
  simp [prepare, h]

end Coroutine

end CoroutineCpp
