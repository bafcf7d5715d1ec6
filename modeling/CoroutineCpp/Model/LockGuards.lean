import CoroutineCpp.Framework.TransitionSystem
import CoroutineCpp.Model.Coroutine

/-!
# `RWMutex` and its two guards

The wrapper of `pthread_rwlock_t` and the classes `RdLockGuard` and `WrLockGuard`
(`src/mutexes.h`), and a program whose threads make and destroy guards of one `RWMutex`, each in the
scope of one thread.

The lock is modelled by who holds it.  A call for it blocks while another thread holds it in the
other mode, and fails where POSIX lets it: with `EDEADLK` in a thread that holds it for writing, and
a call for reading with `EAGAIN` where there are too many readers (`full`).  The wrapper does not
look at the result, so that the guard takes the lock to be held in either case.
-/

namespace CoroutineCpp

open Framework

/-- Who holds the `pthread_rwlock_t`; a thread may hold it for reading more than once. -/
structure RWMutex where
  writer : Option ThreadId := none
  readers : List ThreadId := []
  deriving DecidableEq, Repr

/-- The two classes of guards. -/
inductive LockMode
  /-- `RdLockGuard` -/
  | rd
  /-- `WrLockGuard` -/
  | wr
  deriving DecidableEq, Repr

namespace RWMutex

/-- `RdLock`; `none` while the call blocks. -/
def rdLock (p : ThreadId) (full : Bool) (m : RWMutex) : Option RWMutex :=
  match m.writer with
  | some q => if q = p then some m else none
  | none => if full then some m else some { m with readers := p :: m.readers }

/-- `WrLock`; a thread that holds the lock for reading waits for itself. -/
def wrLock (p : ThreadId) (m : RWMutex) : Option RWMutex :=
  match m.writer with
  | some q => if q = p then some m else none
  | none => if m.readers = [] then some { m with writer := some p } else none

/-- `Unlock`; `none` where the thread does not hold the lock, and the call is undefined. -/
def unlock (p : ThreadId) (m : RWMutex) : Option RWMutex :=
  if m.writer = some p then some { m with writer := none }
  else if p ∈ m.readers then some { m with readers := m.readers.erase p }
  else none

/-- The call by which the constructor of a guard asks for the lock. -/
def lock (mode : LockMode) (p : ThreadId) (full : Bool) (m : RWMutex) : Option RWMutex :=
  match mode with
  | .rd => m.rdLock p full
  | .wr => m.wrLock p

end RWMutex

/-- A guard, and the thread in whose scope it is. -/
structure LockGuard where
  mode : LockMode
  thread : ThreadId
  /-- `m_locked` -/
  locked : Bool
  deriving DecidableEq, Repr

/-- A `RWMutex` and its guards. -/
structure LockScopes where
  mutex : RWMutex := {}
  guards : List LockGuard := []
  /-- `Unlock` was called by a thread that did not hold the lock -/
  isUndefined : Bool := false
  deriving DecidableEq, Repr

/-- What the threads do. -/
inductive GuardAct
  /-- the constructor of a guard, up to its return -/
  | construct (mode : LockMode) (p : ThreadId) (full : Bool)
  /-- the destructor of the guard at index `i` -/
  | destroy (i : ℕ)
  deriving DecidableEq, Repr

namespace LockScopes

/-- `~RdLockGuard`, `~WrLockGuard` -/
def destroy (g : LockGuard) (s : LockScopes) : LockScopes :=
  if g.locked then
    match s.mutex.unlock g.thread with
    | some m => { s with mutex := m }
    | none => { s with isUndefined := true }
  else s

/-- One step of the program. -/
def step (s : LockScopes) : GuardAct → Option LockScopes
  | .construct mode p full =>
    (s.mutex.lock mode p full).map fun m =>
      { s with mutex := m, guards := { mode := mode, thread := p, locked := true } :: s.guards }
  | .destroy i =>
    (s.guards[i]?).map fun g => { s with guards := s.guards.eraseIdx i }.destroy g

/-- A `RWMutex` without guards, and the program that uses it. -/
def guardSystem : TransitionSystem LockScopes GuardAct where
  init s := s = {}
  step := step

/-- The call for the lock fails. -/
def refuses (s : LockScopes) : GuardAct → Bool
  | .construct mode p full =>
    s.mutex.writer = some p || (mode = .rd && full && s.mutex.writer.isNone)
  | .destroy _ => false

end LockScopes

end CoroutineCpp
