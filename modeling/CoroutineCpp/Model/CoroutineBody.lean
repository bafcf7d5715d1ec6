import CoroutineCpp.Model.Coroutine
import Mathlib.Data.Nat.Notation

/-!
# A coroutine with its body

`Model/Coroutine.lean` leaves the bodies open.  Here a coroutine object carries its body and its
saved context, so that `Resume`, `StaticRun`, `Run` and `GiveUp` (`src/coroutine.cpp`) are functions
that run it: `resume` switches in, the body runs its next segment, and control comes back to
`Resume` at the next `GiveUp` or at the end of the body.

A body is a sequence of segments of user code, of an arbitrary type, with a `GiveUp` between any
two, that returns or throws after the last.  What is left of it after a `GiveUp` is again a body,
and this is what the saved context of a suspended coroutine holds.
-/

namespace CoroutineCpp

universe u

/-- `DEFAULT_STACK_SIZE` -/
def defaultStackSize : ℕ := 1024 * 128

/-- How a body ends. -/
inductive Ending
  | returned
  | threw (ex : ExceptionPtr)
  deriving DecidableEq, Repr

namespace Ending

/-- The status `Run` leaves behind. -/
def status : Ending → Status
  | returned => .finished
  | threw _ => .except

/-- The exception `Run` stores. -/
def exception : Ending → Option ExceptionPtr
  | returned => none
  | threw ex => some ex

end Ending

/-- A body, or what is left of one. -/
inductive Body (Seg : Type u)
  /-- the last segment, after which the body returns or throws -/
  | finish (seg : Seg) (ending : Ending)
  /-- a segment that ends in a call of `GiveUp` -/
  | giveUp (seg : Seg) (rest : Body Seg)
  deriving DecidableEq, Repr

namespace Body

variable {Seg : Type u}

/-- How many calls of `GiveUp` are ahead. -/
def giveUps : Body Seg → ℕ
  | finish _ _ => 0
  | giveUp _ rest => rest.giveUps + 1

/-- The segments, in order. -/
def segments : Body Seg → List Seg
  | finish seg _ => [seg]
  | giveUp seg rest => seg :: rest.segments

/-- How the body ends. -/
def ending : Body Seg → Ending
  | finish _ ending => ending
  | giveUp _ rest => rest.ending

@[simp] lemma giveUps_finish (seg : Seg) (ending : Ending) : (finish seg ending).giveUps = 0 := rfl

@[simp] lemma giveUps_giveUp (seg : Seg) (rest : Body Seg) :
    (giveUp seg rest).giveUps = rest.giveUps + 1 := rfl

@[simp] lemma segments_finish (seg : Seg) (ending : Ending) :
    (finish seg ending).segments = [seg] := rfl

@[simp] lemma segments_giveUp (seg : Seg) (rest : Body Seg) :
    (giveUp seg rest).segments = seg :: rest.segments := rfl

@[simp] lemma ending_finish (seg : Seg) (e : Ending) : (finish seg e).ending = e := rfl

@[simp] lemma ending_giveUp (seg : Seg) (rest : Body Seg) :
    (giveUp seg rest).ending = rest.ending := rfl

lemma length_segments (body : Body Seg) : body.segments.length = body.giveUps + 1 := by
  induction body with
  | finish seg ending => rfl
  | giveUp seg rest ih => simp [ih]

end Body

/-- The saved context `m_ctx`. -/
inductive Context (Seg : Type u)
  /-- as `getcontext` filled it in the constructor -/
  | blank
  /-- made by `makecontext`: enters `StaticRun(low32, high32)` on the new stack -/
  | entry (low32 high32 : BitVec 32)
  /-- saved by `swapcontext` in `GiveUp`: the body goes on with the rest -/
  | suspended (rest : Body Seg)
  deriving DecidableEq, Repr

/-- A coroutine object with its body. -/
structure CoroutineObject (Seg : Type u) where
  /-- the members that `Model/Coroutine.lean` works on -/
  co : Coroutine := {}
  /-- `m_stacksize` -/
  stacksize : ℕ
  /-- `m_ctx` -/
  ctx : Context Seg := .blank
  /-- `m_func` -/
  func : Option (Body Seg)
  /-- history: the sizes `MemAllocator::alloc` was called with -/
  allocs : List ℕ := []
  /-- history: the segments that were executed -/
  executed : List Seg := []
  deriving DecidableEq

/-- Why a `Resume` does not come back. -/
inductive ResumeFault
  /-- the assertion `CanResume()` fails -/
  | assertion
  /-- a context is entered that was never made, or `StaticRun` gets a wrong address -/
  | badContext
  /-- control goes to the master context of another thread -/
  | foreignContext
  deriving DecidableEq, Repr

/-- The halves of an address that `Resume` hands to `makecontext`. -/
def lowHalf (ptr : BitVec 64) : BitVec 32 := ptr.setWidth 32

/-- The upper half. -/
def highHalf (ptr : BitVec 64) : BitVec 32 := (ptr >>> 32).setWidth 32

/-- The address that `StaticRun` puts together. -/
def joinHalves (low32 high32 : BitVec 32) : BitVec 64 :=
  low32.setWidth 64 ||| (high32.setWidth 64 <<< 32)

/-- No bit of the address is lost on the way through the two `uint32_t` arguments. -/
lemma joinHalves_halves (ptr : BitVec 64) : joinHalves (lowHalf ptr) (highHalf ptr) = ptr := by
  apply BitVec.eq_of_getLsbD_eq
  intro i hi
  simp only [joinHalves, lowHalf, highHalf, BitVec.getLsbD_or, BitVec.getLsbD_shiftLeft,
    BitVec.getLsbD_setWidth, BitVec.getLsbD_ushiftRight]
  by_cases hlow : i < 32
  · simp [hlow, hi]
  · have hsum : 32 + (i - 32) = i := by omega
    have hhigh : i - 32 < 32 := by omega
    have hwide : i - 32 < 64 := by omega
    simp [hlow, hi, hsum, hhigh, hwide]

namespace CoroutineObject

variable {Seg : Type u}

/-- `Coroutine(executable, ss)` -/
def construct (executable : Body Seg) (ss : ℕ) : CoroutineObject Seg where
  stacksize := if ss = 0 then defaultStackSize else ss
  func := some executable

/-- `GiveUp`, called by a body that has `rest` ahead. -/
def giveUp (rest : Body Seg) (s : CoroutineObject Seg) : CoroutineObject Seg :=
  { s with co := s.co.giveUp, ctx := .suspended rest }

/-- `Run` after the body has ended, and `StaticRun` after `Run`. -/
def runEnd (ending : Ending) (s : CoroutineObject Seg) : CoroutineObject Seg :=
  match ending with
  | .returned => { s with co := s.co.runReturned, func := none }
  | .threw ex => { s with co := s.co.runThrew ex, func := none }

/-- The body runs on the CPU until control leaves the coroutine.  The second component is the thread
whose master context is switched to: that of `m_master_co` in `GiveUp`, of `uc_link` at the end. -/
def execute (body : Body Seg) (s : CoroutineObject Seg) :
    CoroutineObject Seg × Option ThreadId :=
  match body with
  | .giveUp seg rest =>
    ({ s with executed := s.executed ++ [seg] }.giveUp rest, s.co.masterCo)
  | .finish seg ending =>
    ({ s with executed := s.executed ++ [seg] }.runEnd ending, s.co.ucLink)

/-- `Run`; `none` where `m_func` is empty. -/
def run (s : CoroutineObject Seg) : Option (CoroutineObject Seg × Option ThreadId) :=
  s.func.map fun body => s.execute body

/-- `StaticRun(low32, high32)`, for the coroutine at address `this`. -/
def staticRun (this : BitVec 64) (low32 high32 : BitVec 32) (s : CoroutineObject Seg) :
    Option (CoroutineObject Seg × Option ThreadId) :=
  if joinHalves low32 high32 = this then s.run else none

/-- `Resume` before the switch, where it sets up the stack and the context. -/
def prepare (this : BitVec 64) (s : CoroutineObject Seg) : CoroutineObject Seg :=
  if !s.co.isMaster && !s.co.stack then
    { s with
      ctx := .entry (lowHalf this) (highHalf this)
      allocs := s.allocs ++ [s.stacksize] }
  else s

/-- `swapcontext` into the coroutine. -/
def switchIn (this : BitVec 64) (s : CoroutineObject Seg) :
    Option (CoroutineObject Seg × Option ThreadId) :=
  match s.ctx with
  | .blank => none
  | .entry low32 high32 => s.staticRun this low32 high32
  | .suspended rest => some (s.execute rest)

/-- `Resume` on `thread`, until control is back in the master context of that thread. -/
def resume (thread : ThreadId) (this : BitVec 64) (s : CoroutineObject Seg) :
    Except ResumeFault (CoroutineObject Seg) :=
  match s.co.resume thread with
  | .inert => .ok s
  | .aborted => .error .assertion
  | .switched co =>
    match ({ s.prepare this with co := co }).switchIn this with
    | none => .error .badContext
    | some (s', target) => if target = some thread then .ok s' else .error .foreignContext

/-- `k` calls of `Resume` on `thread`. -/
def resumes (thread : ThreadId) (this : BitVec 64) :
    ℕ → CoroutineObject Seg → Except ResumeFault (CoroutineObject Seg)
  | 0, s => .ok s
  | k + 1, s => (s.resume thread this).bind (resumes thread this k)

end CoroutineObject

end CoroutineCpp
