import CoroutineCpp.Framework.CriticalSection
import CoroutineCpp.Model.CoExecutor

/-!
# `ThreadSafeDeque`, access by access

The calls of a `ThreadSafeDeque` that hold its lock from beginning to end (`src/containers.hpp`),
with what they do to `m_datas` written out access by access, and the two places where a `CoExecutor`
holds that lock across several unchecked calls: the batch `AddTask` and `GiveUpTasks`.  The other
modules take each of them as one function on the contents.

An iterator is the position it points at.  `ans`, `out` and `giveups` are deques of the caller's
own; their contents are an argument of the call and part of its result.  `Front`, `Back`, `[]`,
`Erase` and the iterators are not here: they hand out or take references into the deque, and what
is done through those is not under the lock.  Nor is `Swap`, which locks one of its two deques.
-/

namespace CoroutineCpp

open Framework

namespace ThreadSafeDeque

variable {T : Type*}

/-! ## `std::deque` -/

/-- The elements of the range `[first, last)`. -/
def range (first last : ℕ) (d : ThreadSafeDeque T) : List T := (d.take last).drop first

/-- `m_datas.erase(first, last)`; `none` where that is no range of the deque. -/
def eraseRange (first last : ℕ) (d : ThreadSafeDeque T) : Option (ThreadSafeDeque T) :=
  if first ≤ last ∧ last ≤ d.length then some (d.take first ++ d.drop last) else none

/-- `m_datas.push_front(value)` -/
def pushFront (d : ThreadSafeDeque T) (value : T) : ThreadSafeDeque T := value :: d

/-- `m_datas.pop_back()`; `none` where the deque is empty and the call undefined. -/
def popBack (d : ThreadSafeDeque T) : Option (ThreadSafeDeque T) :=
  if d.isEmpty then none else some d.dropLast

end ThreadSafeDeque

/-! ## The calls -/

/-- The calls that hold the lock of the deque, with their arguments. -/
inductive DequeCall (T : Type*)
  | empty
  | size
  | clear
  | pushBack (value : T)
  | pushFront (value : T)
  | popBack
  | popFront
  | popFrontAndReplace (n : ℕ) (ans : ThreadSafeDeque T)
  | popBackAndReplace (n : ℕ) (ans : ThreadSafeDeque T)
  | popFrontAndAppend (n : ℕ) (out : ThreadSafeDeque T)
  | popBackAndAppend (n : ℕ) (out : ThreadSafeDeque T)
  /-- `CoExecutor::AddTask(begin, end)` on `m_runnable_queue`, the range being `values` -/
  | addTasks (values : List T)
  /-- `CoExecutor::GiveUpTasks(giveups, n)` on `m_runnable_queue` -/
  | giveUpTasks (giveups : ThreadSafeDeque T) (n : ℕ)
  deriving DecidableEq

/-- What a call gives back. -/
inductive DequeResult (T : Type*)
  | unit
  | bool (b : Bool)
  | size (n : ℕ)
  /-- the contents of `ans`, `out` or `giveups` after the call -/
  | deque (d : ThreadSafeDeque T)
  deriving DecidableEq

namespace DequeCall

open ThreadSafeDeque

variable {T : Type*}

/-- Code that runs under the lock of a deque. -/
abbrev Code (T : Type*) := Block (ThreadSafeDeque T) (DequeResult T)

/-- `PopFrontAndReplaceUnsafe`: `ans.m_datas.assign(begin, end)` drops what was there. -/
def popFrontAndReplaceUnsafe (n : ℕ) (_ans : ThreadSafeDeque T) : Code T :=
  .read fun d =>
    let n := min n d.length
    .read fun d =>
      let ans := range 0 n d
      .write (eraseRange 0 n) <| .done (.deque ans)

/-- `PopBackAndReplaceUnsafe` -/
def popBackAndReplaceUnsafe (n : ℕ) (_ans : ThreadSafeDeque T) : Code T :=
  .read fun d =>
    let n := min n d.length
    .read fun d =>
      let first := d.length - n
      let last := d.length
      .read fun d =>
        let ans := range first last d
        .write (eraseRange first last) <| .done (.deque ans)

/-- `PopFrontAndAppendUnsafe` -/
def popFrontAndAppendUnsafe (n : ℕ) (out : ThreadSafeDeque T) : Code T :=
  .read fun d =>
    let n := min n d.length
    .read fun d =>
      let out := out ++ range 0 n d
      .write (eraseRange 0 n) <| .done (.deque out)

/-- `PopBackAndAppendUnsafe` -/
def popBackAndAppendUnsafe (n : ℕ) (out : ThreadSafeDeque T) : Code T :=
  .read fun d =>
    let n := min n d.length
    .read fun d =>
      let first := d.length - n
      let last := d.length
      .read fun d =>
        let out := out ++ range first last d
        .write (eraseRange first last) <| .done (.deque out)

/-- The loop of `AddTask(begin, end)`, after `count` rounds. -/
def addTasksLoop : List T → ℕ → Code T
  | [], count => .done (.size count)
  | value :: values, count =>
    .write (fun d => some (d.pushBack value)) (addTasksLoop values (count + 1))

/-- What the call does between taking the lock and letting it go. -/
def body : DequeCall T → Code T
  | .empty => .read fun d => .done (.bool d.isEmpty)
  | .size => .read fun d => .done (.size d.length)
  | .clear => .write (fun _ => some []) <| .done .unit
  | .pushBack value => .write (fun d => some (d.pushBack value)) <| .done .unit
  | .pushFront value => .write (fun d => some (d.pushFront value)) <| .done .unit
  | .popBack => .write ThreadSafeDeque.popBack <| .done .unit
  | .popFront => .write ThreadSafeDeque.popFront <| .done .unit
  | .popFrontAndReplace n ans => popFrontAndReplaceUnsafe n ans
  | .popBackAndReplace n ans => popBackAndReplaceUnsafe n ans
  | .popFrontAndAppend n out => popFrontAndAppendUnsafe n out
  | .popBackAndAppend n out => popBackAndAppendUnsafe n out
  | .addTasks values => addTasksLoop values 0
  | .giveUpTasks giveups n =>
    if n > 0 then popBackAndAppendUnsafe n giveups
    else .read fun d => popBackAndAppendUnsafe d.length giveups

/-- What the other modules take the call for: one function on the contents. -/
def effect : DequeCall T → ThreadSafeDeque T → Option (ThreadSafeDeque T × DequeResult T)
  | .empty, d => some (d, .bool d.isEmpty)
  | .size, d => some (d, .size d.length)
  | .clear, _ => some ([], .unit)
  | .pushBack value, d => some (d.pushBack value, .unit)
  | .pushFront value, d => some (d.pushFront value, .unit)
  | .popBack, d => d.popBack.map (·, .unit)
  | .popFront, d => ThreadSafeDeque.popFront d |>.map (·, .unit)
  | .popFrontAndReplace n ans, d =>
    let r := ThreadSafeDeque.popFrontAndReplace n d ans
    some (r.1, .deque r.2)
  | .popBackAndReplace n ans, d =>
    let r := ThreadSafeDeque.popBackAndReplace n d ans
    some (r.1, .deque r.2)
  | .popFrontAndAppend n out, d =>
    let r := ThreadSafeDeque.popFrontAndAppend n d out
    some (r.1, .deque r.2)
  | .popBackAndAppend n out, d =>
    let r := ThreadSafeDeque.popBackAndAppend n d out
    some (r.1, .deque r.2)
  | .addTasks values, d => some (values.foldl ThreadSafeDeque.pushBack d, .size values.length)
  | .giveUpTasks giveups n, d =>
    let count := if n > 0 then n else d.length
    let r := ThreadSafeDeque.popBackAndAppend count d giveups
    some (r.1, .deque r.2)

end DequeCall

/-- A deque with its lock, used by the threads `θ`, access by access. -/
def dequeSystem (θ : Type*) [DecidableEq θ] {T : Type*} (d₀ : ThreadSafeDeque T) :
    TransitionSystem (LockedState θ (DequeCall T) (DequeResult T) (ThreadSafeDeque T))
      (LockedAct θ (DequeCall T)) :=
  lockedSystem DequeCall.body d₀

/-- A deque whose calls take effect at once, used by the threads `θ`. -/
def atomicDequeSystem (θ : Type*) [DecidableEq θ] {T : Type*} (d₀ : ThreadSafeDeque T) :
    TransitionSystem (AtomicState θ (DequeCall T) (DequeResult T) (ThreadSafeDeque T))
      (AtomicAct θ (DequeCall T)) :=
  atomicSystem DequeCall.effect d₀

end CoroutineCpp
