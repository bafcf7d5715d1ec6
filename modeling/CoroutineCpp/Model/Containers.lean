import Mathlib.Data.List.Basic

/-!
# `ThreadSafeDeque`

A deque with its own lock (`src/containers.hpp`).  Its contents are a list, front to back, and
each call that takes the lock is one function on that list: a step of the modules above is one
such call, or several of them where the caller holds the lock across them (`LockRef`).

`Front` and `PopFront` on an empty deque are undefined in C++; here they return `none`, so that
"never on an empty deque" is a statement about the model.
-/

namespace CoroutineCpp

/-- The contents of a `ThreadSafeDeque<T>`, front to back. -/
abbrev ThreadSafeDeque (T : Type*) := List T

namespace ThreadSafeDeque

variable {T : Type*}

/-- `PushBack` and, under the caller's lock, `PushBackUnsafe`. -/
def pushBack (d : ThreadSafeDeque T) (value : T) : ThreadSafeDeque T := d ++ [value]

/-- `Front` and `FrontNoLock`; `none` where the deque is empty and the call undefined. -/
def front : ThreadSafeDeque T → Option T
  | [] => none
  | value :: _ => some value

/-- `PopFront` and `PopFrontUnsafe`; `none` where the deque is empty and the call undefined. -/
def popFront : ThreadSafeDeque T → Option (ThreadSafeDeque T)
  | [] => none
  | _ :: d => some d

/-- `PopFrontAndReplaceUnsafe`: the first `min n size` elements leave `d` and replace `ans`. -/
def popFrontAndReplace (n : ℕ) (d _ans : ThreadSafeDeque T) :
    ThreadSafeDeque T × ThreadSafeDeque T :=
  let n := min n d.length
  (d.drop n, d.take n)

/-- `PopBackAndReplaceUnsafe`: the last `min n size` elements leave `d` and replace `ans`. -/
def popBackAndReplace (n : ℕ) (d _ans : ThreadSafeDeque T) :
    ThreadSafeDeque T × ThreadSafeDeque T :=
  let n := min n d.length
  let begin := d.length - n
  (d.take begin, d.drop begin)

/-- `PopFrontAndAppendUnsafe`: the first `min n size` elements leave `d` and are appended to `out`
in their order. -/
def popFrontAndAppend (n : ℕ) (d out : ThreadSafeDeque T) :
    ThreadSafeDeque T × ThreadSafeDeque T :=
  let n := min n d.length
  (d.drop n, out ++ d.take n)

/-- `PopBackAndAppendUnsafe`: the last `min n size` elements leave `d` and are appended to `out`
in their order. -/
def popBackAndAppend (n : ℕ) (d out : ThreadSafeDeque T) :
    ThreadSafeDeque T × ThreadSafeDeque T :=
  let n := min n d.length
  let begin := d.length - n
  (d.take begin, out ++ d.drop begin)

@[simp] lemma front_cons (t : T) (d : ThreadSafeDeque T) : front (t :: d) = some t := rfl

@[simp] lemma popFront_cons (t : T) (d : ThreadSafeDeque T) : popFront (t :: d) = some d := rfl

/-- A bulk pop from the front splits the deque: the block that moved, followed by what stays. -/
lemma popFrontAndAppend_split (n : ℕ) (d out : ThreadSafeDeque T) :
    ∃ block, d = block ++ (popFrontAndAppend n d out).1 ∧
      (popFrontAndAppend n d out).2 = out ++ block ∧ block.length = min n d.length := by
  refine ⟨d.take (min n d.length), ?_, rfl, ?_⟩
  · simp [popFrontAndAppend]
  · rw [List.length_take]
    omega

/-- A bulk pop from the back splits the deque: what stays, followed by the block that moved. -/
lemma popBackAndAppend_split (n : ℕ) (d out : ThreadSafeDeque T) :
    ∃ block, d = (popBackAndAppend n d out).1 ++ block ∧
      (popBackAndAppend n d out).2 = out ++ block ∧ block.length = min n d.length := by
  refine ⟨d.drop (d.length - min n d.length), ?_, rfl, ?_⟩
  · simp [popBackAndAppend]
  · rw [List.length_drop]
    omega

end ThreadSafeDeque

end CoroutineCpp
