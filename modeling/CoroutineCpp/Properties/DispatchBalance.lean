import CoroutineCpp.Properties.DispatchOutcome

/-!
# What a dispatcher pass does to the balance

Read off the closed form of `Properties/DispatchOutcome.lean`, for a pass that is not interfered
with.  With `R` runnable and `W` waiting tasks on `n` executors, `R - n * avg_load` tasks are left
over when every executor is at the average, and all of them go to one executor; that happens
exactly when `(R + W) % n > W`.

* Without blocking executors a pass is a levelling (`load_dispatch`).  It increases the spread
  exactly when more is left over than the spread was (`spread_dispatch_iff`), and a second pass
  changes nothing exactly when nothing is left over (`dispatch_idempotent_iff`).
* An executor ends with more than it had exactly when it is due something that there is still
  something for, or is the least loaded one and something is left over.  `IsBlocking` does not
  come into it (`load_dispatch_le_iff`, `blocking_relieved_iff`).
-/

namespace CoroutineCpp

open Framework Finset

variable {n : ℕ} {blocking : ℕ → Bool} {t : Executors}

/-! ## How much is stolen -/

/-- The number of tasks executor `i` gives. -/
def offer (n : ℕ) (blocking : ℕ → Bool) (t : Executors) (i : ℕ) : ℕ :=
  if avgLoad n t < load t i ∧ blocking i then load t i else load t i - avgLoad n t

/-- The number of tasks all executors give. -/
def offered (n : ℕ) (blocking : ℕ → Bool) (t : Executors) : ℕ :=
  ∑ i ∈ range n, offer n blocking t i

lemma length_given (i : ℕ) :
    (given (avgLoad n t) (blocking i) (t i).runnableQueue).length = offer n blocking t i := by
  simp only [given, offer, CoExecutor.getRunnableCount]
  split <;> simp

lemma length_stolenTasks (n : ℕ) (blocking : ℕ → Bool) (t : Executors) :
    (stolenTasks n blocking t).length = offered n blocking t := by
  rw [stolenTasks, List.length_flatMap]
  simp only [length_given]
  rfl

/-! ## Passes without blocking executors -/

/-- The runnable tasks of all executors. -/
def totalRunnables (n : ℕ) (t : Executors) : ℕ := ∑ i ∈ range n, load t i

/-- The waiting tasks of all executors. -/
def totalWaitings (n : ℕ) (t : Executors) : ℕ := ∑ i ∈ range n, (t i).getWaitingCount

lemma avgLoad_add_mod (n : ℕ) (t : Executors) :
    n * avgLoad n t + (totalRunnables n t + totalWaitings n t) % n =
      totalRunnables n t + totalWaitings n t := Nat.div_add_mod _ _

/-- A pass over executors none of which is blocking. -/
abbrev dispatchUnblocked (n : ℕ) (t : Executors) : Executors :=
  (dispatchTasksEqually n (fun _ => false) t).2

lemma offered_eq_excess (n : ℕ) (t : Executors) :
    offered n (fun _ => false) t = excess n (load t) (avgLoad n t) := by
  simp [offered, offer, excess]

/-- A pass is a levelling at the average load. -/
lemma load_dispatch (hn : 0 < n) (t : Executors) :
    ∃ k, FirstLeast (load t) n k ∧
      (∀ i < n, load (dispatchUnblocked n t) i = levelled n (load t) (avgLoad n t) k i) ∧
      dispatchUnblocked n t = setQueues 0 n (queueAfter n (fun _ => false) t k) t := by
  obtain ⟨k, hk, -, htable⟩ := dispatchTasksEqually_eq hn (fun _ => false) t
  refine ⟨k, hk, fun i hi => ?_, htable⟩
  have hkept : (kept (avgLoad n t) false (t i).runnableQueue).length =
      min (load t i) (avgLoad n t) := by
    simp [kept, CoExecutor.getRunnableCount, min_comm]
  have hstolen : (stolenTasks n (fun _ => false) t).length = excess n (load t) (avgLoad n t) := by
    rw [length_stolenTasks, offered_eq_excess]
  rw [dispatchUnblocked, htable]
  simp only [load, CoExecutor.getRunnableCount, setQueues_of_mem (show 0 ≤ i ∧ i < 0 + n by omega)]
  rw [queueAfter, List.length_append, List.length_append, hkept, length_share, hstolen, levelled,
    apply_ite List.length, length_leftover, hstolen]
  rfl

/-- Nobody gains or loses a task by a pass as a whole, so the next pass has the same average. -/
lemma totalRunnables_dispatch (hn : 0 < n) (t : Executors) :
    totalRunnables n (dispatchUnblocked n t) = totalRunnables n t := by
  obtain ⟨k, hk, hload, -⟩ := load_dispatch hn t
  calc totalRunnables n (dispatchUnblocked n t)
      = ∑ i ∈ range n, levelled n (load t) (avgLoad n t) k i :=
        sum_congr rfl fun i hi => hload i (mem_range.mp hi)
    _ = totalRunnables n t := sum_levelled hk.lt

lemma avgLoad_dispatch (hn : 0 < n) (t : Executors) :
    avgLoad n (dispatchUnblocked n t) = avgLoad n t := by
  have hwait : totalWaitings n (dispatchUnblocked n t) = totalWaitings n t := by
    obtain ⟨k, -, -, htable⟩ := load_dispatch hn t
    refine sum_congr rfl fun i hi => ?_
    rw [htable, setQueues_of_mem (by simpa using hi)]
    rfl
  have hrun := totalRunnables_dispatch hn t
  show (totalRunnables n _ + totalWaitings n _) / n = (totalRunnables n t + totalWaitings n t) / n
  rw [hrun, hwait]

/-- Something is left over exactly when the division leaves more than there are waiting tasks. -/
lemma totalRunnables_le_iff (n : ℕ) (t : Executors) (m : ℕ) :
    totalRunnables n t ≤ n * avgLoad n t + m ↔
      (totalRunnables n t + totalWaitings n t) % n ≤ totalWaitings n t + m := by
  have hmod := avgLoad_add_mod n t
  omega

/-- **When a pass does not make the balance worse.**  The difference between the largest and the
smallest runnable count does not grow exactly when the tasks left over by the division, less the
waiting ones, are not more than it. -/
theorem spread_dispatch_iff (n : ℕ) (t : Executors) :
    spread n (load (dispatchTasksEqually n (fun _ => false) t).2) ≤ spread n (load t) ↔
      (totalRunnables n t + totalWaitings n t) % n ≤ totalWaitings n t + spread n (load t) := by
  rcases Nat.eq_zero_or_pos n with rfl | hn
  · simp [spread, totalRunnables]
  obtain ⟨k, hk, hload, -⟩ := load_dispatch hn t
  rw [spread_congr hload, spread_levelled_le_iff hk.lt (load_le_avgLoad hk)]
  exact totalRunnables_le_iff n t _

/-- Executors with two, two and one runnable tasks end with one, one and three. -/
theorem dispatch_spreads :
    let t := tableOf [([1, 2], []), ([3, 4], []), ([5], [])]
    spread 3 (load t) = 1 ∧
      spread 3 (load (dispatchTasksEqually 3 (fun _ => false) t).2) = 2 ∧
      ¬ spread 3 (load (dispatchTasksEqually 3 (fun _ => false) t).2) ≤ spread 3 (load t) := by
  decide

/-- A pass that finds nobody above the average leaves the table as it is. -/
lemma dispatch_of_le (hn : 0 < n) (h : ∀ i < n, load t i ≤ avgLoad n t) :
    dispatchUnblocked n t = t := by
  obtain ⟨k, -, -, htable⟩ := load_dispatch hn t
  have hnil : stolenTasks n (fun _ => false) t = [] := stolenTasks_eq_nil h
  rw [htable]
  refine setQueues_self fun j _ hj => ?_
  rw [queueAfter_of_stolen_eq_nil hnil, kept_of_le (h j (by omega))]

/-- **When rebalancing settles.**  A second pass directly after the first leaves every runnable
queue as it is exactly when the first had nothing left over.  Otherwise the executor that got what
was left over gives it away again. -/
theorem dispatch_idempotent_iff (n : ℕ) (t : Executors) :
    let t' := (dispatchTasksEqually n (fun _ => false) t).2
    (∀ i < n, ((dispatchTasksEqually n (fun _ => false) t').2 i).runnableQueue =
        (t' i).runnableQueue) ↔
      (totalRunnables n t + totalWaitings n t) % n ≤ totalWaitings n t := by
  intro t'
  rcases Nat.eq_zero_or_pos n with rfl | hn
  · simp [totalRunnables]
  obtain ⟨k, hk, hload, -⟩ := load_dispatch hn t
  have havg : avgLoad n t' = avgLoad n t := avgLoad_dispatch hn t
  have hle := totalRunnables_le_iff n t 0
  rw [Nat.add_zero, Nat.add_zero] at hle
  rw [← hle]
  constructor
  · intro hsame
    by_contra hleft
    have hexcess : lack (load t) (avgLoad n t) n < excess n (load t) (avgLoad n t) :=
      not_le.mp (mt excess_le_lack_iff.mp hleft)
    -- `k` is above the average after the first pass, so the second takes the surplus from it
    have hsurplus : avgLoad n t' < load t' k := by
      rw [havg, hload k hk.lt, levelled_of_lt hexcess hk.lt, if_pos rfl]
      omega
    obtain ⟨k', hk', -, htable⟩ := load_dispatch hn t'
    have hcut : ((dispatchTasksEqually n (fun _ => false) t').2 k).runnableQueue =
        (t' k).runnableQueue.take (avgLoad n t') := by
      rw [show (dispatchTasksEqually n (fun _ => false) t').2 = _ from htable,
        setQueues_of_mem (by simpa using hk.lt)]
      simp [queueAfter_of_lt (load_le_avgLoad hk') hsurplus, kept]
    have hlen := congrArg List.length (hcut.symm.trans (hsame k hk.lt))
    rw [List.length_take] at hlen
    have hgt : avgLoad n t' < (t' k).runnableQueue.length := hsurplus
    omega
  · intro hnone i hi
    have hlow : ∀ j < n, load t' j ≤ avgLoad n t' := by
      intro j hj
      rw [havg, hload j hj]
      exact levelled_le (excess_le_lack_iff.mpr hnone) j
    rw [show (dispatchTasksEqually n (fun _ => false) t').2 = t' from dispatch_of_le hn hlow]

/-- Executors with two and one runnable tasks: every pass moves one task to the other side. -/
theorem dispatch_not_idempotent :
    let t := tableOf [([1, 2], []), ([3], [])]
    let t' := (dispatchTasksEqually 2 (fun _ => false) t).2
    (t' 0).runnableQueue = [1] ∧ (t' 1).runnableQueue = [3, 2] ∧
      ((dispatchTasksEqually 2 (fun _ => false) t').2 0).runnableQueue = [1, 2] ∧
      ¬ ∀ i < 2, ((dispatchTasksEqually 2 (fun _ => false) t').2 i).runnableQueue =
        (t' i).runnableQueue := by
  decide

/-! ## Who ends with more than he had -/

/-- Whatever the answers of `IsBlocking`: an executor ends with more than it had exactly when it
is below the average and something is left when its turn comes, or it is the least loaded one and
something is left in the end. -/
lemma load_dispatch_le_iff (blocking : ℕ → Bool) (t : Executors) {i : ℕ} (hi : i < n) :
    load (dispatchTasksEqually n blocking t).2 i ≤ load t i ↔
      (load t i < avgLoad n t → offered n blocking t ≤ asked (nSupply n t) i) ∧
      (FirstLeast (load t) n i → offered n blocking t ≤ asked (nSupply n t) n) := by
  obtain ⟨k, hk, -, htable⟩ := dispatchTasksEqually_eq (Nat.zero_lt_of_lt hi) blocking t
  have hle := load_le_avgLoad hk
  have hload : load (dispatchTasksEqually n blocking t).2 i =
      (queueAfter n blocking t k i).length := by
    rw [htable]
    simp only [load, CoExecutor.getRunnableCount,
      setQueues_of_mem (show 0 ≤ i ∧ i < 0 + n by omega)]
  rw [hload]
  by_cases hlow : load t i ≤ avgLoad n t
  · have hsame : FirstLeast (load t) n i ↔ i = k := ⟨fun h => h.unique hk, fun h => h ▸ hk⟩
    have hlen : (t i).runnableQueue.length = load t i := rfl
    rw [queueAfter_of_le hlow, hsame, List.length_append, List.length_append, hlen, length_share,
      length_stolenTasks, apply_ite List.length, length_leftover, length_stolenTasks, nSupply,
      List.length_nil]
    split
    next hik => simp only [hik, true_imp_iff]; omega
    next hik => simp only [hik, false_imp_iff, and_true]; omega
  · have hgt : avgLoad n t < load t i := not_le.mp hlow
    have hnot : ¬ FirstLeast (load t) n i := fun h => hlow (load_le_avgLoad h)
    rw [queueAfter_of_lt hle hgt]
    refine iff_of_true ?_ ⟨fun h => absurd h.le hlow, fun h => absurd h hnot⟩
    have hlen := congrArg List.length
      (kept_append_given (avgLoad n t) (blocking i) (t i).runnableQueue)
    rw [List.length_append] at hlen
    exact Nat.le.intro hlen

/-- **When blocking executors are relieved and not fed.**  None of them ends with more runnable
tasks than it had exactly when none is below the average with something left when its turn comes,
and none is the least loaded executor with something left in the end. -/
theorem blocking_relieved_iff (n : ℕ) (blocking : ℕ → Bool) (t : Executors) :
    (∀ i < n, blocking i = true →
        load (dispatchTasksEqually n blocking t).2 i ≤ load t i) ↔
      ∀ i < n, blocking i = true →
        (load t i < avgLoad n t → offered n blocking t ≤ asked (nSupply n t) i) ∧
        (FirstLeast (load t) n i → offered n blocking t ≤ asked (nSupply n t) n) := by
  constructor
  · intro h i hi hb
    exact (load_dispatch_le_iff blocking t hi).mp (h i hi hb)
  · intro h i hi hb
    exact (load_dispatch_le_iff blocking t hi).mpr (h i hi hb)

/-- Two executors, the first with two runnable tasks, the second idle and blocking: it is given
one of them. -/
theorem blocking_fed :
    let t := tableOf [([1, 2], []), ([], [])]
    ((dispatchTasksEqually 2 (fun i => i = 1) t).2 1).runnableQueue = [2] ∧
      ¬ ∀ i < 2, decide (i = 1) = true →
        load (dispatchTasksEqually 2 (fun i => i = 1) t).2 i ≤ load t i := by
  decide

end CoroutineCpp
