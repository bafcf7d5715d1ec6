import CoroutineCpp.Properties.DispatchBalance

/-!
# The dispatcher thread, tick after tick

`DispatcherThreadFunc` runs one pass after the other.  Left to itself, with nobody blocking and no
task started, added, held or woken in between, it either settles with the first pass or never: what
the division leaves over goes from executor to executor as one block (`Leans`), and from the second
pass on between the first two executors only.
-/

namespace CoroutineCpp

open Framework Finset

variable {n k : ℕ} {t : Executors} {base : ℕ → List CoTaskPtr} {rest : List CoTaskPtr}

/-- Every executor has the average load, `base`, and executor `k` has `rest` behind it. -/
structure Leans (n : ℕ) (base : ℕ → List CoTaskPtr) (rest : List CoTaskPtr) (t : Executors)
    (k : ℕ) : Prop where
  lt : k < n
  queue : ∀ i < n, (t i).runnableQueue = base i ++ if i = k then rest else []
  length : ∀ i < n, (base i).length = avgLoad n t
  ne_nil : rest ≠ []

/-- The executor the block goes to. -/
def nextHolder (k : ℕ) : ℕ := if k = 0 then 1 else 0

lemma flatMap_range_ite (hk : k < n) :
    ((List.range n).flatMap fun i => if i = k then rest else []) = rest := by
  induction n with
  | zero => exact absurd hk k.not_lt_zero
  | succ n ih =>
    rw [List.range_succ, List.flatMap_append, List.flatMap_singleton]
    rcases Nat.lt_succ_iff_lt_or_eq.mp hk with hlt | rfl
    · rw [ih hlt, if_neg (by omega), List.append_nil]
    · have hnil : ∀ i ∈ List.range k, (if i = k then rest else []) = [] := fun i hi =>
        if_neg (List.mem_range.mp hi).ne
      rw [List.flatMap_congr hnil, if_pos rfl]
      simp

namespace Leans

lemma load_eq (h : Leans n base rest t k) {i : ℕ} (hi : i < n) :
    load t i = avgLoad n t + if i = k then rest.length else 0 := by
  rw [load, CoExecutor.getRunnableCount, h.queue i hi, List.length_append, h.length i hi,
    apply_ite List.length]
  rfl

/-- The block and the waiting tasks are what the division leaves. -/
lemma length_rest (h : Leans n base rest t k) :
    rest.length + totalWaitings n t = (totalRunnables n t + totalWaitings n t) % n := by
  have hsum : totalRunnables n t = n * avgLoad n t + rest.length := by
    rw [totalRunnables, sum_congr rfl fun i hi => h.load_eq (mem_range.mp hi), sum_add_distrib,
      sum_ite_eq' (range n) k, if_pos (mem_range.mpr h.lt), sum_const_nat fun _ _ => rfl,
      card_range]
  have hmod := avgLoad_add_mod n t
  omega

/-- With one executor nothing is left over. -/
lemma nextHolder_lt (h : Leans n base rest t k) : nextHolder k < n := by
  have hpos : 0 < rest.length := List.length_pos_iff.mpr h.ne_nil
  have hlt : (totalRunnables n t + totalWaitings n t) % n < n :=
    Nat.mod_lt _ (Nat.zero_lt_of_lt h.lt)
  have hrest := h.length_rest
  unfold nextHolder
  split <;> omega

lemma firstLeast (h : Leans n base rest t k) : FirstLeast (load t) n (nextHolder k) := by
  have hpos : 0 < rest.length := List.length_pos_iff.mpr h.ne_nil
  have hne : nextHolder k ≠ k := by
    unfold nextHolder
    split <;> omega
  refine ⟨h.nextHolder_lt, fun j hj => ?_, fun j hj => ?_⟩
  · rw [h.load_eq h.nextHolder_lt, h.load_eq hj, if_neg hne]
    omega
  · -- only executor 0 is before the holder, and then it has the block
    obtain rfl : j = k := by
      unfold nextHolder at hj
      split at hj <;> omega
    rw [h.load_eq h.nextHolder_lt, h.load_eq h.lt, if_neg hne, if_pos rfl]
    omega

/-- The pass takes the block, and nothing else. -/
lemma stolen (h : Leans n base rest t k) : stolenTasks n (fun _ => false) t = rest := by
  have hgiven : ∀ i ∈ List.range n, given (avgLoad n t) false (t i).runnableQueue =
      if i = k then rest else [] := by
    intro i hi
    rw [given, if_neg (by simp), h.queue i (List.mem_range.mp hi),
      ← h.length i (List.mem_range.mp hi), List.drop_left]
  rw [stolenTasks, List.flatMap_congr hgiven, flatMap_range_ite h.lt]

/-- It puts the block behind the queue of the next holder. -/
lemma queueAfter_eq (h : Leans n base rest t k) {i : ℕ} (hi : i < n) :
    queueAfter n (fun _ => false) t (nextHolder k) i =
      base i ++ if i = nextHolder k then rest else [] := by
  have hkept : kept (avgLoad n t) false (t i).runnableQueue = base i := by
    rw [kept, if_neg (by simp), h.queue i hi, ← h.length i hi, List.take_left]
  have hdue : ∀ j < n, nSupply n t j = 0 := by
    intro j hj
    rw [nSupply, h.load_eq hj]
    omega
  have hleft : leftover rest (nSupply n t) n = rest := by
    have hasked : asked (nSupply n t) n = 0 := sum_eq_zero fun j hj => hdue j (mem_range.mp hj)
    rw [leftover, hasked, List.drop_zero]
  rw [queueAfter, hkept, h.stolen, share_of_eq_zero (hdue i hi), List.append_nil, hleft]

/-- **A pass hands the block on.** -/
lemma dispatch (h : Leans n base rest t k) :
    Leans n base rest (dispatchUnblocked n t) (nextHolder k) := by
  have hn : 0 < n := Nat.zero_lt_of_lt h.lt
  obtain ⟨k', hk', -, htable⟩ := load_dispatch hn t
  obtain rfl := hk'.unique h.firstLeast
  refine ⟨h.nextHolder_lt, fun i hi => ?_, fun i hi => ?_, h.ne_nil⟩
  · rw [htable, setQueues_of_mem (by omega)]
    exact h.queueAfter_eq hi
  · rw [avgLoad_dispatch hn]
    exact h.length i hi

lemma iterate (h : Leans n base rest t k) (j : ℕ) :
    Leans n base rest ((dispatchUnblocked n)^[j] t) (nextHolder^[j] k) := by
  induction j with
  | zero => exact h
  | succ j ih =>
    rw [Function.iterate_succ_apply', Function.iterate_succ_apply']
    exact ih.dispatch

end Leans

/-- From its second move on the block is at one of the first two executors. -/
lemma exists_nextHolder_iterate (k : ℕ) : ∃ c, ∀ j, nextHolder^[j + 1] k = (j + c) % 2 := by
  refine ⟨nextHolder k, fun j => ?_⟩
  have hbit : nextHolder k < 2 := by
    unfold nextHolder
    split <;> omega
  induction j with
  | zero => simpa using (Nat.mod_eq_of_lt hbit).symm
  | succ j ih =>
    rw [Function.iterate_succ_apply', ih]
    unfold nextHolder at hbit ⊢
    split <;> split <;> omega

/-! ## The first pass -/

/-- What the first pass leaves over is the block. -/
lemma leans_of_leftover (hn : 0 < n)
    (hleft : totalWaitings n t < (totalRunnables n t + totalWaitings n t) % n) :
    ∃ base rest k, Leans n base rest (dispatchUnblocked n t) k := by
  obtain ⟨k, hk, -, htable⟩ := load_dispatch hn t
  have hle := load_le_avgLoad hk
  have hrest : leftover (stolenTasks n (fun _ => false) t) (nSupply n t) n ≠ [] := by
    rw [ne_eq, leftover_eq_nil_iff, length_stolenTasks, offered_eq_excess]
    refine mt excess_le_lack_iff.mp fun hfits => ?_
    have hnone := (totalRunnables_le_iff n t 0).mp hfits
    omega
  refine ⟨fun i => kept (avgLoad n t) false (t i).runnableQueue ++
    share (stolenTasks n (fun _ => false) t) (nSupply n t) i, _, k, hk.lt, fun i hi => ?_,
    fun i hi => ?_, hrest⟩
  · rw [htable, setQueues_of_mem (by omega)]
    rfl
  · rw [avgLoad_dispatch hn]
    by_cases hi' : load t i ≤ avgLoad n t
    · have hfull := load_add_share_of_leftover hrest hi hi'
      rw [kept_of_le hi', List.length_append]
      exact hfull
    · have hdue : nSupply n t i = 0 := Nat.sub_eq_zero_of_le (not_le.mp hi').le
      rw [share_of_eq_zero hdue, List.append_nil, kept, if_neg (by simp), List.length_take]
      exact Nat.min_eq_left (not_le.mp hi').le

/-! ## All passes -/

lemma totalWaitings_dispatch (hn : 0 < n) (t : Executors) :
    totalWaitings n (dispatchUnblocked n t) = totalWaitings n t := by
  obtain ⟨k, -, -, htable⟩ := load_dispatch hn t
  refine sum_congr rfl fun i hi => ?_
  rw [htable, setQueues_of_mem (by simpa using hi)]
  rfl

lemma setQueues_setQueues (q q' : ℕ → List CoTaskPtr) (t : Executors) :
    setQueues 0 n q (setQueues 0 n q' t) = setQueues 0 n q t := by
  funext i
  by_cases hi : 0 ≤ i ∧ i < 0 + n
  · rw [setQueues_of_mem hi, setQueues_of_mem hi, setQueues_of_mem hi]
  · rw [setQueues_of_notMem hi, setQueues_of_notMem hi, setQueues_of_notMem hi]

/-- The passes write runnable queues and nothing else. -/
lemma exists_iterate_eq_setQueues (hn : 0 < n) (t : Executors) (j : ℕ) :
    ∃ q, (dispatchUnblocked n)^[j] t = setQueues 0 n q t := by
  induction j with
  | zero => exact ⟨fun i => (t i).runnableQueue, (setQueues_self fun _ _ _ => rfl).symm⟩
  | succ j ih =>
    obtain ⟨q, hq⟩ := ih
    obtain ⟨k, -, -, htable⟩ := load_dispatch hn ((dispatchUnblocked n)^[j] t)
    rw [Function.iterate_succ_apply', htable, hq]
    exact ⟨_, setQueues_setQueues _ q t⟩

/-- A table that only differs in runnable queues from `t` is known by who has the block. -/
lemma Leans.eq_setQueues {q : ℕ → List CoTaskPtr} {t' : Executors} (h : Leans n base rest t' k)
    (hq : t' = setQueues 0 n q t) :
    t' = setQueues 0 n (fun i => base i ++ if i = k then rest else []) t := by
  funext i
  by_cases hi : 0 ≤ i ∧ i < 0 + n
  · have hqueue := h.queue i (by omega)
    rw [hq, setQueues_of_mem hi] at hqueue
    rw [hq, setQueues_of_mem hi, setQueues_of_mem hi, ← hqueue]
  · rw [hq, setQueues_of_notMem hi, setQueues_of_notMem hi]

lemma iterate_of_settled (hn : 0 < n)
    (hnone : (totalRunnables n t + totalWaitings n t) % n ≤ totalWaitings n t) (j : ℕ) :
    (dispatchUnblocked n)^[j + 1] t = dispatchUnblocked n t := by
  obtain ⟨k, -, hload, -⟩ := load_dispatch hn t
  have hfits : excess n (load t) (avgLoad n t) ≤ lack (load t) (avgLoad n t) n :=
    excess_le_lack_iff.mpr ((totalRunnables_le_iff n t 0).mpr hnone)
  have hlow : ∀ i < n, load (dispatchUnblocked n t) i ≤ avgLoad n (dispatchUnblocked n t) := by
    intro i hi
    rw [avgLoad_dispatch hn, hload i hi]
    exact levelled_le hfits i
  rw [Function.iterate_succ_apply]
  exact Function.iterate_fixed (dispatch_of_le hn hlow) j

/-- **The dispatcher settles with its first pass, or never.**  Let it run pass after pass over
executors that are not blocking and that nobody else touches.  If the division leaves no more than
there are waiting tasks, every later pass leaves the table of the first one as it is.  Otherwise
there is a block of tasks, as many as the division leaves less the waiting ones, that from the
second pass on changes between the executors 0 and 1 with every pass, behind queues of the average
length that stay as they are. -/
theorem ticks_settle_or_alternate (n : ℕ) (t : Executors) :
    ((totalRunnables n t + totalWaitings n t) % n ≤ totalWaitings n t →
      ∀ j, (dispatchUnblocked n)^[j + 1] t = dispatchUnblocked n t) ∧
    (totalWaitings n t < (totalRunnables n t + totalWaitings n t) % n →
      ∃ (base : ℕ → List CoTaskPtr) (rest : List CoTaskPtr) (c : ℕ),
        rest.length + totalWaitings n t = (totalRunnables n t + totalWaitings n t) % n ∧
        (∀ i < n, (base i).length = avgLoad n t) ∧
        ∀ j, (j + c) % 2 < n ∧ (dispatchUnblocked n)^[j + 2] t =
          setQueues 0 n (fun i => base i ++ if i = (j + c) % 2 then rest else []) t) := by
  rcases Nat.eq_zero_or_pos n with rfl | hn
  · -- without executors there are no tasks, and a pass does nothing
    have hid : dispatchUnblocked 0 = id := rfl
    exact ⟨fun _ j => by rw [hid, Function.iterate_id],
      fun hleft => absurd hleft (Nat.lt_irrefl 0)⟩
  refine ⟨iterate_of_settled hn, fun hleft => ?_⟩
  obtain ⟨base, rest, k, hleans⟩ := leans_of_leftover hn hleft
  obtain ⟨c, hc⟩ := exists_nextHolder_iterate k
  refine ⟨base, rest, c, ?_, ?_, fun j => ?_⟩
  · have hrest := hleans.length_rest
    rwa [totalWaitings_dispatch hn, totalRunnables_dispatch hn] at hrest
  · intro i hi
    rw [hleans.length i hi, avgLoad_dispatch hn]
  · have hj := hleans.iterate (j + 1)
    rw [hc j, ← Function.iterate_succ_apply] at hj
    obtain ⟨q, hq⟩ := exists_iterate_eq_setQueues hn t (j + 2)
    exact ⟨hj.lt, hj.eq_setQueues hq⟩

/-- Two runnable tasks and one: the second of the two goes back and forth. -/
example : let t := tableOf [([1, 2], []), ([3], [])]
    (List.range 5).map (fun j => [0, 1].map fun i =>
      ((dispatchUnblocked 2)^[j] t i).runnableQueue) =
    [[[1, 2], [3]], [[1], [3, 2]], [[1, 2], [3]], [[1], [3, 2]], [[1, 2], [3]]] := by decide

end CoroutineCpp
