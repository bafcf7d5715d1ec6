import CoroutineCpp.Properties.DispatchBalance

/-!
# The iterators of the hand-out loop

`first + n_supply` is formed before `std::min` cuts it back to `stolen.end()`, so whether it lies
in the deque is not a matter of that call.  The loop stops as soon as the stolen tasks are used
up, hence at most the last sum can lie behind the end; it does exactly when the number of stolen
tasks falls strictly inside the request being served (`handOut_inBounds_iff`).
-/

namespace CoroutineCpp

open Framework Finset

namespace DispatchState

/-- The requests the hand-out loop serves, for the loads `f`. -/
abbrev request (d : DispatchState) (f : ℕ → ℕ) (j : ℕ) : ℕ := d.avgLoad - f j

/-- The positions formed from executor `i` on, while there is something to hand out. -/
lemma handOutPositions_le_iff (f : ℕ → ℕ) (k i : ℕ) (d : DispatchState) (t : Executors)
    (hfirst : d.first = used d f i) (hmore : d.first < d.stolen.length) :
    (∀ p ∈ handOutPositions (lowItems d.avgLoad f (List.range' i k)) (d, t),
        p ≤ d.stolen.length) ↔
      ∀ j ∈ List.range' i k, ¬ RunsOutIn (request d f) d.stolen.length j := by
  induction k generalizing i d t with
  | zero => simp [lowItems, handOutPositions]
  | succ k ih =>
    have hturn : lack f d.avgLoad i < d.stolen.length := by
      rw [hfirst, used] at hmore
      omega
    have hnext : lack f d.avgLoad (i + 1) = lack f d.avgLoad i + (d.avgLoad - f i) :=
      asked_succ _ i
    rw [List.range'_succ, lowItems_cons, List.forall_mem_cons]
    by_cases hdue : d.avgLoad - f i = 0
    · have hskip : handOutPositions ((if f i ≤ d.avgLoad then [(i, f i)] else []) ++
          lowItems d.avgLoad f (List.range' (i + 1) k)) (d, t) =
          handOutPositions (lowItems d.avgLoad f (List.range' (i + 1) k)) (d, t) := by
        split
        next hlow => simp [handOutPositions, wrapSub_of_le hlow, hdue]
        next => rfl
      have hused : d.first = used d f (i + 1) := by
        rw [hfirst, used, used, hnext, hdue, Nat.add_zero]
      have hnot : ¬ RunsOutIn (request d f) d.stolen.length i := not_runsOutIn_of_eq_zero hdue
      rw [hskip, ih (i + 1) d t hused hmore, and_iff_right hnot]
    · have hlow : f i ≤ d.avgLoad := by omega
      have hsupply : wrapSub d.avgLoad (f i) ≠ 0 := by rwa [wrapSub_of_le hlow]
      have hsum : d.first + wrapSub d.avgLoad (f i) = lack f d.avgLoad (i + 1) := by
        rw [hfirst, used, wrapSub_of_le hlow, hnext]
        omega
      have hend : lack f d.avgLoad (i + 1) ≤ d.stolen.length ↔
          ¬ RunsOutIn (request d f) d.stolen.length i := by
        rw [RunsOutIn, not_and, not_lt]
        exact ⟨fun h _ => h, fun h => h hturn⟩
      rw [if_pos hlow]
      simp only [List.cons_append, List.nil_append, handOutPositions, if_neg hsupply,
        supplyEnd_eq hlow hfirst, handTo_share t hfirst, List.forall_mem_cons, hsum, hend]
      refine and_congr_right fun _ => ?_
      rw [and_iff_right (min_le_right _ _)]
      split
      next hdone =>
        -- the loop breaks, and nothing is left for the later requests
        have hall : d.stolen.length ≤ lack f d.avgLoad (i + 1) := by
          rw [ge_iff_le, used] at hdone
          omega
        refine iff_of_true (by simp) fun j hj => not_runsOutIn_of_le hall ?_
        exact (List.mem_range'_1.mp hj).1
      next hmore' =>
        refine ih (i + 1)
          { d with
            first := used d f (i + 1)
            handed := d.handed ++ pushes d.stolen (fun j => d.avgLoad - f j) [i] } _ rfl ?_
        exact not_le.mp hmore'

end DispatchState

/-- **When the hand-out loop stays inside the stolen deque.**  Every iterator position formed in a
pass lies between `begin()` and `end()` exactly when the stolen tasks do not run out strictly
inside what one executor is due. -/
theorem handOut_inBounds_iff (n : ℕ) (blocking : ℕ → Bool) (t : Executors) :
    (∀ p ∈ dispatchPositions n blocking t,
        p ≤ (dispatchTasksEqually n blocking t).1.stolen.length) ↔
      ∀ i < n, ¬ RunsOutIn (nSupply n t) (offered n blocking t) i := by
  rcases Nat.eq_zero_or_pos n with rfl | hn
  · simp [dispatchPositions]
  obtain ⟨-, -, hstolen, -⟩ := dispatchTasksEqually_eq hn blocking t
  rw [hstolen, length_stolenTasks]
  simp only [dispatchPositions]
  rw [avgLoad_eq]
  split
  next hzero =>
    have hnone : offered n blocking t = 0 := by
      rw [← length_stolenTasks, stolenTasks_eq_nil fun i hi =>
        (load_eq_zero hzero i hi).trans_le (Nat.zero_le _), List.length_nil]
    exact iff_of_true (by simp) fun i _ => not_runsOutIn_of_le (i := 0) hnone.le (Nat.zero_le i)
  next =>
    obtain ⟨k, hcol⟩ := stealLoop_collected hn blocking t
      ((List.range n).map fun i => (t i).getRunnableCount).sum
      ((List.range n).map fun i => (t i).getWaitingCount).sum
    generalize stealLoop blocking (List.range n) _ = p at hcol ⊢
    have hlen : p.1.stolen.length = offered n blocking t := by
      rw [hcol.stolen_eq, length_stolenTasks]
    split
    next hnil =>
      have hnone : offered n blocking t = 0 := by rw [← hlen, hnil, List.length_nil]
      exact iff_of_true (by simp) fun i _ => not_runsOutIn_of_le (i := 0) hnone.le (Nat.zero_le i)
    next hne =>
      have hused : p.1.first = p.1.used (load t) 0 := by
        rw [hcol.first_eq, DispatchState.used, lack, asked_zero, Nat.zero_min]
      have hpos : p.1.first < p.1.stolen.length := by
        rw [hcol.first_eq]
        exact List.length_pos_iff.mpr hne
      have hloop := DispatchState.handOutPositions_le_iff (load t) n 0 p.1 p.2 hused hpos
      have hrequest : p.1.request (load t) = nSupply n t := by
        funext j
        rw [DispatchState.request, hcol.avgLoad_eq, nSupply]
      rw [hlen, hcol.avgLoad_eq, ← List.range_eq_range', ← hcol.lowLoad_eq, hrequest] at hloop
      rw [List.forall_mem_cons, and_iff_right (Nat.zero_le _)]
      simpa using hloop

/-- Two executors, the first with three runnable tasks, the second with two waiting ones: one task
is stolen and the second executor is due two, so that `first + n_supply` is behind the end. -/
theorem handOut_outOfBounds :
    let t := tableOf [([1, 2, 3], []), ([], [4, 5])]
    dispatchPositions 2 (fun _ => false) t = [0, 2, 1] ∧
      (dispatchTasksEqually 2 (fun _ => false) t).1.stolen = [3] ∧
      ¬ ∀ p ∈ dispatchPositions 2 (fun _ => false) t,
        p ≤ (dispatchTasksEqually 2 (fun _ => false) t).1.stolen.length := by
  decide

end CoroutineCpp
